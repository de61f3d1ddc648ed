import ScriptAudit.Proofs.Language.Composition
import ScriptAudit.Proofs.Resource.Store
import ScriptAudit.Proofs.Text.Utf8

/-!
Language files that are loaded. A file holds the text that its bytes are the form of in UTF-8. It
is read in text mode, yet what is loaded is what the text itself is read as; and files that are
loaded one after the other leave what one file leaves that holds all their texts.
-/
namespace ScriptAudit

structure LanguageFile where
  root : Node
  path : Path
  text : Text
  kind : ResourceKind.ofSuffix path.suffix = .ok .language
  held : ∃ bytes, root.readFile path = .ok bytes ∧ text.toUtf8 = .ok bytes

namespace LanguageFile

def resource (file : LanguageFile) : Resource :=
  .language file.path (Language.parse file.text).1

def request (file : LanguageFile) : Loader.Request := .file file.root file.path

end LanguageFile

theorem ResourceKind.load_language_iff (kind : ResourceKind) (table : Table)
    (path origin : Path) (bytes : Bytes) (entries : Language.Entries) (events : List Event) :
    kind.load table path bytes = .ok (.language origin entries, events) ↔
      kind = .language ∧ origin = path ∧
        ∃ text : Text, text.toUtf8 = .ok bytes ∧ Language.parse text = (entries, events) := by
  cases kind with
  | language =>
      simp only [ResourceKind.load, ← Text.ofUtf8?_eq_some_iff]
      cases Text.ofUtf8? bytes with
      | none => simp
      | some text =>
          simp only [Language.parse_foldReturns, Except.ok.injEq, Resource.language.injEq,
            Option.some.injEq, exists_eq_left', true_and, Prod.ext_iff, and_assoc,
            eq_comm (a := origin)]
  | script => simp [ResourceKind.load]
  | invokedScript => simp [ResourceKind.load]

namespace Loader

theorem openFile_language_iff (loader : Loader) (root : Node) (path origin : Path)
    (entries : Language.Entries) (events : List Event) :
    loader.openFile root path = .ok (.language origin entries, events) ↔
      origin = path ∧ ∃ file : LanguageFile, file.root = root ∧ file.path = path ∧
        Language.parse file.text = (entries, events) := by
  constructor
  · intro opened
    -- Neither a wrong extension nor a file that cannot be read gives anything.
    unfold openFile at opened
    cases known : ResourceKind.ofSuffix path.suffix with
    | error error =>
        rw [known] at opened
        cases opened
    | ok kind =>
        cases read : root.readFile path with
        | error error =>
            rw [known, read] at opened
            cases opened
        | ok bytes =>
            rw [known, read] at opened
            have loaded : kind.load loader.table path bytes =
                .ok (.language origin entries, events) := by
              cases result : kind.load loader.table path bytes with
              | error error =>
                  simp only [result] at opened
                  cases opened
              | ok value =>
                  simp only [result] at opened
                  cases opened
                  rfl
            obtain ⟨rfl, rfl, text, written, parsed⟩ :=
              (kind.load_language_iff loader.table path origin bytes entries events).mp loaded
            exact ⟨rfl, ⟨root, origin, text, known, bytes, read, written⟩, rfl, rfl, parsed⟩
  · rintro ⟨rfl, file, rfl, rfl, parsed⟩
    obtain ⟨bytes, read, written⟩ := file.held
    have loaded := (ResourceKind.language.load_language_iff loader.table file.path file.path bytes
      entries events).mpr ⟨rfl, rfl, file.text, written, parsed⟩
    simp only [openFile, file.kind, read, loaded]
    rfl

theorem loadPath_language (loader : Loader) (file : LanguageFile) :
    loader.loadPath file.root file.path =
      (.ok [file.resource], loader.keep file.resource, (Language.parse file.text).2) := by
  have opened := (loader.openFile_language_iff file.root file.path file.path _ _).mpr
    ⟨rfl, file, rfl, rfl, rfl⟩
  simp only [loadPath, opened]
  rfl

theorem exists_file_of_loadPath {loader after : Loader} {root : Node} {path origin : Path}
    {entries : Language.Entries} {events : List Event}
    (loaded : loader.loadPath root path = (.ok [.language origin entries], after, events)) :
    ∃ file : LanguageFile, file.root = root ∧ file.path = path := by
  cases opened : loader.openFile root path with
  | error failure =>
      simp only [loadPath, opened] at loaded
      cases loaded
  | ok result =>
      obtain ⟨resource, log⟩ := result
      simp only [loadPath, opened] at loaded
      cases loaded
      obtain ⟨_, file, root, path, _⟩ := (loader.openFile_language_iff _ _ _ _ _).mp opened
      exact ⟨file, root, path⟩

theorem answers_languages (loader : Loader) (files : List LanguageFile) :
    (loader.answers (files.map LanguageFile.request)).2 =
      (files.map LanguageFile.resource).foldl keep loader := by
  induction files generalizing loader with
  | nil => rfl
  | cons file rest ih =>
      have first : (loader.answer file.request).2 = loader.keep file.resource := by
        simp only [LanguageFile.request, answer, loadPath_language]
      simp only [List.map_cons, answers, first, ih, List.foldl_cons]

theorem foldl_keep_languages (loader : Loader) (files : List LanguageFile) :
    (files.map LanguageFile.resource).foldl keep loader =
      { loader with
        store := Association.update loader.store
          (Language.entries (Text.join [Text.lineFeed] (files.map LanguageFile.text))) } := by
  rw [Language.update_entries_join]
  induction files generalizing loader with
  | nil => rfl
  | cons file rest ih => exact ih (loader.keep file.resource)

/-- A single line is read as what it holds, and texts with a line feed between them are read as
they are one after the other: the entries of the second go into those of the first, where a key
keeps its first place and takes its last value, and its reports come behind those of the first. So
a loader has the same store after some language files as after one file with all their texts. -/
theorem languages_compose :
    (∀ line, Text.Unbroken line → Language.parse line =
      ([Language.Line.ofRaw line].filterMap Language.Line.entry?,
        [Language.Line.ofRaw line].filterMap Language.Line.warning?)) ∧
    (∀ front back, Language.parse (front ++ Text.lineFeed :: back) =
      (Association.update (Language.parse front).1 (Language.parse back).1,
        (Language.parse front).2 ++ (Language.parse back).2)) ∧
    ∀ (loader : Loader) (files : List LanguageFile) (whole : LanguageFile),
      whole.text = Text.join [Text.lineFeed] (files.map LanguageFile.text) →
      (loader.answers (files.map LanguageFile.request)).2 = (loader.answer whole.request).2 := by
  refine ⟨fun _ => Language.parse_of_unbroken, Language.parse_append, ?_⟩
  intro loader files whole joined
  calc (loader.answers (files.map LanguageFile.request)).2
    _ = (files.map LanguageFile.resource).foldl keep loader := loader.answers_languages files
    _ = loader.keep whole.resource := by
        rw [foldl_keep_languages, ← joined]
        rfl
    _ = (loader.answer whole.request).2 := by
        simp only [LanguageFile.request, answer, loadPath_language]

section Notes

/-- Two files for one key and a third with the texts of both. The first one ends in a carriage
return, which the line feed between them belongs to. -/
def noteTree : Node :=
  .directory [("a.fxt", .file [0x4B, 0x20, 0x31, 0x0D]), ("b.fxt", .file [0x4B, 0x20, 0x32]),
    ("c.fxt", .file [0x4B, 0x20, 0x31, 0x0D, 0x0A, 0x4B, 0x20, 0x32])]

def oldNote : LanguageFile where
  root := noteTree
  path := Path.current.child "a.fxt"
  text := "K 1\r"
  kind := by decide +kernel
  held := ⟨[0x4B, 0x20, 0x31, 0x0D], by decide +kernel, by decide +kernel⟩

def newNote : LanguageFile where
  root := noteTree
  path := Path.current.child "b.fxt"
  text := "K 2"
  kind := by decide +kernel
  held := ⟨[0x4B, 0x20, 0x32], by decide +kernel, by decide +kernel⟩

def bothNotes : LanguageFile where
  root := noteTree
  path := Path.current.child "c.fxt"
  text := "K 1\r\nK 2"
  kind := by decide +kernel
  held := ⟨[0x4B, 0x20, 0x31, 0x0D, 0x0A, 0x4B, 0x20, 0x32], by decide +kernel, by decide +kernel⟩

theorem bothNotes_composed :
    bothNotes.text = Text.join [Text.lineFeed] ([oldNote, newNote].map LanguageFile.text) ∧
      (answers ⟨waitTable, []⟩ ([oldNote, newNote].map LanguageFile.request)).2 =
        (answer ⟨waitTable, []⟩ bothNotes.request).2 := by
  have joined : bothNotes.text =
      Text.join [Text.lineFeed] ([oldNote, newNote].map LanguageFile.text) := by decide +kernel
  exact ⟨joined, languages_compose.2.2 ⟨waitTable, []⟩ [oldNote, newNote] bothNotes joined⟩

end Notes

/-- A text in which each carriage return, with the line feed behind it or without one, has become
a line feed is read as before, with the same reports. So whatever ends the lines of a language
file, loading it gives what its text is read as; and each language that is loaded is of such a
file. -/
theorem languages_of_any_ends :
    (∀ text, Language.parse (Text.feedReturns (Text.mergePairs text)) = Language.parse text) ∧
    (∀ (loader : Loader) (file : LanguageFile),
      loader.loadPath file.root file.path =
        (.ok [.language file.path (Language.parse file.text).1],
          { loader with store := Association.update loader.store (Language.parse file.text).1 },
          (Language.parse file.text).2)) ∧
    ∀ (loader after : Loader) root path origin entries events,
      loader.loadPath root path = (.ok [.language origin entries], after, events) →
      ∃ file : LanguageFile, file.root = root ∧ file.path = path := by
  refine ⟨?_, loadPath_language, fun _ _ _ _ _ _ _ => exists_file_of_loadPath⟩
  intro text
  rw [← Text.foldReturns_eq, Language.parse_foldReturns]

end Loader

end ScriptAudit
