import Mathlib.Data.List.DropRight
import ScriptAudit.Proofs.Command.Opcodes
import ScriptAudit.Proofs.CommandLine.Gathering
import ScriptAudit.Proofs.Files.Below

/-!
What a run reads. Its inputs lead to the files below them, at whatever depth, and each file is read
once for each input that leads to it. The scripts are the files whose names end in one of two
extensions, in any case of the letters.
-/
namespace ScriptAudit

namespace Path

/-- Some name, a dot, and the extension in any case of its letters. -/
def HasExtension (path : Path) (extension : String) : Prop :=
  ∃ stem tail, stem ≠ [] ∧ path.name = stem ++ dot :: Text.ofChars tail ∧
    tail.map Char.toLower = extension.toList

theorem suffixOf_append {stem tail : Text} (named : stem ≠ []) (some : tail ≠ [])
    (free : dot ∉ tail) : suffixOf (stem ++ dot :: tail) = dot :: tail := by
  have apart : ∀ point ∈ tail.reverse, (point != dot) = true := by
    intro point member
    simp only [bne_iff_ne, ne_eq]
    rintro rfl
    exact free (List.mem_reverse.mp member)
  have taken : (stem ++ dot :: tail).reverse.takeWhile (· != dot) = tail.reverse := by
    rw [List.reverse_append, List.reverse_cons, List.append_assoc,
      List.takeWhile_append_of_pos apart]
    simp
  have longer : 0 < stem.length := List.length_pos_iff.mpr named
  unfold suffixOf
  rw [taken, List.reverse_reverse, if_neg]
  simp only [Bool.or_eq_true, List.isEmpty_iff, some, false_or, decide_eq_true_eq,
    List.length_append, List.length_cons]
  omega

theorem suffixOf_eq_cons {name tail : Text} (same : suffixOf name = dot :: tail) :
    ∃ stem, stem ≠ [] ∧ name = stem ++ dot :: tail := by
  have whole := @List.rdropWhile_append_rtakeWhile _ (· != dot) name
  have last := List.rdropWhile_last_not (· != dot) name
  have taken : (name.reverse.takeWhile (· != dot)).reverse = name.rtakeWhile (· != dot) := rfl
  unfold suffixOf at same
  rw [taken] at same
  by_cases short : ((name.rtakeWhile (· != dot)).isEmpty ||
      name.length ≤ (name.rtakeWhile (· != dot)).length + 1) = true
  · rw [if_pos short] at same
    cases same
  · rw [if_neg short] at same
    -- What stands in front of the tail ends with a dot, and is more than this dot.
    have back : name.rtakeWhile (· != dot) = tail := (List.cons.inj same).2
    have size := congrArg List.length whole
    simp only [Bool.or_eq_true, decide_eq_true_eq, not_or, back, List.length_append] at short size
    have some : name.rdropWhile (· != dot) ≠ [] := by
      intro none
      rw [none, List.length_nil] at size
      omega
    have ends := List.dropLast_append_getLast some
    rw [show (name.rdropWhile (· != dot)).getLast some = dot by simpa using last some] at ends
    have front := congrArg List.length ends
    rw [List.length_append, List.length_singleton] at front
    refine ⟨(name.rdropWhile (· != dot)).dropLast, ?_, ?_⟩
    · intro none
      rw [none, List.length_nil] at front
      omega
    · rw [List.append_cons, ends, ← back, whole]

end Path

def ResourceKind.extension : ResourceKind → String
  | language => "fxt"
  | script => "csa"
  | invokedScript => "csi"

namespace ResourceKind

theorem toLower_eq_dot : ∀ c : Char, c.toLower = '.' → c = '.' :=
  Text.toLower_cases (P := fun c small => small = '.' → c = '.') (by decide +kernel)
    fun _ _ => id

theorem ofSuffix_ok_iff {suffix : Text} {kind : ResourceKind} :
    ofSuffix suffix = .ok kind ↔
      suffix.toString?.map String.toLower = some ("." ++ kind.extension) := by
  unfold ofSuffix
  generalize suffix.toString?.map String.toLower = small
  constructor
  · intro same
    split at same <;> cases same <;> rfl
  · rintro rfl
    cases kind <;> rfl

theorem extension_toList (kind : ResourceKind) :
    kind.extension.toList ≠ [] ∧ '.' ∉ kind.extension.toList := by
  cases kind <;> decide

theorem ofSuffix_iff_hasExtension (path : Path) (kind : ResourceKind) :
    ofSuffix path.suffix = .ok kind ↔ path.HasExtension kind.extension := by
  have letters : ∀ chars : List Char, (String.ofList chars).toLower = "." ++ kind.extension ↔
      chars.map Char.toLower = '.' :: kind.extension.toList := by
    intro chars
    have each : (String.ofList chars).toLower = (String.ofList chars).map Char.toLower := rfl
    rw [each, ← String.toList_inj, String.toList_map, String.toList_append]
    simp
  rw [ofSuffix_ok_iff, Text.toString?, Option.map_map, Option.map_eq_some_iff]
  constructor
  · rintro ⟨chars, all, small⟩
    obtain ⟨point, tail, rfl, begins, same⟩ := List.map_eq_cons_iff.mp ((letters chars).mp small)
    obtain rfl := toLower_eq_dot point begins
    obtain ⟨stem, named, whole⟩ := Path.suffixOf_eq_cons (Text.eq_ofChars all)
    exact ⟨stem, tail, named, whole, same⟩
  · rintro ⟨stem, tail, named, whole, same⟩
    -- The dot in front of the extension is the last one, as no extension has one inside.
    obtain ⟨some, free⟩ := kind.extension_toList
    rw [← same] at some free
    have apart : Path.dot ∉ Text.ofChars tail := by
      intro member
      obtain ⟨c, inside, isDot⟩ := List.mem_map.mp member
      rw [CodePoint.char.inj isDot] at inside
      exact free (List.mem_map.mpr ⟨'.', inside, rfl⟩)
    have ending : path.suffix = Text.ofChars ('.' :: tail) := by
      rw [Path.suffix, whole]
      exact Path.suffixOf_append named (by simpa [Text.ofChars] using some) apart
    refine ⟨'.' :: tail, ?_, (letters _).mpr ?_⟩
    · rw [ending, Text.chars?_ofChars]
    · rw [List.map_cons, same]
      rfl

end ResourceKind

instance (path : Path) : Decidable (path.HasExtension "csa") :=
  decidable_of_iff _ (ResourceKind.ofSuffix_iff_hasExtension path .script)

instance (path : Path) : Decidable (path.HasExtension "csi") :=
  decidable_of_iff _ (ResourceKind.ofSuffix_iff_hasExtension path .invokedScript)

def scriptsIn (table : Table) (files : List (Path × Bytes)) : List LoadedScript :=
  (files.filter fun file => file.1.HasExtension "csa" ∨ file.1.HasExtension "csi").map fun file =>
    ⟨file.1, file.2, (check table (.bytes file.2)).1, file.1.HasExtension "csi"⟩

theorem issue_of_mem_scriptsIn {table : Table} {files : List (Path × Bytes)}
    {script : LoadedScript} (member : script ∈ scriptsIn table files) :
    script.issue = (check table (.bytes script.data)).1 := by
  obtain ⟨file, _, rfl⟩ := List.mem_map.mp member
  rfl

def resourcesIn (table : Table) (files : List (Path × Bytes)) : List Resource :=
  files.flatMap fun file => (Visit.file file.1 file.2).resources table

def storeIn (table : Table) (files : List (Path × Bytes)) : Language.Entries :=
  ((resourcesIn table files).foldl Loader.keep { table }).store

theorem scriptsOf_file (table : Table) (file : Path × Bytes) :
    Session.scriptsOf ((Visit.file file.1 file.2).resources table) = scriptsIn table [file] := by
  have script : _ ↔ file.1.HasExtension "csa" :=
    ResourceKind.ofSuffix_iff_hasExtension file.1 .script
  have invoked : _ ↔ file.1.HasExtension "csi" :=
    ResourceKind.ofSuffix_iff_hasExtension file.1 .invokedScript
  simp only [Visit.resources, Loader.visit, Resource.ofFile, scriptsIn]
  cases suffix : ResourceKind.ofSuffix file.1.suffix with
  | error error =>
      rw [suffix] at script invoked
      simp [← script, ← invoked, bind, Except.bind, Session.scriptsOf]
  | ok kind =>
      rw [suffix] at script invoked
      simp only [bind, Except.bind]
      cases kind with
      | script => simp [← script, ← invoked, Session.scriptsOf, ResourceKind.load]
      | invokedScript => simp [← script, ← invoked, Session.scriptsOf, ResourceKind.load]
      | language =>
          simp only [ResourceKind.load]
          cases Text.ofUtf8? file.2 <;> simp [← script, ← invoked, Session.scriptsOf]

theorem scriptsOf_resourcesIn (table : Table) (files : List (Path × Bytes)) :
    Session.scriptsOf (resourcesIn table files) = scriptsIn table files := by
  induction files with
  | nil => rfl
  | cons file rest ih =>
      have first := scriptsOf_file table file
      simp only [Session.scriptsOf, scriptsIn, resourcesIn] at first ih ⊢
      rw [List.flatMap_cons, List.filterMap_append, first, ih, ← List.map_append,
        ← List.filter_append, List.singleton_append]

namespace Visit

theorem flatMap_resources (table : Table) (visits : List Visit) :
    visits.flatMap (resources table) = resourcesIn table (filesIn visits) := by
  induction visits with
  | nil => rfl
  | cons visit rest ih =>
      rw [List.flatMap_cons, ih]
      cases visit <;> rfl

/-- Which files are met does not depend on what they hold. -/
theorem paths_outline (visits : List Visit) :
    (filesIn (visits.map outline)).map Prod.fst = (filesIn visits).map Prod.fst := by
  rw [filesIn, filesIn, List.filterMap_map, List.map_filterMap, List.map_filterMap]
  congr 1
  funext visit
  cases visit <;> rfl

end Visit

namespace Session

/-- The files that some inputs lead to, and what they hold when the log is opened. The log may have
grown when it is read itself. -/
structure Reads (opened : Session) (inputs : List Path) (read : List (Path × Bytes)) : Prop where
  paths : ∃ parts, List.Forall₂ opened.tree.FilesUnder inputs parts ∧
    read.map Prod.fst = parts.flatten
  bytes : ∀ file ∈ read, ∀ held, opened.tree.readFile file.1 = .ok held →
    file.2 = held ∨ ∃ place, opened.logPlace = some place ∧ opened.tree.Leads file.1 place

theorem filesUnder_stops {tree node : Node} {path : Path}
    (found : tree.resolve path = .ok node) :
    tree.FilesUnder path ((Visit.filesIn (stops tree path)).map Prod.fst) := by
  obtain ⟨names, _, asked, _⟩ := (Node.resolve_ok_iff _ _ _).mp found
  have same : (Visit.filesIn (stops tree path)).map Prod.fst =
      (Visit.filesIn (Visit.ofNode path node)).map Prod.fst := by
    cases node with
    | file bytes =>
        simp only [stops, Node.readDirectory, Node.readFile, found, bind, Except.bind,
          Visit.ofNode_file, Visit.leaf, asked]
    | directory entries =>
        have listed : tree.readDirectory path = .ok entries := by
          simp only [Node.readDirectory, found, bind, Except.bind]
        -- Each file is looked at again on the way, which changes no path.
        rw [← Visit.filesIn_walk entries asked, ← Visit.paths_outline, stops, listed,
          ← Visit.paths_outline (Visit.walk path entries), List.map_map]
        congr 2
        apply List.map_congr_left
        intro visit _
        exact Visit.outline_refresh tree visit
  rw [same]
  exact Node.filesUnder_ofNode found

theorem Visited.reads {opened : Session} {inputs : List Path} {met : List Visit}
    (visited : Visited opened (inputs.flatMap (stops opened.tree)) met)
    (present : ∀ path ∈ inputs, ∃ node, opened.tree.resolve path = .ok node) :
    Reads opened inputs (Visit.filesIn met) where
  paths := by
    refine ⟨inputs.map fun path => (Visit.filesIn (stops opened.tree path)).map Prod.fst, ?_, ?_⟩
    · rw [List.forall₂_map_right_iff, List.forall₂_same]
      intro path member
      obtain ⟨node, found⟩ := present path member
      exact filesUnder_stops found
    · rw [← Visit.paths_outline, visited.order, Visit.paths_outline, Visit.filesIn_flatMap,
        List.map_flatMap, List.flatMap_def]
  bytes := by
    intro file member held read
    obtain ⟨visit, met, here⟩ := List.mem_filterMap.mp member
    cases visit with
    | file path bytes =>
        cases here
        exact visited.bytes _ _ held met read
    | _ => cases here

end Session

end ScriptAudit
