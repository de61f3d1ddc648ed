import ScriptAudit.Proofs.Audit.Verdict
import ScriptAudit.Proofs.CommandLine.Listings
import ScriptAudit.Proofs.CommandLine.Reading

/-!
What a run says in the end. Its status tells whether something was found: a command or a cheat
that is not known, or a script from which a flagged instruction can be reached. The output has one
line for each script that was loaded, and the totals count these lines. None of this depends on
the listings that are asked for.
-/
namespace ScriptAudit

def ReachesFlagged (table : Table) (data : Bytes) : Prop :=
  ∃ offset instruction, Reachable table data offset ∧
    Instruction.decode table data offset = .ok instruction ∧ Issue.Flagged instruction.opcode

theorem check_eq_none_iff (table : Table) (data : Bytes) :
    (check table (.bytes data)).1 = none ↔ ¬ ReachesFlagged table data := by
  have clean := firstIssue?_eq_none_iff table data
  rw [← Option.map_eq_none_iff (f := Prod.snd), ← checkBytes_verdict] at clean
  refine clean.trans ⟨?_, ?_⟩
  · rintro unflagged ⟨offset, instruction, reachable, decoded, flagged⟩
    exact unflagged offset instruction reachable decoded flagged
  · intro absent offset instruction reachable decoded flagged
    exact absent ⟨offset, instruction, reachable, decoded, flagged⟩

instance (table : Table) (data : Bytes) : Decidable (ReachesFlagged table data) :=
  decidable_of_iff (¬ (check table (.bytes data)).1 = none) <| by
    rw [check_eq_none_iff]
    exact Classical.not_not

namespace Lookup

/-- No command of the table is called this, and it is no hexadecimal number whose low 15 bits are
an opcode of the table. -/
def Unknown (table : Table) (token : Text) : Prop :=
  (∀ command ∈ table.commands, command.name ≠ token) ∧
    ∀ number, token.chars?.bind Text.hexadecimal? = some number →
      ∀ command ∈ table.commands, command.opcode ≠ number % 0x8000

theorem command?_eq_none_iff (table : Table) (token : Text) :
    command? table token = none ↔ Unknown table token := by
  have unnamed : table.named token = none ↔ ∀ command ∈ table.commands, command.name ≠ token := by
    simp [Table.named]
  have unplaced : (opcode? token).bind table.lookup = none ↔
      ∀ number, token.chars?.bind Text.hexadecimal? = some number →
        ∀ command ∈ table.commands, command.opcode ≠ number % 0x8000 := by
    unfold opcode?
    cases token.chars?.bind Text.hexadecimal? with
    | none => simp
    | some number => simp [Table.lookup, Command.opcodeLimit]
  unfold Unknown
  rw [← unnamed, ← unplaced, command?]
  cases table.named token <;> simp

theorem unknownCommands_eq_zero_iff (table : Table) (tokens : List Text) :
    unknownCommands table tokens = 0 ↔ ∀ token ∈ tokens, ¬ Unknown table token := by
  simp only [unknownCommands, List.length_eq_zero_iff, List.filter_eq_nil_iff,
    Option.isNone_iff_eq_none, command?_eq_none_iff]

end Lookup

namespace Cheat

/-- No cheat has this code, with blanks around it left out and in capitals. -/
def Unknown (code : Text) : Prop :=
  ∀ cheat ∈ all, cheat.code ≠ "" → Text.ofString cheat.code ≠ Text.capitals (Text.trim code)

theorem find?_eq_none_iff (code : Text) : find? code = none ↔ Unknown code := by
  have empty : ∀ text : String, Text.ofString text = [] ↔ text = "" := by
    intro text
    simp [Text.ofString, Text.ofChars]
  unfold find? Unknown
  cases Text.capitals (Text.trim code) with
  | nil => simp [empty]
  | cons point token =>
      simp only [List.find?_eq_none, decide_eq_true_eq]
      constructor
      · intro absent cheat member _
        exact absent cheat member
      · intro absent cheat member same
        refine absent cheat member ?_ same
        intro blank
        rw [(empty _).mpr blank] at same
        cases same

end Cheat

theorem Lookup.unknownCheats_eq_zero_iff (codes : List Text) :
    unknownCheats codes = 0 ↔ ∀ code ∈ codes, ¬ Cheat.Unknown code := by
  simp only [unknownCheats, List.length_eq_zero_iff, List.filter_eq_nil_iff,
    Option.isNone_iff_eq_none, Cheat.find?_eq_none_iff]

theorem Given.mem_leading_iff {α : Type} {given : List (Given α)}
    (all : given.any isDashes = false) (value : α) :
    value ∈ leading given ↔ .value value ∈ given := by
  induction given with
  | nil => simp [leading]
  | cons first rest ih =>
      cases first with
      | dashes => cases all
      | value other => simp [leading, ih all]

theorem compatible_iff {table : Table} {files : List (Path × Bytes)} {script : LoadedScript}
    (member : script ∈ scriptsIn table files) :
    script.issue = none ↔ ¬ ReachesFlagged table script.data := by
  rw [issue_of_mem_scriptsIn member]
  exact check_eq_none_iff table script.data

namespace Session

theorem Silent.writeListing (directory : Path) (script : LoadedScript)
    (limit : Option (Given Int)) (graph : Graph) :
    Silent (writeListing directory script (listingOf limit graph)) := by
  have listing : Silent (listingOf limit graph) := by
    intro before value after ran
    obtain ⟨-, rfl⟩ := listingOf_ok ran
    rfl
  have writing : ∀ text, Silent (writeFile (listingPath directory script) text) := by
    intro text before value after ran
    obtain ⟨place, bytes, _, _, rfl⟩ := writeFile_ok ran
    rfl
  refine get.bind fun _ => (orFile _).bind fun tree => Silent.bind ?_ fun _ =>
    listing.bind fun text => (writing text).bind fun _ => log _
  exact modify fun _ => rfl

def shown (options : Options) (table : Table) (script : LoadedScript) : Text :=
  if options.listing then
    (Listing.ofGraph (explore table script.data).1
      (limitOf options.maxInstructions)).toOption.getD []
  else []

def report (options : Options) (table : Table) (script : LoadedScript) : Text :=
  Text.ofLines [statusLine script] ++ shown options table script

section Report

variable {options : Options} {table : Table} {script : LoadedScript} {before after : Session}

theorem shown_out {next : Run Unit} (silent : Silent next)
    (ran : (if options.listing then
        listingOf options.maxInstructions (explore table script.data).1 >>= fun text =>
          print text >>= fun _ => next
      else next) before = .ok () after) :
    after.out = before.out ++ shown options table script := by
  unfold shown
  by_cases listing : options.listing = true
  · simp only [listing, ↓reduceIte] at ran ⊢
    obtain ⟨text, _, listed, printing⟩ := Steps.bind_ok_iff.mp ran
    obtain ⟨rendered, rfl⟩ := listingOf_ok listed
    obtain ⟨_, middle, printed, further⟩ := Steps.bind_ok_iff.mp printing
    rw [silent middle () after further, rendered]
    cases printed
    rfl
  · simp only [listing, Bool.false_eq_true, ↓reduceIte] at ran ⊢
    rw [silent before () after ran, List.append_nil]

theorem reportListing_out (ran : reportListing options table script before = .ok () after) :
    after.out = before.out ++ shown options table script := by
  obtain ⟨_, logged, recording, further⟩ := Steps.bind_ok_iff.mp ran
  rw [← Silent.log _ before () logged recording]
  refine shown_out ?_ further
  cases options.listingOut with
  | none => exact Silent.pure ()
  | some directory => exact Silent.writeListing directory script _ _

theorem reportScript_out (ran : reportScript options table script before = .ok () after) :
    after.out = before.out ++ report options table script := by
  obtain ⟨_, middle, printed, further⟩ := Steps.bind_ok_iff.mp ran
  have line : middle.out = before.out ++ Text.ofLines [statusLine script] := by
    cases printed
    rfl
  rw [report, ← List.append_assoc, ← line]
  by_cases asked : (options.listing || options.listingOut.isSome) = true
  · simp only [asked, ↓reduceIte] at further
    exact reportListing_out further
  · simp only [asked, Bool.false_eq_true, ↓reduceIte] at further
    cases further
    simp only [Bool.or_eq_true, not_or] at asked
    simp only [shown, asked.1, Bool.false_eq_true, ↓reduceIte, List.append_nil]

theorem reportScripts_out {scripts : List LoadedScript}
    (ran : reportScripts options table scripts before = .ok () after) :
    after.out = before.out ++ scripts.flatMap (report options table) := by
  induction scripts generalizing before with
  | nil =>
      cases ran
      exact (List.append_nil _).symm
  | cons script rest ih =>
      obtain ⟨_, middle, reported, further⟩ := Steps.bind_ok_iff.mp ran
      rw [ih further, reportScript_out reported, List.append_assoc, List.flatMap_cons]

end Report

theorem statusLine_eq_iff (script : LoadedScript) :
    statusLine script = script.path.text ++ ": " ++ "compatible" ↔ script.issue = none := by
  unfold statusLine
  rw [List.append_cancel_left_eq]
  cases script.issue with
  | none => simp
  | some issue => cases issue <;> decide

def totals (scripts flagged entries : Nat) : Text :=
  "scripts: " ++ toString scripts ++ "\nflagged: " ++ toString flagged ++
    "\nlanguage entries: " ++ toString entries ++ "\ntotal execution time: <time>s\n"

theorem flagged_eq_countP {table : Table} {files : List (Path × Bytes)} :
    flagged (scriptsIn table files) =
      (scriptsIn table files).countP fun script => ReachesFlagged table script.data := by
  rw [flagged, List.countP_eq_length_filter]
  congr 1
  apply List.filter_congr
  intro script member
  have compatible := compatible_iff member
  by_cases reaches : ReachesFlagged table script.data
  · have issue : script.issue.isSome = true :=
      Option.isSome_iff_ne_none.mpr fun none => compatible.mp none reaches
    simp [LoadedScript.compatible, reaches, issue]
  · simp [LoadedScript.compatible, reaches, compatible.mpr reaches]

/-- What a run says about the files that it has read: its status, and its output with a line for
each script, the listings behind these lines, and the totals. -/
structure Reports (options : Options) (table : Table) (read : List (Path × Bytes))
    (failures : List (Path × LoadFailure)) (found : Bool) (out : Text) : Prop where
  status : found = true ↔
    (∃ token, .value token ∈ options.describe ∧ Lookup.Unknown table token) ∨
    (∃ code, .value code ∈ options.cheat ∧ Cheat.Unknown code) ∨
    ∃ script ∈ scriptsIn table read, ReachesFlagged table script.data
  lines : ∀ script ∈ scriptsIn table read,
    statusLine script = script.path.text ++ ": " ++ "compatible" ↔
      ¬ ReachesFlagged table script.data
  output : out = lookedUp table options ++ Text.ofLines (failures.map refusal) ++
    (scriptsIn table read).flatMap (report options table) ++
    if options.summary then
      totals (scriptsIn table read).length
        ((scriptsIn table read).countP fun script => ReachesFlagged table script.data)
        (storeIn table read).length
    else []

theorem Gathered.reports {options : Options} {opened middle reported : Session}
    {collected : Collected} {met : List Visit} {failures : List (Path × LoadFailure)}
    (gathered : Gathered options opened collected met failures)
    (out : middle.out =
      lookedUp collected.table options ++ Text.ofLines (failures.map refusal))
    (reporting : reportScripts options collected.table (scriptsOf collected.resources) middle =
      .ok () reported) :
    Reports options collected.table (Visit.filesIn met) failures
      (flagged (scriptsOf collected.resources) != 0 || !collected.known)
      (reported.out ++ if options.summary then
        summary (scriptsOf collected.resources) collected.loader.store else []) := by
  have resources : collected.resources = resourcesIn collected.table (Visit.filesIn met) := by
    rw [gathered.resources, Visit.flatMap_resources]
  have store : collected.loader.store = storeIn collected.table (Visit.filesIn met) := by
    rw [gathered.loader, resources, storeIn]
  rw [resources, scriptsOf_resourcesIn] at reporting ⊢
  refine ⟨?_, ?_, ?_⟩
  · have flags : flagged (scriptsIn collected.table (Visit.filesIn met)) = 0 ↔
        ∀ script ∈ scriptsIn collected.table (Visit.filesIn met),
          ¬ ReachesFlagged collected.table script.data := by
      rw [flagged_eq_countP, List.countP_eq_zero]
      simp only [decide_eq_true_eq]
    rw [gathered.known]
    simp only [Bool.or_eq_true, bne_iff_ne, ne_eq, Bool.not_eq_true', Bool.and_eq_false_iff,
      decide_eq_false_iff_not, flags, Lookup.unknownCommands_eq_zero_iff,
      Lookup.unknownCheats_eq_zero_iff, Given.mem_leading_iff gathered.tokens,
      Given.mem_leading_iff gathered.codes, not_forall, not_not, exists_prop]
    rw [or_comm, or_assoc]
  · intro script member
    rw [statusLine_eq_iff, compatible_iff member]
  · rw [reportScripts_out reporting, out, summary, flagged_eq_countP, store]
    rfl

def depotSchema : String := "[\x7b\"opcode\": 3541, \"name\": \"get_platform\"\x7d]"

def depotFolder : Node :=
  .directory [("sub", .directory [("deep", .directory [("b.CSI", .file [0xD5, 0x0D])])])]

/-- A script of one byte, a flagged script far down, and the schema of its command. -/
def depot : Node :=
  .directory [("a.csa", .file [0x00]), ("d", depotFolder),
    ("s.json", .file (depotSchema.toList.map fun c => c.toNat.toUInt8))]

def depotArgs : List Text := ["a.csa", "d", "--commands", "s.json", "--summary"]

def depotOptions : Options where
  inputs := [⟨["a.csa"]⟩, ⟨["d"]⟩]
  commands := some (.value ⟨["s.json"]⟩)
  summary := true

theorem depotArgs_parsed : Options.parse depotArgs = .ok depotOptions := by rfl

def depotFiles : List (Path × Bytes) :=
  [(⟨["a.csa"]⟩, [0x00]), (⟨["d", "sub", "deep", "b.CSI"]⟩, [0xD5, 0x0D])]

theorem reads_depot {opened : Session} {read : List (Path × Bytes)} (tree : opened.tree = depot)
    (unlogged : opened.logPlace = none) (reads : Reads opened depotOptions.inputs read) :
    read = depotFiles := by
  have contents : ∀ file ∈ read, ∀ held, depot.readFile file.1 = .ok held → file.2 = held := by
    intro file member held found
    rcases reads.bytes file member held (tree ▸ found) with same | ⟨place, log, _⟩
    · exact same
    · cases unlogged.symm.trans log
  -- There is one file below each of the two inputs.
  obtain ⟨parts, under, paths⟩ := reads.paths
  rw [tree] at under
  obtain ⟨first, _, single, rest, rfl⟩ := List.forall₂_cons_left_iff.mp under
  obtain ⟨second, _, deep, none, rfl⟩ := List.forall₂_cons_left_iff.mp rest
  cases List.forall₂_nil_left_iff.mp none
  have shallow : depot.resolve ⟨["a.csa"]⟩ = .ok (.file [0x00]) := rfl
  have folder : depot.resolve ⟨["d"]⟩ = .ok depotFolder := rfl
  obtain rfl : first = [⟨["a.csa"]⟩] := List.perm_singleton.mp (single.perm shallow)
  obtain rfl : second = [⟨["d", "sub", "deep", "b.CSI"]⟩] :=
    List.perm_singleton.mp (deep.perm folder)
  obtain ⟨one, _, rfl, here, others⟩ := List.map_eq_cons_iff.mp paths
  obtain ⟨other, _, rfl, there, last⟩ := List.map_eq_cons_iff.mp others
  cases List.map_eq_nil_iff.mp last
  have held := contents one List.mem_cons_self [0x00] (here ▸ rfl)
  have below := contents other (List.mem_cons_of_mem _ List.mem_cons_self) [0xD5, 0x0D]
    (there ▸ rfl)
  rw [depotFiles, ← here, ← there, ← held, ← below]

end Session

end ScriptAudit
