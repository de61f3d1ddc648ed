import ScriptAudit.Audit.Listing
import ScriptAudit.Proofs.Audit.Program
import ScriptAudit.Proofs.Script.Operands
import ScriptAudit.Proofs.Script.Rendering

/-!
Listings of explored scripts. The arguments of what was decoded all have a text, so every script
has a listing. It has a line for each entry as long as no string and no buffer among the operands
holds a line feed: these are written as they stand, and a line feed in one of them breaks the
line of its instruction, so that what follows it may look like the line of another instruction.
-/
namespace ScriptAudit

section Order

variable {α : Type}

theorem byOffset_perm (entries : List (Int × α)) : (byOffset entries).Perm entries :=
  List.mergeSort_perm entries _

theorem byOffset_ascending {entries : List (Int × α)}
    (distinct : (entries.map Prod.fst).Nodup) :
    ((byOffset entries).map Prod.fst).Pairwise (· < ·) := by
  have sorted : (byOffset entries).Pairwise fun one other => decide (one.1 ≤ other.1) = true :=
    List.pairwise_mergeSort
      (fun one middle other below above => by
        simp only [decide_eq_true_eq] at below above ⊢
        exact Int.le_trans below above)
      (fun one other => by simpa using Int.le_total one.1 other.1) entries
  have apart : ((byOffset entries).map Prod.fst).Nodup :=
    ((byOffset_perm entries).map Prod.fst).nodup_iff.mpr distinct
  rw [List.pairwise_map]
  exact (sorted.and (List.pairwise_map.mp apart)).imp fun both =>
    Int.lt_iff_le_and_ne.mpr ⟨of_decide_eq_true both.1, both.2⟩

theorem byOffset_map {β : Type} (f : α → β) (entries : List (Int × α)) :
    byOffset (entries.map fun entry => (entry.1, f entry.2)) =
      (byOffset entries).map fun entry => (entry.1, f entry.2) := by
  symm
  exact List.map_mergeSort fun _ _ _ _ => rfl

end Order

namespace Text

theorem oneLine_of_mem_splitOn {text line : Text} (member : line ∈ text.splitOn lineFeed) :
    line.OneLine := by
  induction text generalizing line with
  | nil =>
      rw [List.splitOn_nil, List.mem_singleton] at member
      rw [member]
      decide
  | cons point rest ih =>
      rw [List.splitOn_cons_eq_if_modifyHead] at member
      by_cases ends : point = lineFeed
      · simp only [ends, beq_self_eq_true, ↓reduceIte, List.mem_cons] at member
        rcases member with rfl | later
        · decide
        · exact ih later
      · simp only [beq_eq_false_iff_ne.mpr ends, Bool.false_eq_true, ↓reduceIte] at member
        cases parts : rest.splitOn lineFeed with
        | nil => exact (List.splitOn_ne_nil _ _ parts).elim
        | cons first others =>
            rw [parts, List.modifyHead_cons, List.mem_cons] at member
            rcases member with rfl | later
            · have plain : OneLine first := ih (by simp [parts])
              exact List.not_mem_cons_of_ne_of_not_mem (Ne.symm ends) plain
            · exact ih (by simp [parts, later])

/-- Lines that are joined fall apart again, each at its own line feeds. -/
theorem splitOn_join {lines : List Text} (some : lines ≠ []) :
    (join [lineFeed] lines).splitOn lineFeed = lines.flatMap (List.splitOn lineFeed) := by
  induction lines with
  | nil => exact (some rfl).elim
  | cons line rest ih =>
      cases rest with
      | nil => simp [join]
      | cons second others =>
          have step : join [lineFeed] (line :: second :: others) =
              line ++ lineFeed :: join [lineFeed] (second :: others) := by
            simp [join, List.intercalate_cons_cons]
          rw [step, List.splitOn_append_cons_self, ih (List.cons_ne_nil second others)]
          simp only [List.flatMap_cons]

end Text

namespace Listing

theorem failureLine_oneLine (offset : Int) (fault : Fault) :
    (failureLine offset fault).OneLine := by
  simp only [failureLine, messageLine, Text.oneLine_append, Text.hex_oneLine,
    fault.message_oneLine, and_true]
  decide

theorem instructionLines_append {limit : Option Int} {front : List (Int × Instruction)}
    {listed : Nat} (room : ∀ index < listed + front.length, isUsedUp limit index = false)
    (back : List (Int × Instruction)) :
    instructionLines limit listed (front ++ back) = do
      let shown ← front.mapM fun entry => entry.2.format
      let others ← instructionLines limit (listed + front.length) back
      return shown ++ others := by
  induction front generalizing listed with
  | nil => simp
  | cons entry rest ih =>
      have free : isUsedUp limit listed = false := room listed (by simp)
      have further : listed + (entry :: rest).length = listed + 1 + rest.length := by
        rw [List.length_cons]
        omega
      rw [further] at room ⊢
      rw [List.cons_append, instructionLines, free, ih room, List.mapM_cons]
      simp only [Bool.false_eq_true, ↓reduceIte, bind_assoc, pure_bind, List.cons_append]

theorem instructionLines_of_room {limit : Option Int} {entries : List (Int × Instruction)}
    (room : ∀ index < entries.length, isUsedUp limit index = false) :
    instructionLines limit 0 entries = entries.mapM fun entry => entry.2.format := by
  rw [← Nat.zero_add entries.length] at room
  have all := instructionLines_append room []
  simpa [instructionLines] using all

theorem instructionLines_ok {entries : List (Int × Instruction)} (limit : Option Int)
    (listed : Nat) (each : ∀ entry ∈ entries, ∃ line, entry.2.format = .ok line) :
    ∃ lines, instructionLines limit listed entries = .ok lines := by
  induction entries generalizing listed with
  | nil => exact ⟨[], rfl⟩
  | cons entry rest ih =>
      obtain ⟨line, formatted⟩ := each entry List.mem_cons_self
      obtain ⟨others, all⟩ := ih (listed + 1) fun other member =>
        each other (List.mem_cons_of_mem entry member)
      rw [instructionLines, formatted, all]
      split
      · exact ⟨_, rfl⟩
      · exact ⟨_, rfl⟩

theorem ofGraph_ok {graph : Graph} (limit : Option Int)
    (each : ∀ entry ∈ graph.instructions, ∃ line, entry.2.format = .ok line) :
    ∃ text, ofGraph graph limit = .ok text := by
  have shown : ∀ entry ∈ byOffset graph.instructions, ∃ line, entry.2.format = .ok line :=
    fun entry member => each entry ((byOffset_perm graph.instructions).mem_iff.mp member)
  obtain ⟨lines, all⟩ := instructionLines_ok limit 0 shown
  exact ⟨_, Steps.except_ok_iff.mpr ⟨_, Steps.except_ok_iff.mpr ⟨lines, all, rfl⟩, rfl⟩⟩

/-- One line for each entry of a graph: those of the instructions and then those of the
failures, both by ascending offset. -/
def OneLineEach (graph : Graph) (lines : List Text) : Prop :=
  ∃ (entries : List (Int × Instruction)) (failures : List (Int × Fault)) (shown : List Text),
    entries.Perm graph.instructions ∧ (entries.map Prod.fst).Pairwise (· < ·) ∧
    failures.Perm graph.failures ∧ (failures.map Prod.fst).Pairwise (· < ·) ∧
    List.Forall₂ (fun entry line => entry.2.format = .ok line) entries shown ∧
    lines = shown ++ failures.map fun entry => failureLine entry.1 entry.2

theorem OneLineEach.length {graph : Graph} {lines : List Text} (each : OneLineEach graph lines) :
    lines.length = graph.instructions.length + graph.failures.length := by
  obtain ⟨entries, failures, shown, same, _, sameFailures, _, paired, rfl⟩ := each
  rw [List.length_append, List.length_map, ← paired.length_eq, same.length_eq,
    sameFailures.length_eq]

theorem explore_format_ok (table : Table) (data : Bytes) :
    ∀ entry ∈ (explore table data).1.instructions, ∃ line, entry.2.format = .ok line := by
  rintro ⟨offset, instruction⟩ member
  obtain ⟨_, decoded⟩ := (explore_mem_instructions_iff _ _ _ _).mp member
  obtain ⟨_, _, _, _, admitted⟩ := Instruction.decode_admitted decoded
  exact Instruction.format_ok admitted

/-- The lines that are joined to the listing of a script. There is one at least, since offset
zero is always visited. -/
theorem explore_lines (table : Table) (data : Bytes) :
    ∃ lines, OneLineEach (explore table data).1 lines ∧ lines ≠ [] ∧
      ofGraph (explore table data).1 none = .ok (Text.joinLines lines) := by
  obtain ⟨⟨recorded, _⟩, _⟩ := Exploration.run_ends table data
  have order := byOffset_perm (explore table data).1.instructions
  have failureOrder := byOffset_perm (explore table data).1.failures
  have shown : ∀ entry ∈ byOffset (explore table data).1.instructions,
      ∃ line, entry.2.format = .ok line := fun entry member =>
    explore_format_ok table data entry (order.mem_iff.mp member)
  obtain ⟨lines, all⟩ := exists_mapM_ok shown
  have each : OneLineEach (explore table data).1 _ :=
    ⟨_, _, lines, order, byOffset_ascending recorded.decodedOnce, failureOrder,
      byOffset_ascending recorded.failedOnce, (mapM_ok_iff _ _ _).mp all, rfl⟩
  refine ⟨_, each, ?_, ?_⟩
  · intro none
    have counted := each.length
    rw [none, List.length_nil] at counted
    have start := (Exploration.run_visited_iff table data 0).mpr Reachable.entry
    have listed := List.length_pos_of_mem (Graph.mem_offsets_of_visited start)
    rw [List.length_append, List.length_map, List.length_map] at listed
    exact absurd counted (Nat.ne_of_lt listed)
  · rw [← @instructionLines_of_room none _ fun _ _ => rfl] at all
    refine Steps.except_ok_iff.mpr ⟨_, Steps.except_ok_iff.mpr ⟨lines, all, rfl⟩, ?_⟩
    rw [byOffset_map fun fault : Fault => (fault.message : Text), List.map_map]
    rfl

theorem plain_of_oneLineEach {graph : Graph} {lines : List Text} (each : OneLineEach graph lines)
    (unbroken : ∀ line ∈ lines, line.OneLine) {offset : Int} {instruction : Instruction}
    (member : (offset, instruction) ∈ graph.instructions) :
    ∀ arg ∈ instruction.args, arg.Plain := by
  obtain ⟨entries, failures, shown, same, _, _, _, paired, rfl⟩ := each
  obtain ⟨line, listed, formatted⟩ := exists_partner paired (same.mem_iff.mpr member)
  have whole := unbroken line (List.mem_append_left _ listed)
  exact ((Instruction.oneLine_format formatted).mp whole).2

theorem oneLine_of_oneLineEach {graph : Graph} {lines : List Text}
    (each : OneLineEach graph lines)
    (plain : ∀ offset instruction, (offset, instruction) ∈ graph.instructions →
      instruction.name.OneLine ∧ ∀ arg ∈ instruction.args, arg.Plain) :
    ∀ line ∈ lines, line.OneLine := by
  obtain ⟨entries, failures, shown, same, _, _, _, paired, rfl⟩ := each
  intro line member
  rcases List.mem_append.mp member with listed | failed
  · obtain ⟨⟨offset, instruction⟩, held, formatted⟩ := exists_partner paired.flip listed
    have unbroken := plain offset instruction (same.mem_iff.mp held)
    exact (Instruction.oneLine_format formatted).mpr unbroken
  · obtain ⟨entry, _, rfl⟩ := List.mem_map.mp failed
    exact failureLine_oneLine entry.1 entry.2

end Listing

/-- Every argument of a decoded instruction is one that its parameter admits: in the bounds of
its kind, and a pointer or a model only where the parameter takes one. So it has a text, every
instruction has its line, and every script a listing. -/
theorem decoded_arguments_printable (table : Table) (data : Bytes) :
    (∀ offset instruction, Instruction.decode table data offset = .ok instruction →
      (∃ command ∈ table.commands, command.opcode = instruction.opcode ∧
        command.name = instruction.name ∧
        List.Forall₂ Param.Admits (command.params.filter Param.hasValue) instruction.args) ∧
      ∃ line, instruction.format = .ok line) ∧
    ∀ limit, ∃ text, Listing.ofGraph (explore table data).1 limit = .ok text := by
  constructor
  · intro offset instruction decoded
    obtain ⟨command, known, opcode, name, admitted⟩ := Instruction.decode_admitted decoded
    exact ⟨⟨command, known, opcode, name, admitted⟩, Instruction.format_ok admitted⟩
  · intro limit
    exact Listing.ofGraph_ok limit (Listing.explore_format_ok table data)

/-- The listing of a script falls apart at its line feeds into the lines of its entries, each
broken at its own line feeds. With names of commands that have none, it has one line for each
entry exactly if no string and no buffer among the operands has one. -/
theorem listing_oneLineEach_iff (table : Table) (data : Bytes)
    (names : ∀ command ∈ table.commands, command.name.OneLine) :
    ∃ body lines, Listing.ofGraph (explore table data).1 none = .ok (body ++ [Text.lineFeed]) ∧
      Listing.OneLineEach (explore table data).1 lines ∧
      body.splitOn Text.lineFeed = lines.flatMap (List.splitOn Text.lineFeed) ∧
      (Listing.OneLineEach (explore table data).1 (body.splitOn Text.lineFeed) ↔
        ∀ offset instruction, (offset, instruction) ∈ (explore table data).1.instructions →
          ∀ arg ∈ instruction.args, ∀ text, arg.Holds text → text.OneLine) := by
  obtain ⟨lines, each, some, shown⟩ := Listing.explore_lines table data
  refine ⟨Text.join [Text.lineFeed] lines, lines, shown, each, Text.splitOn_join some, ?_, ?_⟩
  · -- A text that is split has no line feed left in a part, so no entry's line has one.
    intro unbroken offset instruction member
    exact Listing.plain_of_oneLineEach unbroken
      (fun line listed => Text.oneLine_of_mem_splitOn listed) member
  · -- Lines that have none fall apart at those that join them only.
    intro plain
    have unbroken : ∀ line ∈ lines, line.OneLine := by
      apply Listing.oneLine_of_oneLineEach each
      intro offset instruction member
      obtain ⟨_, decoded⟩ := (explore_mem_instructions_iff _ _ _ _).mp member
      obtain ⟨command, known, _, name, _⟩ := Instruction.decode_admitted decoded
      exact ⟨name ▸ names command known, plain offset instruction member⟩
    have whole : (Text.join [Text.lineFeed] lines).splitOn Text.lineFeed = lines :=
      List.splitOn_intercalate Text.lineFeed unbroken some
    rw [whole]
    exact each

def greetingBytes : Bytes := [0x01, 0x00, 0x0E, 0x02, 0x48, 0x69]

theorem greetingBytes_listed :
    (∀ command ∈ waitTable.commands, command.name.OneLine) ∧
    ∃ body,
      Listing.ofGraph (explore waitTable greetingBytes).1 none = .ok (body ++ [Text.lineFeed]) ∧
      Listing.OneLineEach (explore waitTable greetingBytes).1 (body.splitOn Text.lineFeed) := by
  have names : ∀ command ∈ waitTable.commands, command.name.OneLine := by decide
  obtain ⟨body, _, shown, _, _, exactly⟩ := listing_oneLineEach_iff waitTable greetingBytes names
  refine ⟨names, body, shown, exactly.mpr ?_⟩
  intro offset instruction member arg held text holds
  have found : (explore waitTable greetingBytes).1.instructions.map
      (fun entry => (entry.1, entry.2.args)) = [(0, [.string "Hi"])] := rfl
  have listed := List.mem_map_of_mem (f := fun entry => (entry.1, entry.2.args)) member
  rw [found, List.mem_singleton, Prod.mk.injEq] at listed
  rw [listed.2, List.mem_singleton] at held
  subst held
  cases holds
  decide

/-- A `wait` with a string that has a line of its own in the middle. -/
def forgedBytes : Bytes :=
  [0x01, 0x00, 0x0E, 0x18, 0x0A, 0x30, 0x30, 0x30, 0x30, 0x30, 0x30, 0x36, 0x33, 0x20,
   0x30, 0x30, 0x35, 0x31, 0x20, 0x72, 0x65, 0x74, 0x75, 0x72, 0x6E, 0x28, 0x29, 0x0A]

def forgedLines : List Text :=
  ["00000000 0001 wait(\"", "00000063 0051 return()", "\")",
   "; undecodable offset 0x1c: unexpected end of stream (wanted 2 byte(s), got 0)"]

/-- The listing has a line for a `return` that the script does not have. -/
theorem forgedBytes_forged :
    (∀ command ∈ waitTable.commands, command.name.OneLine) ∧
    ∃ body,
      Listing.ofGraph (explore waitTable forgedBytes).1 none = .ok (body ++ [Text.lineFeed]) ∧
      body.splitOn Text.lineFeed = forgedLines ∧
      (explore waitTable forgedBytes).1.instructions.map Prod.fst = [0] ∧
      ¬ Listing.OneLineEach (explore waitTable forgedBytes).1 (body.splitOn Text.lineFeed) := by
  have split : (Text.join [Text.lineFeed] forgedLines).splitOn Text.lineFeed = forgedLines :=
    List.splitOn_intercalate Text.lineFeed (by decide) (List.cons_ne_nil _ _)
  refine ⟨by decide, Text.join [Text.lineFeed] forgedLines, ?_, split, rfl, ?_⟩
  · have shown : (Listing.ofGraph (explore waitTable forgedBytes).1 none).toOption =
        some (Text.joinLines forgedLines) := by decide +kernel
    cases known : Listing.ofGraph (explore waitTable forgedBytes).1 none with
    | error reason =>
        rw [known] at shown
        cases shown
    | ok text =>
        rw [known] at shown
        exact congrArg Except.ok (Option.some.inj shown)
  · intro each
    have entries : (explore waitTable forgedBytes).1.instructions.length = 1 := rfl
    have failures : (explore waitTable forgedBytes).1.failures.length = 1 := rfl
    have counted := each.length
    rw [split, entries, failures] at counted
    cases counted

end ScriptAudit
