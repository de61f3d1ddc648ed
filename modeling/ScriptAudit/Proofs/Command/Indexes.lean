import ScriptAudit.Proofs.Command.Entries

/-!
Finding a command of a table. Each opcode leads to the one command that has it, and a name to the
last command that is called so, as in two indexes into which the commands are put in their order.
-/
namespace ScriptAudit
namespace Table

section Indexes

variable {κ : Type} [DecidableEq κ]

/-- The commands under a key of theirs, put one after the other: a later command takes the place
of an earlier one with its key. -/
def index (table : Table) (key : Command → κ) : List (κ × Command) :=
  Association.update [] (table.commands.map fun command => (key command, command))

theorem get?_index (table : Table) (key : Command → κ) (wanted : κ) :
    Association.get? wanted (table.index key) =
      table.commands.reverse.find? fun command => key command = wanted := by
  rw [index, Association.get?_update, ← List.map_reverse, Association.get?, List.find?_map]
  simp [Association.get?, Function.comp_def]

/-- As no opcode comes twice, all commands are kept, in their order. -/
theorem index_opcode (table : Table) :
    table.index Command.opcode = table.commands.map fun command => (command.opcode, command) := by
  refine Association.update_of_new ?_
  simpa [Function.comp_def] using table.distinct

theorem get?_index_opcode (table : Table) (opcode : Int) :
    Association.get? opcode (table.index Command.opcode) = table.lookup opcode := by
  rw [index_opcode, Association.get?, List.find?_map]
  simp [lookup, Function.comp_def]

theorem lookup_eq_none_iff (table : Table) (opcode : Int) :
    table.lookup opcode = none ↔ ∀ command ∈ table.commands, command.opcode ≠ opcode := by
  simp [lookup]

theorem contains_iff (table : Table) (opcode : Int) :
    table.contains opcode = true ↔ table.lookup opcode ≠ none := by
  simp [contains, lookup]

theorem named_eq_some_iff (table : Table) (name : Text) (command : Command) :
    table.named name = some command ↔
      ∃ front back, table.commands = front ++ command :: back ∧ command.name = name ∧
        ∀ later ∈ back, later.name ≠ name := by
  rw [named, List.find?_eq_some_iff_append]
  constructor
  · rintro ⟨called, back, front, split, others⟩
    refine ⟨front.reverse, back.reverse, ?_, by simpa using called, by simpa using others⟩
    rw [← List.reverse_reverse table.commands, split]
    simp
  · rintro ⟨front, back, split, called, others⟩
    refine ⟨by simpa using called, back.reverse, front.reverse, ?_, by simpa using others⟩
    rw [split]
    simp

theorem named_eq_none_iff (table : Table) (name : Text) :
    table.named name = none ↔ ∀ command ∈ table.commands, command.name ≠ name := by
  simp [named]

end Indexes

/-- A table that is built has the commands of its entries, in their order and each with an opcode
of its own. Its opcodes and names lead to the same commands as two indexes that are filled command
by command. -/
theorem ofJson_represents {json : Json} {table : Table} (built : ofJson json = .ok table) :
    ∃ entries, json.ListsCommands entries ∧ table.size = entries.length ∧
      List.Forall₂ (fun entry command => Command.ofJson entry = .ok command)
        entries table.commands ∧
      (table.commands.map Command.opcode).Nodup ∧
      (∀ command ∈ table.commands, 0 ≤ command.opcode ∧ command.opcode ≤ 0x7FFF) ∧
      (∀ opcode,
        (∀ command, table.lookup opcode = some command ↔
          command ∈ table.commands ∧ command.opcode = opcode) ∧
        (table.lookup opcode = none ↔ ∀ command ∈ table.commands, command.opcode ≠ opcode) ∧
        (table.contains opcode = true ↔ table.lookup opcode ≠ none) ∧
        table.lookup opcode = Association.get? opcode (table.index Command.opcode)) ∧
      ∀ name,
        (∀ command, table.named name = some command ↔
          ∃ front back, table.commands = front ++ command :: back ∧ command.name = name ∧
            ∀ later ∈ back, later.name ≠ name) ∧
        (table.named name = none ↔ ∀ command ∈ table.commands, command.name ≠ name) ∧
        table.named name = Association.get? name (table.index Command.name) := by
  obtain ⟨entries, lists, reads⟩ := ofJson_reads built
  refine ⟨entries, lists, reads.length_eq.symm, reads, table.distinct, ?_, ?_, ?_⟩
  · intro command member
    obtain ⟨low, high⟩ := opcode_range built command member
    exact ⟨low, Int.le_of_lt_add_one high⟩
  · intro opcode
    exact ⟨table.lookup_eq_some_iff opcode, table.lookup_eq_none_iff opcode,
      table.contains_iff opcode, (table.get?_index_opcode opcode).symm⟩
  · intro name
    exact ⟨table.named_eq_some_iff name, table.named_eq_none_iff name,
      (table.get?_index Command.name name).symm⟩

def twinSchema : Json :=
  .object [("version", .integer 2), ("commands", .list [
    .object [("opcode", .integer 1), ("name", .string "wait"),
      ("params", .list [.object [("type", .string "Integer")]])],
    .object [("opcode", .string " 0X00d6 "), ("name", .string "if"), ("returns", .bool true)],
    .object [("name", .string "wait"), ("opcode", .string "7fFF")]])]

def twinTable : Table where
  commands := [
    { opcode := 1, name := "wait", params := [{ type := .integer }] },
    { opcode := 0xD6, name := "if", returns := true },
    { opcode := 0x7FFF, name := "wait" }]
  distinct := by decide

theorem twinTable_represents :
    ofJson twinSchema = .ok twinTable ∧ twinTable.size = 3 ∧
      twinTable.lookup 0xD6 = some { opcode := 0xD6, name := "if", returns := true } ∧
      twinTable.named "wait" = some { opcode := 0x7FFF, name := "wait" } ∧
      twinTable.named "if not" = none := by
  have built : ofJson twinSchema = .ok twinTable := by decide +kernel
  obtain ⟨_, _, _, _, _, _, opcodes, names⟩ := ofJson_represents built
  refine ⟨built, rfl, ?_, ?_, ?_⟩
  · exact ((opcodes 0xD6).1 _).mpr ⟨by decide, rfl⟩
  · exact ((names "wait").1 _).mpr ⟨twinTable.commands.take 2, [], rfl, rfl, List.forall_mem_nil _⟩
  · exact (names "if not").2.1.mpr (by decide)

end Table
end ScriptAudit
