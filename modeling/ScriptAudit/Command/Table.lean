import ScriptAudit.Command.Schema
import ScriptAudit.Json.Reader
import ScriptAudit.Text.Lines
import ScriptAudit.Text.Utf8

/-! Tables of commands. No two commands of a table have the same opcode; names may repeat,
and then the last command has the name. A table is built entry by entry, so the first
entry that does not fit decides the error. -/
namespace ScriptAudit

/-- Why a file gives no table. A document that is nested too deep is no document with a
defect: what it says is not known. -/
inductive TableError where
  | schema (error : SchemaError)
  | tooDeep (container : Json.Container)

structure Table where
  commands : List Command
  distinct : (commands.map Command.opcode).Nodup

namespace Table

def empty : Table := ⟨[], List.nodup_nil⟩

def lookup (table : Table) (opcode : Int) : Option Command :=
  table.commands.find? fun command => command.opcode = opcode

/-- No other command of a table has the opcode of the one that is found. -/
theorem lookup_eq_some_iff (table : Table) (opcode : Int) (command : Command) :
    table.lookup opcode = some command ↔
      command ∈ table.commands ∧ command.opcode = opcode := by
  obtain ⟨commands, distinct⟩ := table
  simp only [lookup]
  induction commands with
  | nil => simp
  | cons first rest ih =>
      obtain ⟨fresh, tail⟩ := List.nodup_cons.mp distinct
      by_cases hit : first.opcode = opcode
      · rw [List.find?_cons_of_pos (by simpa using hit)]
        constructor
        · intro same
          cases same
          exact ⟨List.mem_cons_self, hit⟩
        · rintro ⟨member, named⟩
          rcases List.mem_cons.mp member with same | later
          · rw [same]
          · exact (fresh (hit ▸ named ▸ List.mem_map_of_mem later)).elim
      · rw [List.find?_cons_of_neg (by simpa using hit), ih tail, List.mem_cons]
        constructor
        · rintro ⟨later, named⟩
          exact ⟨Or.inr later, named⟩
        · rintro ⟨same | later, named⟩
          · exact (hit (same ▸ named)).elim
          · exact ⟨later, named⟩

def contains (table : Table) (opcode : Int) : Bool :=
  table.commands.any fun command => command.opcode = opcode

def named (table : Table) (name : Text) : Option Command :=
  table.commands.reverse.find? fun command => command.name = name

def size (table : Table) : Nat := table.commands.length

theorem nodup_extend {opcodes : List Int} {opcode : Int} (distinct : opcodes.Nodup)
    (fresh : opcode ∉ opcodes) : (opcodes ++ [opcode]).Nodup := by
  rw [List.nodup_append]
  refine ⟨distinct, by simp, ?_⟩
  intro a known b last same
  have : b = opcode := by simpa using last
  exact fresh (this ▸ same ▸ known)

def add (table : Table) (command : Command) : Except SchemaError Table :=
  if known : command.opcode ∈ table.commands.map Command.opcode then
    .error (.duplicateOpcode command.opcode)
  else
    .ok ⟨table.commands ++ [command], by
      simpa using nodup_extend table.distinct known⟩

def ofCommands (commands : List Command) : Except SchemaError Table :=
  commands.foldlM add empty

def addEntry (table : Table) (entry : Json) : Except SchemaError Table := do
  table.add (← Command.ofJson entry)

def ofEntries (entries : List Json) : Except SchemaError Table :=
  entries.foldlM addEntry empty

/-- The entries stand in a list of their own or in the field `commands` of an object. -/
def ofJson : Json → Except SchemaError Table
  | .list entries => ofEntries entries
  | .object fields =>
    match Json.field? "commands" fields with
    | some (.list entries) => ofEntries entries
    | _ => .error .notAList
  | _ => .error .notAList

/-- A schema file is UTF-8 text and read in text mode. -/
def ofBytes (bytes : List UInt8) : Except TableError Table :=
  match Text.ofUtf8? bytes with
  | some text =>
    match Json.parse (Text.foldReturns text) with
    | .ok value => (ofJson value).mapError .schema
    | .error .malformed => .error (.schema .unreadable)
    | .error (.tooDeep container) => .error (.tooDeep container)
  | none => .error (.schema .unreadable)

end Table
end ScriptAudit
