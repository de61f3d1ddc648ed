import ScriptAudit.Proofs.Audit.Program
import ScriptAudit.Proofs.Audit.Verdict

/-!
What more commands and more data change. An instruction is decided by its command and its own
bytes, so it is still decoded, and is the same, where the table knows more opcodes and bytes
follow. What control reaches can then only grow, although more may decode on the way and the
order of discovery is another one. So nothing that was found is lost, and a script that was
flagged stays flagged.
-/
namespace ScriptAudit

def Table.Extends (large small : Table) : Prop :=
  ∀ opcode command, small.lookup opcode = some command → large.lookup opcode = some command

variable {small large : Table} {data longer : Bytes}

theorem Table.Extends.mem_commands (extension : large.Extends small) {command : Command}
    (member : command ∈ small.commands) : command ∈ large.commands := by
  have found := (small.lookup_eq_some_iff command.opcode command).mpr ⟨member, rfl⟩
  have known := extension command.opcode command found
  exact ((large.lookup_eq_some_iff command.opcode command).mp known).1

namespace Instruction

theorem Written.extend {instruction : Instruction} {bytes : Bytes}
    (written : Written small instruction bytes) (extension : large.Extends small) :
    Written large instruction bytes := by
  cases written with
  | mk offset member named arguments =>
      exact Written.mk offset (extension.mem_commands member) named arguments

theorem decode_extend {offset : Int} {instruction : Instruction}
    (extension : large.Extends small) (begins : data <+: longer)
    (decoded : decode small data offset = .ok instruction) :
    decode large longer offset = .ok instruction := by
  obtain ⟨bytes, front, written, start⟩ := (decode_ok_iff _ _ _ _).mp decoded
  have further : bytes <+: longer.drop offset.toNat := by
    obtain ⟨behind, rfl⟩ := begins
    rw [List.drop_append]
    exact front.trans (List.prefix_append _ _)
  exact (decode_ok_iff _ _ _ _).mpr ⟨bytes, further, written.extend extension, start⟩

end Instruction

/-- What is reachable stays so, along the same instructions. -/
theorem Reachable.extend {offset : Int} (extension : large.Extends small)
    (begins : data <+: longer) (reachable : Reachable small data offset) :
    Reachable large longer offset := by
  induction reachable with
  | entry => exact Reachable.entry
  | follow _ decoded edge ih =>
      exact Reachable.follow ih (Instruction.decode_extend extension begins decoded) edge

/-- More commands and more data lose no instruction that was found, and leave no script
without an issue that had one. -/
theorem explore_monotone (small large : Table) (data longer : Bytes)
    (extension : large.Extends small) (begins : data <+: longer) :
    (∀ offset instruction, (offset, instruction) ∈ (explore small data).1.instructions →
      (offset, instruction) ∈ (explore large longer).1.instructions) ∧
    ((∃ issue events, checkStrict small (.bytes data) = .ok (some issue, events)) →
      ∃ issue events, checkStrict large (.bytes longer) = .ok (some issue, events)) := by
  constructor
  · intro offset instruction member
    obtain ⟨reachable, decoded⟩ := (explore_mem_instructions_iff _ _ _ _).mp member
    exact (explore_mem_instructions_iff _ _ _ _).mpr
      ⟨reachable.extend extension begins, Instruction.decode_extend extension begins decoded⟩
  · intro issue
    obtain ⟨offset, instruction, reachable, decoded, flagged⟩ :=
      (checkStrict_some_iff small data).mp issue
    exact (checkStrict_some_iff large longer).mpr
      ⟨offset, instruction, reachable.extend extension begins,
        Instruction.decode_extend extension begins decoded, flagged⟩

def platformCommand : Command := { opcode := 0x0DD5, name := "get_platform" }

def platformTable : Table where
  commands := [platformCommand]
  distinct := by decide

def platformWaitTable : Table where
  commands := waitTable.commands ++ [platformCommand]
  distinct := by decide

/-- Behind the first instruction the short script ends, and the long one goes on with a
return. -/
theorem platformTable_extended :
    (∀ offset instruction,
      (offset, instruction) ∈ (explore platformTable [0xD5, 0x0D]).1.instructions →
      (offset, instruction) ∈
        (explore platformWaitTable [0xD5, 0x0D, 0x51, 0x00]).1.instructions) ∧
    ∃ issue events, checkStrict platformWaitTable (.bytes [0xD5, 0x0D, 0x51, 0x00]) =
      .ok (some issue, events) := by
  have extension : platformWaitTable.Extends platformTable := by
    intro opcode command found
    obtain ⟨member, named⟩ := (Table.lookup_eq_some_iff _ _ _).mp found
    exact (Table.lookup_eq_some_iff _ _ _).mpr ⟨List.mem_append_right _ member, named⟩
  have verdict : (checkBytes platformTable [0xD5, 0x0D]).1 = some .notImplemented := by
    decide +kernel
  have checked : checkStrict platformTable (.bytes [0xD5, 0x0D]) =
      .ok (some .notImplemented, (checkBytes platformTable [0xD5, 0x0D]).2) := by
    rw [← verdict]
    rfl
  obtain ⟨kept, flagged⟩ := explore_monotone platformTable platformWaitTable [0xD5, 0x0D]
    [0xD5, 0x0D, 0x51, 0x00] extension ⟨[0x51, 0x00], rfl⟩
  exact ⟨kept, flagged ⟨_, _, checked⟩⟩

end ScriptAudit
