import ScriptAudit.Proofs.Script.Branching
import ScriptAudit.Proofs.Script.Grammar

/-!
How far an instruction can lead. The integers of a script have at most four bytes in two's
complement, and a pointer among the arguments is one of them. So a jump goes no farther than
the magnitude of the least such integer, and the instruction behind another one begins no
later than at the end of the data.
-/
namespace ScriptAudit

def IsInt32 (value : Int) : Prop := -0x80000000 ≤ value ∧ value < 0x80000000

theorem Reader.signedValue_isInt32 (bytes : Bytes) (short : bytes.length ≤ 4) :
    IsInt32 (signedValue bytes) := by
  have positive : 0 < Nat.pow 256 bytes.length := Nat.pow_pos (by decide)
  have bound : Nat.pow 256 bytes.length ≤ 0x100000000 :=
    Nat.pow_le_pow_right (by decide) short
  -- The bounds are half the number of values, which is largest for four bytes.
  have low := @Int.le_bmod (littleEndian bytes) _ positive
  have high := @Int.bmod_lt (littleEndian bytes) _ positive
  unfold IsInt32 signedValue
  omega

namespace Operand

theorem Tagged.integer_isInt32 {value : Int} {bytes : Bytes}
    (tagged : Tagged (.integer value) bytes) : IsInt32 value := by
  cases tagged with
  | @mk encoding _ _ payload _ content =>
      cases encoding with
      | int32 | int16 | int8 =>
          obtain ⟨size, same⟩ := content
          cases same
          exact Reader.signedValue_isInt32 payload (by omega)
      | sizedString =>
          obtain ⟨_, _, _, _, never⟩ := content
          cases never
      | _ => cases content.2

/-- No tag announces a pointer: it is an integer that a parameter takes for one. -/
theorem Tagged.not_pointer {offset : Int} {bytes : Bytes} :
    ¬ Tagged (.pointer offset) bytes := by
  intro tagged
  cases tagged with
  | @mk encoding _ _ payload _ content =>
      cases encoding with
      | sizedString =>
          obtain ⟨_, _, _, _, never⟩ := content
          cases never
      | _ => cases content.2

end Operand

namespace Param

theorem reinterpret_eq_pointer {param : Param} {operand : Operand} {offset : Int}
    (points : param.reinterpret operand = .pointer offset) :
    operand = .integer offset ∨ operand = .pointer offset := by
  cases operand with
  | integer value =>
      simp only [reinterpret] at points
      split at points <;> cases points
      exact Or.inl rfl
  | _ => exact Or.inr points

theorem Written.pointer_isInt32 {param : Param} {offset : Int} {bytes : Bytes}
    (written : Written param (some (.pointer offset)) bytes) : IsInt32 offset := by
  generalize value : some (Operand.pointer offset) = arg at written
  cases written with
  | single _ _ _ tagged =>
      rcases reinterpret_eq_pointer (Option.some.inj value).symm with rfl | rfl
      · exact tagged.integer_isInt32
      · exact (Operand.Tagged.not_pointer tagged).elim
  | buffer | varargs | endMark => cases value

end Param

namespace Instruction

theorem Arguments.pointer_isInt32 {params : List Param} {args : List Operand} {bytes : Bytes}
    (written : Arguments params args bytes) {offset : Int}
    (member : .pointer offset ∈ args) : IsInt32 offset := by
  induction written with
  | nil => cases member
  | @cons _ _ arg _ _ _ first _ ih =>
      rcases List.mem_append.mp member with here | later
      · rw [Option.mem_toList.mp here] at first
        exact first.pointer_isInt32
      · exact ih later

theorem decode_target_le {table : Table} {data : Bytes} {offset target : Int}
    {instruction : Instruction} (decoded : decode table data offset = .ok instruction)
    (member : target ∈ instruction.targets) : target ≤ 0x80000000 := by
  obtain ⟨bytes, _, written, _⟩ := (decode_ok_iff _ _ _ _).mp decoded
  obtain ⟨_, pointer, held, _, rfl⟩ := (mem_targets_iff instruction target).mp member
  cases written with
  | mk _ _ _ arguments =>
      obtain ⟨low, high⟩ := arguments.pointer_isInt32 held
      omega

/-- Control that stands inside the script goes on at its end at most, or at the target of a
jump. -/
theorem decode_successor_le {table : Table} {data : Bytes} {offset target : Int}
    {instruction : Instruction} (decoded : decode table data offset = .ok instruction)
    (inside : 0 ≤ offset) (edge : target ∈ instruction.successors) :
    target ≤ max (data.length : Int) 0x80000000 := by
  rcases (mem_successors_iff instruction target).mp edge with ⟨_, _, next⟩ | jump
  · have span := decode_span decoded
    have start := decode_offset decoded
    rw [next, Instruction.next, start]
    omega
  · exact Int.le_trans (decode_target_le decoded jump) (Int.le_max_right _ _)

end Instruction

end ScriptAudit
