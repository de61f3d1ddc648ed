import ScriptAudit.Script.Instruction

/-!
Where control goes on behind an instruction. A jump goes to the magnitude of a local pointer
among the arguments of a branching instruction; all but a return and a goto also go on with
the instruction behind them.
-/
namespace ScriptAudit

theorem Operand.target?_eq_some_iff (operand : Operand) (target : Int) :
    operand.target? = some target ↔
      ∃ offset : Int, operand = .pointer offset ∧ offset < 0 ∧ target = offset.natAbs := by
  constructor
  · intro points
    cases operand with
    | pointer offset =>
        by_cases here : offset < 0
        · simp only [target?, isLocal, here, decide_true, ↓reduceIte, Option.some.injEq] at points
          exact ⟨offset, rfl, here, points.symm⟩
        · simp [target?, isLocal, here] at points
    | _ => cases points
  · rintro ⟨offset, rfl, here, rfl⟩
    simp [target?, isLocal, here]

namespace Instruction

theorem mem_targets_iff (instruction : Instruction) (target : Int) :
    target ∈ instruction.targets ↔
      instruction.opcode ∈ branching ∧
        ∃ offset : Int, .pointer offset ∈ instruction.args ∧ offset < 0 ∧
          target = offset.natAbs := by
  unfold targets
  by_cases branches : instruction.opcode ∈ branching
  · simp only [branches, ↓reduceIte, true_and, List.mem_filterMap, Operand.target?_eq_some_iff]
    constructor
    · rintro ⟨_, member, offset, rfl, here⟩
      exact ⟨offset, member, here⟩
    · rintro ⟨offset, member, here⟩
      exact ⟨.pointer offset, member, offset, rfl, here⟩
  · simp [branches]

theorem mem_successors_iff (instruction : Instruction) (target : Int) :
    target ∈ instruction.successors ↔
      (instruction.opcode ≠ returnOpcode ∧ instruction.opcode ≠ gotoOpcode ∧
        target = instruction.next) ∨
      target ∈ instruction.targets := by
  unfold successors
  -- A return takes no other way, and it is not among the branching commands.
  by_cases returns : instruction.opcode = returnOpcode
  · have noJump : returnOpcode ∉ branching := by decide
    simp [targets, returns, noJump]
  · by_cases jumps : instruction.opcode = gotoOpcode
    · have different : gotoOpcode ≠ returnOpcode := by decide
      simp [jumps, different]
    · simp [returns, jumps]

theorem target_nonneg {instruction : Instruction} {target : Int}
    (member : target ∈ instruction.targets) : 0 ≤ target := by
  obtain ⟨_, offset, _, _, rfl⟩ := (mem_targets_iff instruction target).mp member
  exact Int.natCast_nonneg _

end Instruction

end ScriptAudit
