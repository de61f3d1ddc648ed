import ScriptAudit.Proofs.Audit.Exploration

/-!
Programs: written instructions one behind the other from offset zero. Every start of an
instruction decodes to that instruction, and control never leaves the starts as long as
jumps lead to starts and the last instruction does not go on behind itself. So exploration
finds nothing but the instructions of the program.
-/
namespace ScriptAudit

inductive LaidOut (table : Table) : Int → List Instruction → Bytes → Prop where
  | nil (start : Int) : LaidOut table start [] []
  | cons {start : Int} {instruction : Instruction} {program : List Instruction}
      {bytes behind : Bytes} : instruction.offset = start → instruction.Written table bytes →
      LaidOut table (start + bytes.length) program behind →
      LaidOut table start (instruction :: program) (bytes ++ behind)

namespace LaidOut

variable {table : Table}

theorem head_offset {start : Int} {first : Instruction} {program : List Instruction}
    {data : Bytes} (laid : LaidOut table start (first :: program) data) :
    first.offset = start := by
  cases laid with
  | cons begins _ _ => exact begins

theorem next_start {start : Int} {program : List Instruction} {data : Bytes}
    (laid : LaidOut table start program data) (instruction : Instruction)
    (member : instruction ∈ program) :
    program.getLast? = some instruction ∨
      ∃ other ∈ program, other.offset = instruction.next := by
  induction laid with
  | nil => cases member
  | @cons start first rest bytes behind begins written laid ih =>
      rcases List.mem_cons.mp member with same | later
      · subst same
        cases rest with
        | nil => exact Or.inl rfl
        | cons second others =>
            right
            refine ⟨second, List.mem_cons_of_mem _ List.mem_cons_self, ?_⟩
            rw [laid.head_offset, Instruction.next, written.size_eq, begins]
      · rcases ih later with last | ⟨other, held, starts⟩
        · left
          rw [List.getLast?_cons, last, Option.getD_some]
        · exact Or.inr ⟨other, List.mem_cons_of_mem _ held, starts⟩

/-- Each instruction is decoded at its start, also where other bytes stand in front. -/
theorem decode_member {program : List Instruction} {behind : Bytes} (front : Bytes)
    (laid : LaidOut table front.length program behind) (instruction : Instruction)
    (member : instruction ∈ program) :
    Instruction.decode table (front ++ behind) instruction.offset = .ok instruction := by
  -- The bytes in front grow by an instruction at each step down the program.
  generalize length : (front.length : Int) = start at laid
  induction laid generalizing front with
  | nil => cases member
  | @cons start first rest bytes behind begins written laid ih =>
      rcases List.mem_cons.mp member with same | later
      · subst same
        apply (Instruction.decode_ok_iff _ _ _ _).mpr
        refine ⟨bytes, ?_, written, rfl⟩
        rw [begins, ← length, Int.toNat_natCast, List.drop_left]
        exact List.prefix_append bytes behind
      · rw [← List.append_assoc]
        exact ih (front ++ bytes) later (by rw [← length]; simp)

/-- Control that enters at the first instruction stays on the starts of a program. -/
theorem reachable_start {program : List Instruction} {data : Bytes}
    (laid : LaidOut table 0 program data) (last : Instruction)
    (ends : program.getLast? = some last)
    (stops : last.opcode = Instruction.returnOpcode ∨ last.opcode = Instruction.gotoOpcode)
    (jumps : ∀ instruction ∈ program, ∀ target ∈ instruction.targets,
      ∃ other ∈ program, other.offset = target)
    (offset : Int) (reachable : Reachable table data offset) :
    ∃ instruction ∈ program, instruction.offset = offset := by
  induction reachable with
  | entry =>
      cases program with
      | nil => cases ends
      | cons first rest => exact ⟨first, List.mem_cons_self, laid.head_offset⟩
  | @follow offset target instruction _ decoded edge ih =>
      obtain ⟨listed, member, rfl⟩ := ih
      have same := decoded.symm.trans (laid.decode_member [] listed member)
      cases same
      rcases (Instruction.mem_successors_iff instruction target).mp edge with next | jump
      · rcases laid.next_start instruction member with isLast | begins
        · -- The last instruction has no way on but its jumps.
          rw [ends] at isLast
          cases isLast
          exact (stops.elim next.1 next.2.1).elim
        · rw [next.2.2]
          exact begins
      · exact jumps instruction member target jump

end LaidOut

/-- A program whose jumps lead to its instructions and that ends in a return or a goto is
explored without a failure, and what is found in it are its own instructions, as far as
control reaches them. -/
theorem explore_finds_program (table : Table) (program : List Instruction) (data : Bytes)
    (laid : LaidOut table 0 program data) (last : Instruction)
    (ends : program.getLast? = some last)
    (stops : last.opcode = Instruction.returnOpcode ∨ last.opcode = Instruction.gotoOpcode)
    (jumps : ∀ instruction ∈ program, instruction.opcode ∈ Instruction.branching →
      ∀ offset : Int, .pointer offset ∈ instruction.args → offset < 0 →
        ∃ other ∈ program, other.offset = offset.natAbs) :
    (explore table data).1.failures = [] ∧
      ∀ offset instruction, (offset, instruction) ∈ (explore table data).1.instructions ↔
        instruction ∈ program ∧ instruction.offset = offset ∧
          Reachable table data offset := by
  have targets : ∀ instruction ∈ program, ∀ target ∈ instruction.targets,
      ∃ other ∈ program, other.offset = target := by
    intro instruction member target jump
    obtain ⟨branches, offset, held, here, rfl⟩ :=
      (Instruction.mem_targets_iff instruction target).mp jump
    exact jumps instruction member branches offset held here
  have starts := laid.reachable_start last ends stops targets
  constructor
  · apply List.eq_nil_iff_forall_not_mem.mpr
    rintro ⟨offset, fault⟩ failure
    obtain ⟨reachable, failed⟩ := (explore_mem_failures_iff _ _ _ _).mp failure
    obtain ⟨listed, member, rfl⟩ := starts offset reachable
    cases failed.symm.trans (laid.decode_member [] listed member)
  · intro offset instruction
    rw [explore_mem_instructions_iff]
    constructor
    · rintro ⟨reachable, decoded⟩
      obtain ⟨listed, member, rfl⟩ := starts offset reachable
      cases decoded.symm.trans (laid.decode_member [] listed member)
      exact ⟨member, rfl, reachable⟩
    · rintro ⟨member, rfl, reachable⟩
      exact ⟨reachable, laid.decode_member [] instruction member⟩

def waitTable : Table where
  commands :=
    [{ opcode := 0x0001, name := "wait", params := [{ type := .integer }] },
     { opcode := 0x004D, name := "goto_if_false", params := [{ type := .pointer }] },
     { opcode := 0x0051, name := "return" }]
  distinct := by decide

/-- A loop: the second `wait` is repeated until its inverted result lets control go on. -/
def waitLoop : List Instruction :=
  [{ opcode := 0x0001, name := "wait", offset := 0, inverted := false,
     args := [.integer 1], size := 4 },
   { opcode := 0x0001, name := "wait", offset := 4, inverted := true,
     args := [.integer 0], size := 4 },
   { opcode := 0x004D, name := "goto_if_false", offset := 8, inverted := false,
     args := [.pointer (-4)], size := 7 },
   { opcode := 0x0051, name := "return", offset := 15, inverted := false, args := [], size := 2 }]

def waitBytes : Bytes :=
  [0x01, 0x00, 0x04, 0x01, 0x01, 0x80, 0x04, 0x00,
   0x4D, 0x00, 0x01, 0xFC, 0xFF, 0xFF, 0xFF, 0x51, 0x00]

theorem waitLoop_laidOut : LaidOut waitTable 0 waitLoop waitBytes := by
  have one : Operand.Tagged (.integer 1) [0x04, 0x01] :=
    @Operand.Tagged.mk .int8 _ _ _ (by decide) ⟨rfl, congrArg _ (by decide)⟩
  have zero : Operand.Tagged (.integer 0) [0x04, 0x00] :=
    @Operand.Tagged.mk .int8 _ _ _ (by decide) ⟨rfl, congrArg _ (by decide)⟩
  have back : Operand.Tagged (.integer (-4)) [0x01, 0xFC, 0xFF, 0xFF, 0xFF] :=
    @Operand.Tagged.mk .int32 _ _ _ (by decide) ⟨rfl, congrArg _ (by decide)⟩
  have first : Instruction.Written waitTable _ [0x01, 0x00, 0x04, 0x01] :=
    .mk 0 (.head _) (by decide) (.of_tagged (by decide) (by decide) rfl one)
  have second : Instruction.Written waitTable _ [0x01, 0x80, 0x04, 0x00] :=
    .mk 4 (.head _) (by decide) (.of_tagged (by decide) (by decide) rfl zero)
  have third : Instruction.Written waitTable _ [0x4D, 0x00, 0x01, 0xFC, 0xFF, 0xFF, 0xFF] :=
    .mk 8 (.tail _ (.head _)) (by decide) (.of_tagged (by decide) (by decide) rfl back)
  have fourth : Instruction.Written waitTable _ [0x51, 0x00] :=
    .mk 15 (.tail _ (.tail _ (.head _))) (by decide) .nil
  exact .cons rfl first (.cons rfl second (.cons rfl third (.cons rfl fourth (.nil _))))

theorem waitLoop_explored :
    LaidOut waitTable 0 waitLoop waitBytes ∧
    (explore waitTable waitBytes).1.failures = [] ∧
      ∀ offset instruction, (offset, instruction) ∈ (explore waitTable waitBytes).1.instructions ↔
        instruction ∈ waitLoop ∧ instruction.offset = offset ∧
          Reachable waitTable waitBytes offset := by
  refine ⟨waitLoop_laidOut, explore_finds_program waitTable waitLoop waitBytes waitLoop_laidOut
    _ rfl (Or.inl rfl) ?_⟩
  intro instruction member branches offset held here
  simp only [waitLoop, List.mem_cons, List.not_mem_nil, or_false] at member
  rcases member with rfl | rfl | rfl | rfl
  · exact absurd branches (by decide)
  · exact absurd branches (by decide)
  · have same : offset = -4 := by simpa using held
    subst same
    exact ⟨_, .tail _ (.head _), rfl⟩
  · exact absurd branches (by decide)

end ScriptAudit
