import ScriptAudit.Proofs.Script.Range

/-!
The pointers of an instruction and the ways on. A branching instruction goes on at every local
pointer among its arguments, but it does not look into a variadic list. So the code behind a
pointer may be missed, and this can happen exactly with the tables in which a branching command
takes a list of pointers.
-/
namespace ScriptAudit

namespace Operand

/-- No tag announces a list: it is what a variadic parameter makes of many operands. -/
theorem Tagged.not_varargs {items : List Operand} {bytes : Bytes} :
    ¬ Tagged (.varargs items) bytes := by
  intro tagged
  cases tagged with
  | @mk encoding _ _ payload _ content =>
      cases encoding with
      | sizedString =>
          obtain ⟨_, _, _, _, never⟩ := content
          cases never
      | _ => cases content.2

end Operand

namespace Param

def ListsPointers (param : Param) : Prop := param.variadic = true ∧ param.type = .pointer

theorem reinterpret_pointer_type {param : Param} {operand : Operand} {offset : Int}
    {bytes : Bytes} (tagged : operand.Tagged bytes)
    (points : param.reinterpret operand = .pointer offset) : param.type = .pointer := by
  cases operand with
  | integer value =>
      simp only [reinterpret] at points
      split at points
      · assumption
      · cases points
      · cases points
  | pointer other => exact (Operand.Tagged.not_pointer tagged).elim
  | _ => cases points

theorem reinterpret_eq_varargs {param : Param} {operand : Operand} {items : List Operand}
    (many : param.reinterpret operand = .varargs items) : operand = .varargs items := by
  cases operand with
  | integer value =>
      simp only [reinterpret] at many
      split at many <;> cases many
  | _ => exact many

theorem Items.pointer_type {param : Param} {items : List Operand} {bytes : Bytes}
    (list : Items param items bytes) {offset : Int} (member : .pointer offset ∈ items) :
    param.type = .pointer := by
  induction list with
  | stop => cases member
  | item tagged _ ih =>
      rcases List.mem_cons.mp member with here | later
      · exact reinterpret_pointer_type tagged here.symm
      · exact ih later

theorem Written.listsPointers {param : Param} {items : List Operand} {bytes : Bytes}
    (written : Written param (some (.varargs items)) bytes) {offset : Int}
    (member : .pointer offset ∈ items) : param.ListsPointers := by
  generalize value : some (Operand.varargs items) = arg at written
  cases written with
  | varargs _ many list =>
      cases value
      exact ⟨many, list.pointer_type member⟩
  | single _ _ _ tagged =>
      rw [reinterpret_eq_varargs (Option.some.inj value).symm] at tagged
      exact (Operand.Tagged.not_varargs tagged).elim
  | buffer | endMark => cases value

/-- An argument that is no local pointer can be written for every parameter; in a list of
pointers there can be one. -/
theorem exists_written (param : Param) :
    ∃ arg bytes, param.Written arg bytes ∧ (∀ offset < 0, .pointer offset ∉ arg.toList) ∧
      (param.ListsPointers → .varargs [.pointer (-1)] ∈ arg.toList) := by
  have zero : Operand.Tagged (.integer 0) [0x04, 0x00] :=
    @Operand.Tagged.mk .int8 _ _ _ (by decide) ⟨rfl, congrArg _ (by decide)⟩
  have back : Operand.Tagged (.integer (-1)) [0x04, 0xFF] :=
    @Operand.Tagged.mk .int8 _ _ _ (by decide) ⟨rfl, congrArg _ (by decide)⟩
  by_cases long : param.type = .buffer
  · refine ⟨_, List.replicate 128 0, .buffer long List.length_replicate, by simp, ?_⟩
    rintro ⟨_, points⟩
    cases long.symm.trans points
  · by_cases many : param.variadic = true
    · by_cases points : param.type = .pointer
      · have listed : Items param [.pointer (-1)] [0x04, 0xFF, 0x00] := by
          have list := Items.item back (Items.stop : Items param [] [0x00])
          simpa only [reinterpret, points, List.cons_append, List.nil_append] using list
        exact ⟨_, _, .varargs long many listed, by simp, by simp⟩
      · refine ⟨_, _, .varargs long many .stop, by simp, ?_⟩
        rintro ⟨_, other⟩
        exact (points other).elim
    · have one : param.variadic = false := eq_false_of_ne_true many
      by_cases mark : param.type = .endMark
      · exact ⟨_, _, .endMark mark one, by simp, fun lists => (many lists.1).elim⟩
      · refine ⟨_, _, .single long mark one zero, ?_, fun lists => (many lists.1).elim⟩
        intro offset negative member
        have same := (List.mem_singleton.mp member).symm
        simp only [reinterpret] at same
        split at same <;> cases same
        exact (Int.lt_irrefl 0 negative).elim

end Param

namespace Instruction

def Refers (instruction : Instruction) (offset : Int) : Prop :=
  .pointer offset ∈ instruction.args ∨
    ∃ items, .varargs items ∈ instruction.args ∧ .pointer offset ∈ items

/-- The ways on are those at the local pointers which are referred to, and the one behind the
instruction unless it is a goto. -/
structure FollowsReferences (instruction : Instruction) : Prop where
  follows : ∀ offset < 0, instruction.Refers offset →
    (offset.natAbs : Int) ∈ instruction.successors
  accounts : ∀ target ∈ instruction.successors, target = instruction.next ∨
    ∃ offset < 0, instruction.Refers offset ∧ target = offset.natAbs
  next : instruction.next ∈ instruction.successors ↔ instruction.opcode ≠ gotoOpcode ∨
    ∃ offset < 0, instruction.Refers offset ∧ instruction.next = offset.natAbs

/-- A branching instruction follows its arguments and nothing else. -/
theorem mem_successors_of_branching {instruction : Instruction}
    (branches : instruction.opcode ∈ branching) (target : Int) :
    target ∈ instruction.successors ↔
      (instruction.opcode ≠ gotoOpcode ∧ target = instruction.next) ∨
        ∃ offset < 0, .pointer offset ∈ instruction.args ∧ target = offset.natAbs := by
  have goesOn : instruction.opcode ≠ returnOpcode := by
    intro returns
    rw [returns] at branches
    exact absurd branches (by decide)
  rw [mem_successors_iff, mem_targets_iff]
  simp only [goesOn, branches, ne_eq, not_false_eq_true, true_and]
  constructor
  · rintro (next | ⟨offset, held, here, same⟩)
    · exact Or.inl next
    · exact Or.inr ⟨offset, here, held, same⟩
  · rintro (next | ⟨offset, here, held, same⟩)
    · exact Or.inl next
    · exact Or.inr ⟨offset, held, here, same⟩

theorem followsReferences_of_args {instruction : Instruction}
    (branches : instruction.opcode ∈ branching)
    (direct : ∀ offset, instruction.Refers offset → .pointer offset ∈ instruction.args) :
    instruction.FollowsReferences where
  follows offset here refers :=
    (mem_successors_of_branching branches _).mpr (Or.inr ⟨offset, here, direct offset refers, rfl⟩)
  accounts target edge := by
    rcases (mem_successors_of_branching branches target).mp edge with next | jump
    · exact Or.inl next.2
    · obtain ⟨offset, here, held, same⟩ := jump
      exact Or.inr ⟨offset, here, Or.inl held, same⟩
  next := by
    rw [mem_successors_of_branching branches]
    constructor
    · rintro (⟨falls, _⟩ | ⟨offset, here, held, same⟩)
      · exact Or.inl falls
      · exact Or.inr ⟨offset, here, Or.inl held, same⟩
    · rintro (falls | ⟨offset, here, refers, same⟩)
      · exact Or.inl ⟨falls, rfl⟩
      · exact Or.inr ⟨offset, here, direct offset refers, same⟩

theorem Arguments.listsPointers {params : List Param} {args : List Operand} {bytes : Bytes}
    (written : Arguments params args bytes) {items : List Operand} {offset : Int}
    (member : .varargs items ∈ args) (inside : .pointer offset ∈ items) :
    ∃ param ∈ params, param.ListsPointers := by
  induction written with
  | nil => cases member
  | @cons param _ arg _ _ _ first _ ih =>
      rcases List.mem_append.mp member with here | later
      · rw [Option.mem_toList.mp here] at first
        exact ⟨param, List.mem_cons_self, first.listsPointers inside⟩
      · obtain ⟨other, listed, points⟩ := ih later
        exact ⟨other, List.mem_cons_of_mem param listed, points⟩

theorem Arguments.exists_written (params : List Param) :
    ∃ args bytes, Arguments params args bytes ∧ (∀ offset < 0, .pointer offset ∉ args) ∧
      ∀ param ∈ params, param.ListsPointers → .varargs [.pointer (-1)] ∈ args := by
  induction params with
  | nil => exact ⟨[], [], .nil, by simp, by simp⟩
  | cons param params ih =>
      obtain ⟨args, back, written, plain, listed⟩ := ih
      obtain ⟨arg, front, first, plainFirst, listedFirst⟩ := param.exists_written
      refine ⟨_, _, .cons first written, ?_, ?_⟩
      · intro offset here member
        rcases List.mem_append.mp member with head | tail
        · exact plainFirst offset here head
        · exact plain offset here tail
      · intro other member lists
        rcases List.mem_cons.mp member with rfl | later
        · exact List.mem_append_left _ (listedFirst lists)
        · exact List.mem_append_right _ (listed other later lists)

theorem exists_word {opcode : Int} (branches : opcode ∈ branching) :
    ∃ low high, opcode = (word low high &&& 0x7FFF : Nat) := by
  simp only [branching, List.mem_cons, List.not_mem_nil, or_false] at branches
  rcases branches with rfl | rfl | rfl | rfl | rfl | rfl
  · exact ⟨0x02, 0x00, by decide⟩
  · exact ⟨0x4C, 0x00, by decide⟩
  · exact ⟨0x4D, 0x00, by decide⟩
  · exact ⟨0x50, 0x00, by decide⟩
  · exact ⟨0x71, 0x08, by decide⟩
  · exact ⟨0x72, 0x08, by decide⟩

/-- A branching command with a list of pointers has an instruction that does not go on at a
pointer of the list: one that points to offset one, which is inside the instruction itself. -/
theorem exists_unfollowed {table : Table} {command : Command} {param : Param}
    (known : command ∈ table.commands) (branches : command.opcode ∈ branching)
    (takes : param ∈ command.params) (lists : param.ListsPointers) :
    ∃ data instruction, decode table data 0 = .ok instruction ∧
      instruction.opcode ∈ branching ∧ ¬ instruction.FollowsReferences := by
  obtain ⟨low, high, named⟩ := exists_word branches
  obtain ⟨args, operands, written, plain, listed⟩ := Arguments.exists_written command.params
  have form := Written.mk 0 known named written
  refine ⟨low :: high :: operands, _, (decode_ok_iff _ _ _ _).mpr ⟨_, ?_, form, rfl⟩, branches, ?_⟩
  · exact List.prefix_refl _
  · intro complete
    have edge := complete.follows (-1) (by decide)
      (Or.inr ⟨_, listed param takes lists, List.mem_singleton.mpr rfl⟩)
    rcases (mem_successors_of_branching branches _).mp edge with ⟨_, behind⟩ | jump
    · simp only [Instruction.next, List.length_cons] at behind
      omega
    · obtain ⟨offset, here, held, _⟩ := jump
      exact plain offset here held

/-- A branching instruction goes on at the local pointers among its arguments, and behind itself
unless it is a goto. With a table these are all the local pointers to which the instructions
refer exactly if no branching command of the table takes a list of pointers. -/
theorem follows_references_iff (table : Table) :
    (∀ instruction : Instruction, instruction.opcode ∈ branching → ∀ target,
      target ∈ instruction.successors ↔
        (instruction.opcode ≠ gotoOpcode ∧ target = instruction.next) ∨
          ∃ offset < 0, .pointer offset ∈ instruction.args ∧ target = offset.natAbs) ∧
    ((∀ data offset instruction, decode table data offset = .ok instruction →
        instruction.opcode ∈ branching → instruction.FollowsReferences) ↔
      ∀ command ∈ table.commands, command.opcode ∈ branching →
        ∀ param ∈ command.params, ¬ param.ListsPointers) := by
  refine ⟨fun _ branches => mem_successors_of_branching branches, ?_, ?_⟩
  · intro complete command known branches param takes lists
    obtain ⟨data, instruction, decoded, jumps, missed⟩ :=
      exists_unfollowed known branches takes lists
    exact missed (complete data 0 instruction decoded jumps)
  · intro noLists data offset instruction decoded branches
    apply followsReferences_of_args branches
    rintro pointer (held | ⟨items, member, inside⟩)
    · exact held
    · obtain ⟨_, _, written, _⟩ := (decode_ok_iff _ _ _ _).mp decoded
      cases written with
      | @mk command _ _ _ _ _ known _ arguments =>
          obtain ⟨param, takes, lists⟩ := arguments.listsPointers member inside
          exact (noLists command known branches param takes lists).elim

def listedSwitch : Table where
  commands := [{ opcode := 0x0871, name := "switch_start",
                 params := [{ type := .pointer, variadic := true }] }]
  distinct := by decide

/-- The switch points to offset eight, and goes on behind itself only. -/
theorem listedSwitch_missed :
    ∃ instruction, decode listedSwitch [0x71, 0x08, 0x04, 0xF8, 0x00] 0 = .ok instruction ∧
      instruction.opcode ∈ branching ∧ instruction.Refers (-8) ∧
      instruction.successors = [5] ∧ ¬ instruction.FollowsReferences := by
  have back : Operand.Tagged (.integer (-8)) [0x04, 0xF8] :=
    @Operand.Tagged.mk .int8 _ _ _ (by decide) ⟨rfl, congrArg _ (by decide)⟩
  have listed : Param.Items { type := .pointer, variadic := true } [.pointer (-8)]
      [0x04, 0xF8, 0x00] := .item back .stop
  have written : Written listedSwitch _ [0x71, 0x08, 0x04, 0xF8, 0x00] :=
    .mk 0 (.head _) (by decide) (.cons (.varargs (by decide) rfl listed) .nil)
  refine ⟨_, (decode_ok_iff _ _ _ _).mpr ⟨_, List.prefix_refl _, written, rfl⟩, by decide,
    Or.inr ⟨_, .head _, .head _⟩, rfl, ?_⟩
  intro complete
  exact absurd (complete.follows (-8) (by decide) (Or.inr ⟨_, .head _, .head _⟩)) (by decide)

end Instruction

end ScriptAudit
