import Mathlib.Data.Nat.Find
import ScriptAudit.Audit.Check
import ScriptAudit.Proofs.Audit.Exploration

/-!
What the verdict on a script says about its graph. The check takes the first flagged
instruction in the order of discovery. Exploration finds every reachable instruction, and
finds those near the start first, so the verdict tells whether a flagged instruction is
reachable, and if so, of which kind one of the nearest of them is.
-/
namespace ScriptAudit

variable {table : Table} {data : Bytes}

def Issue.Flagged (opcode : Int) : Prop :=
  Issue.isNotImplemented opcode = true ∨ Issue.isAndroidSpecific opcode = true

theorem Issue.ofOpcode?_eq_none_iff (opcode : Int) :
    Issue.ofOpcode? opcode = none ↔ ¬ Issue.Flagged opcode := by
  unfold ofOpcode? Flagged
  by_cases missing : Issue.isNotImplemented opcode = true
  · simp [missing]
  · by_cases platform : Issue.isAndroidSpecific opcode = true
    · simp [missing, platform]
    · simp [missing, platform]

def Distance (table : Table) (data : Bytes) (offset : Int) (depth : Nat) : Prop :=
  Route table data depth offset ∧ ∀ length, Route table data length offset → depth ≤ length

theorem Reachable.distance {offset : Int} (reachable : Reachable table data offset) :
    ∃ depth, Distance table data offset depth := by
  classical
  have route := reachable.route
  exact ⟨Nat.find route, Nat.find_spec route, fun _ other => Nat.find_min' route other⟩

theorem explore_ordered (table : Table) (data : Bytes) :
    ((explore table data).1.instructions.map Prod.fst).Pairwise
      (Exploration.Nearer table data) := by
  obtain ⟨⟨_, _, layered⟩, _⟩ := Exploration.run_ends table data
  exact layered.ordered

theorem firstIssue?_eq_none_iff (table : Table) (data : Bytes) :
    (explore table data).1.firstIssue? = none ↔
      ∀ offset instruction, Reachable table data offset →
        Instruction.decode table data offset = .ok instruction →
        ¬ Issue.Flagged instruction.opcode := by
  simp only [Graph.firstIssue?, List.findSome?_eq_none_iff, Option.map_eq_none_iff,
    Issue.ofOpcode?_eq_none_iff]
  constructor
  · intro clean offset instruction reachable decoded
    exact clean (offset, instruction)
      ((explore_mem_instructions_iff table data offset instruction).mpr ⟨reachable, decoded⟩)
  · rintro clean ⟨offset, instruction⟩ member
    obtain ⟨reachable, decoded⟩ :=
      (explore_mem_instructions_iff table data offset instruction).mp member
    exact clean offset instruction reachable decoded

/-- The first issue is that of a flagged instruction, and no flagged instruction is nearer. -/
theorem firstIssue?_nearest {instruction : Instruction} {issue : Issue}
    (first : (explore table data).1.firstIssue? = some (instruction, issue)) :
    ∃ offset, Reachable table data offset ∧
      Instruction.decode table data offset = .ok instruction ∧
      Issue.ofOpcode? instruction.opcode = some issue ∧
      ∀ other found, Reachable table data other →
        Instruction.decode table data other = .ok found → Issue.Flagged found.opcode →
        Exploration.Nearer table data offset other := by
  obtain ⟨before, ⟨offset, candidate⟩, behind, whole, named, clean⟩ :=
    List.findSome?_eq_some_iff.mp first
  obtain ⟨_, classified, same⟩ := Option.map_eq_some_iff.mp named
  cases same
  have member : (offset, candidate) ∈ (explore table data).1.instructions := by
    rw [whole]
    exact List.mem_append_right before List.mem_cons_self
  obtain ⟨reachable, decoded⟩ := (explore_mem_instructions_iff _ _ _ _).mp member
  refine ⟨offset, reachable, decoded, classified, ?_⟩
  intro other found otherReachable otherDecoded flagged
  have otherMember := (explore_mem_instructions_iff _ _ _ _).mpr ⟨otherReachable, otherDecoded⟩
  have order := explore_ordered table data
  rw [whole] at otherMember order
  -- In front of the first issue nothing is flagged, and behind it nothing is nearer.
  rcases List.mem_append.mp otherMember with early | late
  · have unflagged := clean _ early
    rw [Option.map_eq_none_iff, Issue.ofOpcode?_eq_none_iff] at unflagged
    exact (unflagged flagged).elim
  · rcases List.mem_cons.mp late with same | later
    · cases same
      exact Exploration.Nearer.refl offset
    · rw [List.map_append, List.map_cons] at order
      have tail := (List.pairwise_append.mp order).2.1
      exact List.rel_of_pairwise_cons tail (List.mem_map_of_mem later)

theorem checkBytes_verdict (table : Table) (data : Bytes) :
    (checkBytes table data).1 = (explore table data).1.firstIssue?.map Prod.snd := by
  simp only [checkBytes, Graph.classify]
  cases (explore table data).1.firstIssue? <;> rfl

theorem checkStrict_some_iff (table : Table) (data : Bytes) :
    (∃ issue events, checkStrict table (.bytes data) = .ok (some issue, events)) ↔
      ∃ offset instruction, Reachable table data offset ∧
        Instruction.decode table data offset = .ok instruction ∧
        Issue.Flagged instruction.opcode := by
  have clean := firstIssue?_eq_none_iff table data
  constructor
  · rintro ⟨issue, events, found⟩
    by_contra absent
    have first : (explore table data).1.firstIssue? = none := by
      apply clean.mpr
      intro offset instruction reachable decoded flagged
      exact absent ⟨offset, instruction, reachable, decoded, flagged⟩
    have verdict : (checkBytes table data).1 = some issue :=
      congrArg Prod.fst (Except.ok.inj found)
    rw [checkBytes_verdict, first] at verdict
    cases verdict
  · rintro ⟨offset, instruction, reachable, decoded, flagged⟩
    cases verdict : (checkBytes table data).1 with
    | none =>
        rw [checkBytes_verdict, Option.map_eq_none_iff, clean] at verdict
        exact (verdict offset instruction reachable decoded flagged).elim
    | some issue =>
        refine ⟨issue, (checkBytes table data).2, ?_⟩
        rw [← verdict]
        rfl

/-- A script has nothing against it exactly where no reachable instruction is flagged.
Otherwise the verdict is the issue of a flagged instruction at the least distance. -/
theorem checkStrict_nearest_issue (table : Table) (data : Bytes) :
    ∃ verdict events, checkStrict table (.bytes data) = .ok (verdict, events) ∧
      (verdict = none ↔ ∀ offset instruction, Reachable table data offset →
        Instruction.decode table data offset = .ok instruction →
        ¬ Issue.Flagged instruction.opcode) ∧
      ∀ issue, verdict = some issue → ∃ offset instruction depth,
        Instruction.decode table data offset = .ok instruction ∧
        Issue.Flagged instruction.opcode ∧
        Issue.ofOpcode? instruction.opcode = some issue ∧
        Distance table data offset depth ∧
        ∀ other found length, Instruction.decode table data other = .ok found →
          Issue.Flagged found.opcode → Route table data length other → depth ≤ length := by
  refine ⟨(checkBytes table data).1, (checkBytes table data).2, rfl, ?_, ?_⟩
  · rw [checkBytes_verdict, Option.map_eq_none_iff, firstIssue?_eq_none_iff]
  · intro issue found
    rw [checkBytes_verdict] at found
    obtain ⟨⟨instruction, _⟩, first, rfl⟩ := Option.map_eq_some_iff.mp found
    obtain ⟨offset, reachable, decoded, named, nearest⟩ := firstIssue?_nearest first
    obtain ⟨depth, distance⟩ := reachable.distance
    have flagged : Issue.Flagged instruction.opcode := by
      by_contra unflagged
      rw [(Issue.ofOpcode?_eq_none_iff _).mpr unflagged] at named
      cases named
    refine ⟨offset, instruction, depth, decoded, flagged, named, distance, ?_⟩
    intro other candidate length otherDecoded otherFlagged route
    obtain ⟨shorter, within, known⟩ :=
      nearest other candidate route.reachable otherDecoded otherFlagged length route
    exact Nat.le_trans (distance.2 shorter known) within

end ScriptAudit
