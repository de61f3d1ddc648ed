import Mathlib.Data.Nat.Find
import Mathlib.Logic.Function.Iterate
import ScriptAudit.Proofs.Audit.Exploration
import ScriptAudit.Proofs.Script.Range

/-!
How long an exploration takes. A round without a frontier changes nothing, so a run is the
rounds one after the other, as many as one likes beyond the last. Every round that leaves a
frontier behind has decoded an instruction, and instructions stand at distinct offsets inside
the data; that bounds the rounds. The offsets of all frontiers are reachable, which bounds
where an exploration looks.
-/
namespace ScriptAudit

variable {table : Table} {data : Bytes}

/-- Control stays between the start of the script and the farther one of its end and the
farthest jump. -/
theorem Route.range {length : Nat} {offset : Int} (route : Route table data length offset) :
    0 ≤ offset ∧ offset ≤ max (data.length : Int) 0x80000000 := by
  refine ⟨route.nonneg, ?_⟩
  cases route with
  | entry => omega
  | follow before decoded edge =>
      exact Instruction.decode_successor_le decoded before.nonneg edge

namespace Exploration

def start : Exploration := { discovered := [0] }

def after (table : Table) (data : Bytes) (count : Nat) : Exploration :=
  (round table data)^[count] start

theorem after_succ (table : Table) (data : Bytes) (count : Nat) :
    after table data (count + 1) = (after table data count).round table data :=
  Function.iterate_succ_apply' _ _ _

theorem round_of_done {state : Exploration} (done : state.discovered = []) :
    state.round table data = state := by
  unfold round
  rw [done]
  exact congrArg (Exploration.mk _ _) done.symm

theorem rounds_eq_iterate (table : Table) (data : Bytes) (fuel : Nat) (state : Exploration) :
    rounds table data fuel state = (round table data)^[fuel] state := by
  induction fuel generalizing state with
  | zero => rfl
  | succ fuel ih =>
      rw [Function.iterate_succ_apply, rounds]
      by_cases done : state.discovered = []
      · rw [round_of_done done, ← ih, rounds_of_done table data fuel state done]
        simp [done]
      · rw [← ih]
        simp [done]

theorem after_of_done {count : Nat} (done : (after table data count).discovered = [])
    {later : Nat} (order : count ≤ later) : after table data later = after table data count := by
  obtain ⟨more, rfl⟩ := Nat.exists_eq_add_of_le' order
  rw [after, Function.iterate_add_apply]
  exact Function.iterate_fixed (round_of_done done) more

theorem run_eq_rounds (table : Table) (data : Bytes) :
    run table data = after table data (data.length + 1) :=
  rounds_eq_iterate table data _ start

theorem after_fuel_done (table : Table) (data : Bytes) :
    (after table data (data.length + 1)).discovered = [] := by
  rw [← run_eq_rounds]
  exact (run_ends table data).2

/-- A run is as many rounds as leave no frontier. -/
theorem run_eq_after {count : Nat} (done : (after table data count).discovered = []) :
    run table data = after table data count := by
  rw [run_eq_rounds]
  -- Beyond the earlier one of two ends nothing changes, whichever that is.
  rcases Nat.le_total count (data.length + 1) with early | late
  · exact after_of_done done early
  · exact (after_of_done (after_fuel_done table data) late).symm

theorem after_underway (table : Table) (data : Bytes) (count : Nat) :
    Underway table data (after table data count).discovered
      { after table data count with discovered := [] } := by
  induction count with
  | zero => exact ⟨Recorded.initial, 0, Layered.initial⟩
  | succ count ih =>
      rw [after_succ]
      exact ih.sweep.turn

theorem sweep_instructions (table : Table) (data : Bytes) (pending : List Int)
    (state : Exploration) :
    state.graph.instructions <+: (pending.foldl (visit table data) state).graph.instructions := by
  induction pending generalizing state with
  | nil => exact List.prefix_refl _
  | cons offset pending ih =>
      refine List.IsPrefix.trans ?_ (ih (state.visit table data offset))
      rcases visit_grows table data state offset with ⟨same, _⟩ | ⟨_, _, _, added, _⟩
      · simp only [same, List.prefix_refl]
      · rw [added]
        exact List.prefix_append _ _

/-- Every round that leaves a frontier behind has decoded an instruction. -/
theorem after_progress {count : Nat} (going : (after table data count).discovered ≠ []) :
    count ≤ (after table data count).graph.instructions.length := by
  induction count with
  | zero => exact Nat.zero_le _
  | succ count ih =>
      -- An empty frontier stays empty, so the round before had one to go over as well.
      have before : (after table data count).discovered ≠ [] := by
        intro done
        rw [after_succ, round_of_done done] at going
        exact going done
      have progress : ((after table data count).round table data).discovered = [] ∨
          (after table data count).graph.instructions.length <
            ((after table data count).round table data).graph.instructions.length :=
        sweep_progress table data _ _ _ (Nat.le_refl _) (Or.inl rfl)
      rw [after_succ] at going ⊢
      rcases progress with done | more
      · exact (going done).elim
      · exact Nat.lt_of_le_of_lt (ih before) more

/-- The rounds of a run: each has a frontier to go over, and behind the last there is none. -/
theorem exists_last_round (table : Table) (data : Bytes) :
    ∃ count, (∀ earlier < count, (after table data earlier).discovered ≠ []) ∧
      (after table data count).discovered = [] := by
  have ends : ∃ count, (after table data count).discovered = [] :=
    ⟨data.length + 1, after_fuel_done table data⟩
  exact ⟨Nat.find ends, fun _ early => Nat.find_min ends early, Nat.find_spec ends⟩

/-- All rounds but the last have left a frontier behind. -/
theorem rounds_le_instructions {count : Nat}
    (going : ∀ earlier < count, (after table data earlier).discovered ≠ []) :
    count ≤ (after table data count).graph.instructions.length + 1 := by
  cases count with
  | zero => exact Nat.zero_le _
  | succ count =>
      have progress := after_progress (going count (Nat.lt_succ_self count))
      have kept := (sweep_instructions table data (after table data count).discovered
        { after table data count with discovered := [] }).length_le
      rw [after_succ, round]
      exact Nat.succ_le_succ (Nat.le_trans progress kept)

end Exploration

/-- The rounds of an exploration end, and there is at most one more of them than there are
instructions. There are fewer instructions than bytes, each inside the data. All offsets that a
round goes over, visited before or not, are in the range that control stays in. -/
theorem explore_bounded (table : Table) (data : Bytes) :
    (∃ count, (∀ earlier < count, (Exploration.after table data earlier).discovered ≠ []) ∧
      (Exploration.after table data count).discovered = [] ∧
      (Exploration.after table data count).graph = (explore table data).1 ∧
      count ≤ (explore table data).1.instructions.length + 1) ∧
    (explore table data).1.instructions.length ≤ data.length - 1 ∧
    (∀ offset instruction, (offset, instruction) ∈ (explore table data).1.instructions →
      instruction.offset = offset ∧ 2 ≤ instruction.size ∧
        offset + instruction.size ≤ data.length) ∧
    ∀ count, ∀ offset ∈ (Exploration.after table data count).discovered,
      0 ≤ offset ∧ offset ≤ max (data.length : Int) 0x80000000 := by
  obtain ⟨count, going, done⟩ := Exploration.exists_last_round table data
  have whole : (explore table data).1 = (Exploration.after table data count).graph :=
    congrArg Exploration.graph (Exploration.run_eq_after done)
  refine ⟨⟨count, going, done, whole.symm, ?_⟩, ?_, ?_, ?_⟩
  · rw [whole]
    exact Exploration.rounds_le_instructions going
  · exact (Exploration.run_ends table data).1.instructions_length
  · intro offset instruction member
    obtain ⟨reachable, decoded⟩ := (explore_mem_instructions_iff _ _ _ _).mp member
    obtain ⟨_, route⟩ := reachable.route
    have inside := route.nonneg
    have span := Instruction.decode_span decoded
    exact ⟨Instruction.decode_offset decoded, span.1, by omega⟩
  · intro count offset member
    obtain ⟨_, _, layered⟩ := Exploration.after_underway table data count
    exact (layered.pendingRoute offset member).range

end ScriptAudit
