import ScriptAudit.Proofs.Audit.Rounds
import ScriptAudit.Proofs.Audit.Verdict

/-!
Exploration as a search with a single queue. A round goes over its frontier and collects the
next one; with the rest of the frontier in front of what was collected, that is one queue, and
a visit is one step of a search that takes offsets off its front and puts successors to its
end. So the rounds find the same things in the same order as the search, nearest first.
-/
namespace ScriptAudit

structure Search where
  graph : Graph := {}
  warnings : List Event := []
  queue : List Int

namespace Search

/-- One step takes the first offset off the queue. It is skipped if it was decoded or failed
before; otherwise it is decoded, and its successors go to the end of the queue. -/
def step (table : Table) (data : Bytes) (search : Search) : Search :=
  match search.queue with
  | [] => search
  | offset :: rest =>
    if search.graph.visited offset then { search with queue := rest }
    else
      match Instruction.decode table data offset with
      | .error error =>
        { graph := search.graph.addFailure offset error.fault
          warnings := search.warnings ++ [.undecodable offset error.fault]
          queue := rest }
      | .ok instruction =>
        { search with
          graph := search.graph.addInstruction offset instruction
          queue := rest ++ instruction.successors }

def start : Search := { queue := [0] }

def after (table : Table) (data : Bytes) (steps : Nat) : Search :=
  (step table data)^[steps] start

variable {table : Table} {data : Bytes}

theorem after_succ (table : Table) (data : Bytes) (steps : Nat) :
    after table data (steps + 1) = (after table data steps).step table data :=
  Function.iterate_succ_apply' _ _ _

theorem step_of_ended {search : Search} (ended : search.queue = []) :
    search.step table data = search := by
  simp only [step, ended]

theorem after_of_ended {steps : Nat} (ended : (after table data steps).queue = []) {later : Nat}
    (order : steps ≤ later) : after table data later = after table data steps := by
  obtain ⟨more, rfl⟩ := Nat.exists_eq_add_of_le' order
  rw [after, Function.iterate_add_apply]
  exact Function.iterate_fixed (step_of_ended ended) more

/-- A round seen as a search: behind the offsets it has yet to visit stand those it has
collected. -/
def ofRound (pending : List Int) (state : Exploration) : Search where
  graph := state.graph
  warnings := state.events
  queue := pending ++ state.discovered

theorem step_ofRound (table : Table) (data : Bytes) (offset : Int) (pending : List Int)
    (state : Exploration) :
    (ofRound (offset :: pending) state).step table data =
      ofRound pending (state.visit table data offset) := by
  simp only [step, ofRound, List.cons_append, Exploration.visit]
  by_cases seen : state.graph.visited offset = true
  · simp only [seen, ↓reduceIte]
  · cases Instruction.decode table data offset with
    | error error => simp only [seen, Bool.false_eq_true, ↓reduceIte]
    | ok instruction => simp only [seen, Bool.false_eq_true, ↓reduceIte, List.append_assoc]

theorem sweep_ofRound (table : Table) (data : Bytes) (pending : List Int)
    (state : Exploration) :
    (step table data)^[pending.length] (ofRound pending state) =
      ofRound [] (pending.foldl (Exploration.visit table data) state) := by
  induction pending generalizing state with
  | nil => rfl
  | cons offset pending ih =>
      rw [List.length_cons, Function.iterate_succ_apply, step_ofRound, ih, List.foldl_cons]

/-- Between two rounds the whole queue is the frontier of the next. -/
theorem ofRound_turn (state : Exploration) :
    ofRound [] state = ofRound state.discovered { state with discovered := [] } := by
  simp only [ofRound, List.nil_append, List.append_nil]

/-- So many rounds are some number of steps: one for each offset of their frontiers. -/
theorem after_rounds (table : Table) (data : Bytes) (count : Nat) :
    ∃ steps, after table data steps = ofRound [] (Exploration.after table data count) := by
  induction count with
  | zero => exact ⟨0, rfl⟩
  | succ count ih =>
      obtain ⟨steps, same⟩ := ih
      refine ⟨(Exploration.after table data count).discovered.length + steps, ?_⟩
      -- The steps of the rounds before lead to the frontier, and one step each goes over it.
      rw [after, Function.iterate_add_apply, ← after, same, ofRound_turn, sweep_ofRound,
        Exploration.after_succ, Exploration.round]

theorem exists_ended (table : Table) (data : Bytes) :
    ∃ steps, (after table data steps).queue = [] := by
  obtain ⟨count, _, done⟩ := Exploration.exists_last_round table data
  obtain ⟨steps, same⟩ := after_rounds table data count
  refine ⟨steps, ?_⟩
  rw [same, ofRound, done, List.append_nil]

/-- Wherever the search ends, it has come to the state in which the rounds end. -/
theorem after_eq_run {steps : Nat} (ended : (after table data steps).queue = []) :
    after table data steps = ofRound [] (Exploration.run table data) := by
  obtain ⟨count, _, done⟩ := Exploration.exists_last_round table data
  obtain ⟨enough, same⟩ := after_rounds table data count
  have alsoEnded : (after table data enough).queue = [] := by
    rw [same, ofRound, done, List.append_nil]
  rw [Exploration.run_eq_after done, ← same]
  rcases Nat.le_total steps enough with early | late
  · exact (after_of_ended ended early).symm
  · exact after_of_ended alsoEnded late

theorem graph_of_ended {steps : Nat} (ended : (after table data steps).queue = []) :
    (after table data steps).graph = (explore table data).1 := by
  rw [after_eq_run ended]
  rfl

theorem warnings_of_ended {steps : Nat} (ended : (after table data steps).queue = []) :
    (after table data steps).warnings =
      (explore table data).2.filter fun event => event.level = .warning := by
  obtain ⟨⟨recorded, _⟩, _⟩ := Exploration.run_ends table data
  rw [after_eq_run ended, explore_warnings]
  exact recorded.logged

end Search

variable {table : Table} {data : Bytes}

def NoFarther (table : Table) (data : Bytes) (one other : Int) : Prop :=
  ∃ depth length, Distance table data one depth ∧ Distance table data other length ∧
    depth ≤ length

theorem NoFarther.of_nearer {one other : Int} (near : Reachable table data one)
    (far : Reachable table data other) (nearer : Exploration.Nearer table data one other) :
    NoFarther table data one other := by
  obtain ⟨depth, shortest⟩ := near.distance
  obtain ⟨length, distance⟩ := far.distance
  obtain ⟨shorter, within, route⟩ := nearer length distance.1
  exact ⟨depth, length, shortest, distance, Nat.le_trans (shortest.2 shorter route) within⟩

theorem NoFarther.of_ordered {offsets : List Int}
    (found : ∀ offset ∈ offsets, (explore table data).1.visited offset = true)
    (ordered : offsets.Pairwise (Exploration.Nearer table data)) :
    offsets.Pairwise (NoFarther table data) := by
  have reachable : ∀ offset ∈ offsets, Reachable table data offset := by
    intro offset member
    exact (Exploration.run_visited_iff table data offset).mp (found offset member)
  apply ordered.imp_of_mem
  intro one other first second nearer
  exact NoFarther.of_nearer (reachable one first) (reachable other second) nearer

/-- Exploration is a breadth-first search: a search with a single queue comes to an end, and
at its end it has the same instructions, failures and warnings in the same order. Along both
orders the distance from the start never decreases. -/
theorem explore_breadth_first (table : Table) (data : Bytes) :
    (∃ steps, (Search.after table data steps).queue = []) ∧
    (∀ steps, (Search.after table data steps).queue = [] →
      (Search.after table data steps).graph.instructions =
        (explore table data).1.instructions ∧
      (Search.after table data steps).graph.failures = (explore table data).1.failures ∧
      (Search.after table data steps).warnings =
        (explore table data).2.filter fun event => event.level = .warning) ∧
    ((explore table data).1.instructions.map Prod.fst).Pairwise (NoFarther table data) ∧
    ((explore table data).1.failures.map Prod.fst).Pairwise (NoFarther table data) := by
  obtain ⟨⟨_, _, layered⟩, _⟩ := Exploration.run_ends table data
  refine ⟨Search.exists_ended table data, ?_, ?_, ?_⟩
  · intro steps ended
    have graph := Search.graph_of_ended ended
    exact ⟨congrArg Graph.instructions graph, congrArg Graph.failures graph,
      Search.warnings_of_ended ended⟩
  · apply NoFarther.of_ordered _ layered.ordered
    intro offset member
    exact Graph.visited_of_mem_instructions member
  · apply NoFarther.of_ordered _ layered.failuresOrdered
    intro offset member
    exact Graph.visited_of_mem_failures member

end ScriptAudit
