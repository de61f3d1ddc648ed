import ScriptAudit.Audit.Graph
import ScriptAudit.Proofs.Script.Branching
import ScriptAudit.Proofs.Script.Grammar

/-!
What an exploration finds. Offsets are reachable from offset zero along the successors of
decoded instructions. The state of an exploration is kept together with the offsets of the
running round that are still to be visited. One visit, and the turn from a round to the
next, keep two things: the graph records what decoding gives at the offsets it holds, and
it holds the offsets near the start layer by layer. Rounds end, since every round but the
last decodes an instruction at an offset of its own inside the data.
-/
namespace ScriptAudit

namespace Graph

theorem decoded_iff (graph : Graph) (offset : Int) :
    graph.decoded offset = true ↔ ∃ instruction, (offset, instruction) ∈ graph.instructions := by
  simp [decoded]

theorem failed_iff (graph : Graph) (offset : Int) :
    graph.failed offset = true ↔ ∃ fault, (offset, fault) ∈ graph.failures := by
  simp [failed]

theorem visited_iff (graph : Graph) (offset : Int) :
    graph.visited offset = true ↔
      (∃ instruction, (offset, instruction) ∈ graph.instructions) ∨
        ∃ fault, (offset, fault) ∈ graph.failures := by
  rw [visited, Bool.or_eq_true, decoded_iff, failed_iff]

theorem visited_of_mem_instructions {graph : Graph} {offset : Int}
    (member : offset ∈ graph.instructions.map Prod.fst) : graph.visited offset = true := by
  obtain ⟨⟨_, instruction⟩, held, rfl⟩ := List.mem_map.mp member
  exact (graph.visited_iff _).mpr (Or.inl ⟨instruction, held⟩)

theorem visited_of_mem_failures {graph : Graph} {offset : Int}
    (member : offset ∈ graph.failures.map Prod.fst) : graph.visited offset = true := by
  obtain ⟨⟨_, fault⟩, held, rfl⟩ := List.mem_map.mp member
  exact (graph.visited_iff _).mpr (Or.inr ⟨fault, held⟩)

theorem mem_offsets_of_visited {graph : Graph} {offset : Int}
    (seen : graph.visited offset = true) :
    offset ∈ graph.instructions.map Prod.fst ++ graph.failures.map Prod.fst := by
  rw [List.mem_append, List.mem_map, List.mem_map]
  rcases (graph.visited_iff offset).mp seen with ⟨instruction, member⟩ | ⟨fault, member⟩
  · exact Or.inl ⟨_, member, rfl⟩
  · exact Or.inr ⟨_, member, rfl⟩

theorem visited_addInstruction (graph : Graph) (offset other : Int) (instruction : Instruction) :
    (graph.addInstruction offset instruction).visited other = true ↔
      graph.visited other = true ∨ other = offset := by
  simp only [visited_iff, addInstruction, List.mem_append, List.mem_singleton, Prod.mk.injEq,
    exists_or, exists_and_left, exists_eq, and_true]
  rw [or_right_comm]

theorem visited_addFailure (graph : Graph) (offset other : Int) (fault : Fault) :
    (graph.addFailure offset fault).visited other = true ↔
      graph.visited other = true ∨ other = offset := by
  simp only [visited_iff, addFailure, List.mem_append, List.mem_singleton, Prod.mk.injEq,
    exists_or, exists_and_left, exists_eq, and_true]
  rw [or_assoc]

end Graph

/-- The offsets that control may reach: zero, and what an instruction that is decoded at one
of them goes on with. -/
inductive Reachable (table : Table) (data : Bytes) : Int → Prop where
  | entry : Reachable table data 0
  | follow {offset target : Int} {instruction : Instruction} :
      Reachable table data offset →
      Instruction.decode table data offset = .ok instruction →
      target ∈ instruction.successors → Reachable table data target

inductive Route (table : Table) (data : Bytes) : Nat → Int → Prop where
  | entry : Route table data 0 0
  | follow {length : Nat} {offset target : Int} {instruction : Instruction} :
      Route table data length offset →
      Instruction.decode table data offset = .ok instruction →
      target ∈ instruction.successors → Route table data (length + 1) target

variable {table : Table} {data : Bytes}

theorem Route.reachable {length : Nat} {offset : Int} (route : Route table data length offset) :
    Reachable table data offset := by
  induction route with
  | entry => exact Reachable.entry
  | follow _ decoded edge ih => exact Reachable.follow ih decoded edge

theorem Reachable.route {offset : Int} (reachable : Reachable table data offset) :
    ∃ length, Route table data length offset := by
  induction reachable with
  | entry => exact ⟨0, Route.entry⟩
  | follow _ decoded edge ih =>
      obtain ⟨length, route⟩ := ih
      exact ⟨length + 1, Route.follow route decoded edge⟩

theorem Route.nonneg {length : Nat} {offset : Int} (route : Route table data length offset) :
    0 ≤ offset := by
  induction route with
  | entry => exact Int.le_refl 0
  | @follow _ offset target instruction _ decoded edge ih =>
      have start := Instruction.decode_offset decoded
      have span := Instruction.decode_span decoded
      rcases (Instruction.mem_successors_iff instruction target).mp edge with next | jump
      · rw [next.2.2, Instruction.next]
        omega
      · exact Instruction.target_nonneg jump

namespace Exploration

/-- All that a visit can do: nothing at an offset seen before, else one new entry. -/
theorem visit_cases (table : Table) (data : Bytes) (state : Exploration) (offset : Int) :
    (state.graph.visited offset = true ∧ state.visit table data offset = state) ∨
    (¬ state.graph.visited offset = true ∧ ∃ fault,
      Instruction.decode table data offset = .error ⟨fault, offset⟩ ∧
      state.visit table data offset =
        { state with
          graph := state.graph.addFailure offset fault
          events := state.events ++ [.undecodable offset fault] }) ∨
    (¬ state.graph.visited offset = true ∧ ∃ instruction,
      Instruction.decode table data offset = .ok instruction ∧
      state.visit table data offset =
        { state with
          graph := state.graph.addInstruction offset instruction
          discovered := state.discovered ++ instruction.successors }) := by
  unfold visit
  by_cases seen : state.graph.visited offset = true
  · exact Or.inl ⟨seen, by simp [seen]⟩
  · right
    cases result : Instruction.decode table data offset with
    | error error =>
        obtain ⟨fault, place⟩ := error
        have here : place = offset := Instruction.decode_error_offset result
        subst here
        exact Or.inl ⟨seen, fault, rfl, by simp [seen]⟩
    | ok instruction => exact Or.inr ⟨seen, instruction, rfl, by simp [seen]⟩

theorem visited_visit (table : Table) (data : Bytes) (state : Exploration) (offset other : Int) :
    (state.visit table data offset).graph.visited other = true ↔
      state.graph.visited other = true ∨ other = offset := by
  rcases visit_cases table data state offset with
    ⟨seen, same⟩ | ⟨_, fault, _, same⟩ | ⟨_, instruction, _, same⟩
  · rw [same]
    constructor
    · exact Or.inl
    · rintro (old | rfl)
      · exact old
      · exact seen
  · rw [same, Graph.visited_addFailure]
  · rw [same, Graph.visited_addInstruction]

/-- A visit either leaves the instructions and the next frontier alone or adds to both. -/
theorem visit_grows (table : Table) (data : Bytes) (state : Exploration) (offset : Int) :
    ((state.visit table data offset).graph.instructions = state.graph.instructions ∧
      (state.visit table data offset).discovered = state.discovered) ∨
    (¬ state.graph.visited offset = true ∧ ∃ instruction,
      Instruction.decode table data offset = .ok instruction ∧
      (state.visit table data offset).graph.instructions =
        state.graph.instructions ++ [(offset, instruction)] ∧
      (state.visit table data offset).discovered =
        state.discovered ++ instruction.successors) := by
  rcases visit_cases table data state offset with
    ⟨_, same⟩ | ⟨_, fault, _, same⟩ | ⟨fresh, instruction, result, same⟩
  · exact Or.inl (by rw [same]; exact ⟨rfl, rfl⟩)
  · exact Or.inl (by rw [same]; exact ⟨rfl, rfl⟩)
  · exact Or.inr ⟨fresh, instruction, result, by rw [same]; exact ⟨rfl, rfl⟩⟩

/-- The graph holds, once for each offset, what decoding gives there, and the log has the
failures. -/
structure Recorded (table : Table) (data : Bytes) (state : Exploration) : Prop where
  decoded : ∀ offset instruction, (offset, instruction) ∈ state.graph.instructions →
    Instruction.decode table data offset = .ok instruction
  failed : ∀ offset fault, (offset, fault) ∈ state.graph.failures →
    Instruction.decode table data offset = .error ⟨fault, offset⟩
  decodedOnce : (state.graph.instructions.map Prod.fst).Nodup
  failedOnce : (state.graph.failures.map Prod.fst).Nodup
  logged : state.events =
    state.graph.failures.map fun entry => .undecodable entry.1 entry.2

theorem Recorded.initial : Recorded table data {} where
  decoded := by simp
  failed := by simp
  decodedOnce := List.nodup_nil
  failedOnce := List.nodup_nil
  logged := rfl

theorem Recorded.visit {state : Exploration} (recorded : Recorded table data state)
    (offset : Int) : Recorded table data (state.visit table data offset) := by
  rcases visit_cases table data state offset with
    ⟨_, same⟩ | ⟨fresh, fault, result, same⟩ | ⟨fresh, instruction, result, same⟩
  · rw [same]
    exact recorded
  · rw [same]
    have unseen : offset ∉ state.graph.failures.map Prod.fst :=
      fun member => fresh (Graph.visited_of_mem_failures member)
    refine ⟨recorded.decoded, ?_, recorded.decodedOnce, ?_, ?_⟩
    · intro other found member
      rcases List.mem_append.mp member with old | new
      · exact recorded.failed other found old
      · cases List.mem_singleton.mp new
        exact result
    · simpa [Graph.addFailure] using Table.nodup_extend recorded.failedOnce unseen
    · simp [Graph.addFailure, recorded.logged]
  · rw [same]
    have unseen : offset ∉ state.graph.instructions.map Prod.fst :=
      fun member => fresh (Graph.visited_of_mem_instructions member)
    refine ⟨?_, recorded.failed, ?_, recorded.failedOnce, recorded.logged⟩
    · intro other found member
      rcases List.mem_append.mp member with old | new
      · exact recorded.decoded other found old
      · cases List.mem_singleton.mp new
        exact result
    · simpa [Graph.addInstruction] using Table.nodup_extend recorded.decodedOnce unseen

theorem Recorded.holds {state : Exploration} (recorded : Recorded table data state)
    {offset : Int} {instruction : Instruction} (seen : state.graph.visited offset = true)
    (decoded : Instruction.decode table data offset = .ok instruction) :
    (offset, instruction) ∈ state.graph.instructions := by
  rcases (state.graph.visited_iff offset).mp seen with ⟨known, member⟩ | ⟨fault, member⟩
  · have same := (recorded.decoded offset known member).symm.trans decoded
    cases same
    exact member
  · have same := (recorded.failed offset fault member).symm.trans decoded
    cases same

def Nearer (table : Table) (data : Bytes) (one other : Int) : Prop :=
  ∀ length, Route table data length other → ∃ shorter ≤ length, Route table data shorter one

theorem Nearer.refl (offset : Int) : Nearer table data offset offset :=
  fun length route => ⟨length, Nat.le_refl length, route⟩

/-- A round at some depth, with the offsets it has yet to visit. All offsets of smaller depth
have been visited, those of its own depth are visited or pending, and the successors of the
instructions so far are at hand. Instructions and failures stand in the order of their depth. -/
structure Layered (table : Table) (data : Bytes) (depth : Nat) (pending : List Int)
    (state : Exploration) : Prop where
  reached : ∀ offset, state.graph.visited offset = true →
    ∃ length ≤ depth, Route table data length offset
  covered : ∀ length offset, length < depth → Route table data length offset →
    state.graph.visited offset = true
  front : ∀ offset, Route table data depth offset →
    state.graph.visited offset = true ∨ offset ∈ pending
  pendingRoute : ∀ offset ∈ pending, Route table data depth offset
  discoveredRoute : ∀ offset ∈ state.discovered, Route table data (depth + 1) offset
  followed : ∀ offset instruction, (offset, instruction) ∈ state.graph.instructions →
    ∀ target ∈ instruction.successors,
      state.graph.visited target = true ∨ target ∈ pending ∨ target ∈ state.discovered
  ordered : (state.graph.instructions.map Prod.fst).Pairwise (Nearer table data)
  failuresOrdered : (state.graph.failures.map Prod.fst).Pairwise (Nearer table data)

theorem Layered.initial : Layered table data 0 [0] {} where
  reached := by simp [Graph.visited, Graph.decoded, Graph.failed]
  covered := by
    intro length offset none
    exact (Nat.not_lt_zero length none).elim
  front := by
    intro offset route
    cases route
    exact Or.inr List.mem_cons_self
  pendingRoute := by
    intro offset member
    rw [List.mem_singleton.mp member]
    exact Route.entry
  discoveredRoute := by simp
  followed := by simp
  ordered := List.Pairwise.nil
  failuresOrdered := List.Pairwise.nil

theorem Layered.visited {depth : Nat} {offset : Int} {pending : List Int} {state : Exploration}
    (layered : Layered table data depth (offset :: pending) state) :
    (∀ other, (state.visit table data offset).graph.visited other = true →
      ∃ length ≤ depth, Route table data length other) ∧
    (∀ length other, length < depth → Route table data length other →
      (state.visit table data offset).graph.visited other = true) ∧
    (∀ other, Route table data depth other →
      (state.visit table data offset).graph.visited other = true ∨ other ∈ pending) := by
  simp only [visited_visit]
  refine ⟨?_, ?_, ?_⟩
  · rintro other (old | rfl)
    · exact layered.reached other old
    · exact ⟨depth, Nat.le_refl depth, layered.pendingRoute other List.mem_cons_self⟩
  · intro length other near route
    exact Or.inl (layered.covered length other near route)
  · intro other route
    rcases layered.front other route with old | waiting
    · exact Or.inl (Or.inl old)
    · rcases List.mem_cons.mp waiting with same | later
      · exact Or.inl (Or.inr same)
      · exact Or.inr later

/-- An offset that is visited for the first time is as far as the round is deep, and nothing
that was visited before is farther. -/
theorem Layered.nearer {depth : Nat} {offset : Int} {pending : List Int} {state : Exploration}
    (layered : Layered table data depth (offset :: pending) state)
    (fresh : ¬ state.graph.visited offset = true) (other : Int)
    (seen : state.graph.visited other = true) : Nearer table data other offset := by
  intro length route
  -- Any route to the offset is as long as the round is deep, or it had been visited.
  have deep : depth ≤ length := by
    by_cases near : length < depth
    · exact (fresh (layered.covered length offset near route)).elim
    · omega
  obtain ⟨shorter, within, known⟩ := layered.reached other seen
  exact ⟨shorter, Nat.le_trans within deep, known⟩

theorem Layered.visit_failuresOrdered {depth : Nat} {offset : Int} {pending : List Int}
    {state : Exploration} (layered : Layered table data depth (offset :: pending) state) :
    ((state.visit table data offset).graph.failures.map Prod.fst).Pairwise
      (Nearer table data) := by
  rcases visit_cases table data state offset with
    ⟨_, same⟩ | ⟨fresh, fault, _, same⟩ | ⟨_, instruction, _, same⟩
  · rw [same]
    exact layered.failuresOrdered
  · rw [same, Graph.addFailure, List.map_append]
    refine List.pairwise_append.mpr
      ⟨layered.failuresOrdered, List.pairwise_singleton _ _, ?_⟩
    intro earlier member later last
    rw [List.mem_singleton.mp last]
    exact layered.nearer fresh earlier (Graph.visited_of_mem_failures member)
  · rw [same]
    exact layered.failuresOrdered

theorem Layered.visit {depth : Nat} {offset : Int} {pending : List Int} {state : Exploration}
    (layered : Layered table data depth (offset :: pending) state) :
    Layered table data depth pending (state.visit table data offset) := by
  obtain ⟨reached, covered, front⟩ := layered.visited
  have failures := layered.visit_failuresOrdered
  have pendingRoute : ∀ other ∈ pending, Route table data depth other :=
    fun other member => layered.pendingRoute other (List.mem_cons_of_mem offset member)
  -- A target that was at hand before still is: only the visited offset left the round.
  have kept : ∀ target, (state.graph.visited target = true ∨ target ∈ offset :: pending ∨
      target ∈ state.discovered) →
      (state.visit table data offset).graph.visited target = true ∨ target ∈ pending ∨
        target ∈ state.discovered := by
    intro target known
    rw [visited_visit]
    rcases known with old | waiting | next
    · exact Or.inl (Or.inl old)
    · rcases List.mem_cons.mp waiting with same | later
      · exact Or.inl (Or.inr same)
      · exact Or.inr (Or.inl later)
    · exact Or.inr (Or.inr next)
  rcases visit_grows table data state offset with
    ⟨sameInstructions, sameDiscovered⟩ | ⟨fresh, instruction, result, added, extended⟩
  · refine ⟨reached, covered, front, pendingRoute, ?_, ?_, ?_, failures⟩
    · rw [sameDiscovered]
      exact layered.discoveredRoute
    · rw [sameInstructions, sameDiscovered]
      intro other found member target edge
      exact kept target (layered.followed other found member target edge)
    · rw [sameInstructions]
      exact layered.ordered
  · refine ⟨reached, covered, front, pendingRoute, ?_, ?_, ?_, failures⟩
    · rw [extended]
      intro other member
      rcases List.mem_append.mp member with old | new
      · exact layered.discoveredRoute other old
      · exact Route.follow (layered.pendingRoute offset List.mem_cons_self) result new
    · rw [added, extended]
      intro other found member target edge
      simp only [List.mem_append]
      rcases List.mem_append.mp member with old | new
      · rcases kept target (layered.followed other found old target edge) with
          seen | waiting | next
        · exact Or.inl seen
        · exact Or.inr (Or.inl waiting)
        · exact Or.inr (Or.inr (Or.inl next))
      · cases List.mem_singleton.mp new
        exact Or.inr (Or.inr (Or.inr edge))
    · rw [added, List.map_append]
      refine List.pairwise_append.mpr ⟨layered.ordered, List.pairwise_singleton _ _, ?_⟩
      intro earlier member later last
      rw [List.mem_singleton.mp last]
      exact layered.nearer fresh earlier (Graph.visited_of_mem_instructions member)

/-- A round that has nothing left to visit has visited all that is no deeper than it. -/
theorem Layered.visited_of_route {depth : Nat} {state : Exploration}
    (layered : Layered table data depth [] state) {length : Nat} {offset : Int}
    (within : length ≤ depth) (route : Route table data length offset) :
    state.graph.visited offset = true := by
  by_cases last : length = depth
  · subst last
    simpa using layered.front offset route
  · exact layered.covered length offset (by omega) route

/-- A round that has nothing left to visit hands over to the next, one edge deeper. -/
theorem Layered.turn {depth : Nat} {state : Exploration}
    (layered : Layered table data depth [] state) (recorded : Recorded table data state) :
    Layered table data (depth + 1) state.discovered { state with discovered := [] } where
  reached := by
    intro offset seen
    obtain ⟨length, within, route⟩ := layered.reached offset seen
    exact ⟨length, Nat.le_succ_of_le within, route⟩
  covered := by
    intro length offset near route
    exact layered.visited_of_route (Nat.le_of_lt_succ near) route
  front := by
    intro offset route
    cases route with
    | follow before decoded edge =>
        -- The last but one offset of the route was in this round, so its successors are known.
        have seen := layered.visited_of_route (Nat.le_refl depth) before
        simpa using layered.followed _ _ (recorded.holds seen decoded) offset edge
  pendingRoute := layered.discoveredRoute
  discoveredRoute := by simp
  followed := by
    intro offset instruction member target edge
    simpa using layered.followed offset instruction member target edge
  ordered := layered.ordered
  failuresOrdered := layered.failuresOrdered

def Underway (table : Table) (data : Bytes) (pending : List Int) (state : Exploration) : Prop :=
  Recorded table data state ∧ ∃ depth, Layered table data depth pending state

/-- Instructions are decoded at distinct offsets, and each has a second byte inside the
data. -/
theorem Underway.instructions_length {pending : List Int} {state : Exploration}
    (underway : Underway table data pending state) :
    state.graph.instructions.length ≤ data.length - 1 := by
  obtain ⟨recorded, depth, layered⟩ := underway
  have inside : state.graph.instructions.map Prod.fst ⊆
      (List.range (data.length - 1)).map Int.ofNat := by
    intro offset member
    obtain ⟨_, _, route⟩ := layered.reached offset (Graph.visited_of_mem_instructions member)
    obtain ⟨⟨_, instruction⟩, held, rfl⟩ := List.mem_map.mp member
    have start := route.nonneg
    have span := Instruction.decode_span (recorded.decoded _ _ held)
    refine List.mem_map.mpr ⟨Int.toNat _, List.mem_range.mpr ?_, Int.toNat_of_nonneg start⟩
    omega
  simpa using recorded.decodedOnce.length_le_of_subset inside

theorem Underway.sweep {pending : List Int} {state : Exploration}
    (underway : Underway table data pending state) :
    Underway table data [] (pending.foldl (visit table data) state) := by
  induction pending generalizing state with
  | nil => exact underway
  | cons offset pending ih =>
      obtain ⟨recorded, depth, layered⟩ := underway
      exact ih ⟨recorded.visit offset, depth, layered.visit⟩

/-- A sweep that finds nothing to go on with decodes nothing, and the other way round. -/
theorem sweep_progress (table : Table) (data : Bytes) (pending : List Int)
    (state : Exploration) (count : Nat) (least : count ≤ state.graph.instructions.length)
    (progress : state.discovered = [] ∨ count < state.graph.instructions.length) :
    (pending.foldl (visit table data) state).discovered = [] ∨
      count < (pending.foldl (visit table data) state).graph.instructions.length := by
  induction pending generalizing state with
  | nil => exact progress
  | cons offset pending ih =>
      rcases visit_grows table data state offset with
        ⟨sameInstructions, sameDiscovered⟩ | ⟨_, instruction, _, added, _⟩
      · exact ih _ (by rw [sameInstructions]; exact least)
          (by rw [sameInstructions, sameDiscovered]; exact progress)
      · have more : count < (state.visit table data offset).graph.instructions.length := by
          rw [added, List.length_append]
          exact Nat.lt_succ_of_le least
        exact ih _ (Nat.le_of_lt more) (Or.inr more)

theorem rounds_of_done (table : Table) (data : Bytes) (fuel : Nat) (state : Exploration)
    (done : state.discovered = []) : rounds table data fuel state = state := by
  cases fuel with
  | zero => rfl
  | succ fuel => simp [rounds, done]

theorem Underway.turn {state : Exploration} (underway : Underway table data [] state) :
    Underway table data state.discovered { state with discovered := [] } := by
  obtain ⟨recorded, depth, layered⟩ := underway
  exact ⟨⟨recorded.decoded, recorded.failed, recorded.decodedOnce, recorded.failedOnce,
    recorded.logged⟩, depth + 1, layered.turn recorded⟩

theorem rounds_end (fuel : Nat) (state : Exploration)
    (underway : Underway table data state.discovered { state with discovered := [] })
    (enough : data.length < state.graph.instructions.length + fuel) :
    Underway table data [] (rounds table data fuel state) ∧
      (rounds table data fuel state).discovered = [] := by
  induction fuel generalizing state with
  | zero =>
      -- Without fuel there would be more instructions than offsets for them.
      have bound := underway.instructions_length
      simp only [Nat.add_zero] at enough bound
      omega
  | succ fuel ih =>
      by_cases done : state.discovered = []
      · rw [rounds_of_done table data _ state done]
        rw [done] at underway
        have same : { state with discovered := [] } = state := by
          rw [← done]
        exact ⟨same ▸ underway, done⟩
      · have next : rounds table data (fuel + 1) state =
            rounds table data fuel (state.round table data) := by
          simp [rounds, done]
        have swept : Underway table data [] (state.round table data) := underway.sweep
        have progress : (state.round table data).discovered = [] ∨
            state.graph.instructions.length <
              (state.round table data).graph.instructions.length :=
          sweep_progress table data state.discovered _ _ (Nat.le_refl _) (Or.inl rfl)
        rw [next]
        -- A round that is not the last pays for its fuel with an instruction.
        rcases progress with ended | more
        · rw [rounds_of_done table data fuel _ ended]
          exact ⟨swept, ended⟩
        · exact ih _ swept.turn (by omega)

/-- The whole run: nothing is left to visit, and both invariants hold. -/
theorem run_ends (table : Table) (data : Bytes) :
    Underway table data [] (run table data) ∧ (run table data).discovered = [] := by
  refine rounds_end (data.length + 1) _ ⟨Recorded.initial, 0, Layered.initial⟩ ?_
  simp

theorem run_visited_iff (table : Table) (data : Bytes) (offset : Int) :
    (run table data).graph.visited offset = true ↔ Reachable table data offset := by
  obtain ⟨⟨recorded, depth, layered⟩, done⟩ := run_ends table data
  constructor
  · intro seen
    obtain ⟨_, _, route⟩ := layered.reached offset seen
    exact route.reachable
  · -- With an empty frontier, the visited offsets are closed under successors.
    intro reachable
    induction reachable with
    | entry => exact layered.visited_of_route (Nat.zero_le depth) Route.entry
    | @follow offset target instruction _ decoded edge ih =>
        rcases layered.followed offset instruction (recorded.holds ih decoded) target edge with
          seen | waiting | next
        · exact seen
        · cases waiting
        · rw [done] at next
          cases next

end Exploration

theorem explore_mem_instructions_iff (table : Table) (data : Bytes) (offset : Int)
    (instruction : Instruction) :
    (offset, instruction) ∈ (explore table data).1.instructions ↔
      Reachable table data offset ∧
        Instruction.decode table data offset = .ok instruction := by
  obtain ⟨⟨recorded, _⟩, _⟩ := Exploration.run_ends table data
  have reach := Exploration.run_visited_iff table data offset
  constructor
  · intro member
    have seen := Graph.visited_of_mem_instructions (List.mem_map_of_mem member)
    exact ⟨reach.mp seen, recorded.decoded offset instruction member⟩
  · rintro ⟨reachable, decoded⟩
    exact recorded.holds (reach.mpr reachable) decoded

theorem explore_mem_failures_iff (table : Table) (data : Bytes) (offset : Int)
    (fault : Fault) :
    (offset, fault) ∈ (explore table data).1.failures ↔
      Reachable table data offset ∧
        Instruction.decode table data offset = .error ⟨fault, offset⟩ := by
  obtain ⟨⟨recorded, _⟩, _⟩ := Exploration.run_ends table data
  have reach := Exploration.run_visited_iff table data offset
  constructor
  · intro member
    have seen := Graph.visited_of_mem_failures (List.mem_map_of_mem member)
    exact ⟨reach.mp seen, recorded.failed offset fault member⟩
  · rintro ⟨reachable, failed⟩
    rcases (Graph.visited_iff _ offset).mp (reach.mpr reachable) with
      ⟨instruction, member⟩ | ⟨known, member⟩
    · have same := (recorded.decoded offset instruction member).symm.trans failed
      cases same
    · have same := (recorded.failed offset known member).symm.trans failed
      cases same
      exact member

theorem explore_decoded_iff (table : Table) (data : Bytes) (offset : Int) :
    (explore table data).1.decoded offset = true ↔ Reachable table data offset ∧
      ∃ instruction, Instruction.decode table data offset = .ok instruction := by
  rw [Graph.decoded_iff]
  simp only [explore_mem_instructions_iff, exists_and_left]

theorem explore_failed_iff (table : Table) (data : Bytes) (offset : Int) :
    (explore table data).1.failed offset = true ↔ Reachable table data offset ∧
      ∃ error, Instruction.decode table data offset = .error error := by
  rw [Graph.failed_iff]
  simp only [explore_mem_failures_iff, exists_and_left]
  refine and_congr_right fun _ => ⟨?_, ?_⟩
  · rintro ⟨fault, failed⟩
    exact ⟨⟨fault, offset⟩, failed⟩
  · rintro ⟨⟨fault, place⟩, failed⟩
    have here : place = offset := Instruction.decode_error_offset failed
    exact ⟨fault, here ▸ failed⟩

theorem explore_warnings (table : Table) (data : Bytes) :
    (explore table data).2.filter (fun event => event.level = .warning) =
      (explore table data).1.failures.map fun entry => .undecodable entry.1 entry.2 := by
  obtain ⟨⟨recorded, _⟩, _⟩ := Exploration.run_ends table data
  simp only [explore, List.filter_append, recorded.logged]
  rw [List.filter_eq_self.mpr, List.filter_eq_nil_iff.mpr, List.append_nil]
  · intro event last
    rw [List.mem_singleton.mp last]
    simp [Event.level]
  · intro event member
    obtain ⟨entry, _, rfl⟩ := List.mem_map.mp member
    rfl

/-- A script falls apart into the reachable offsets that decode and those that do not, with
the instruction or the fault that decoding gives at each, the successors of the former as
its edges and one warning for each of the latter. -/
theorem explore_finds_reachable (table : Table) (data : Bytes) :
    let graph := (explore table data).1
    (graph.instructions.map Prod.fst).Nodup ∧ (graph.failures.map Prod.fst).Nodup ∧
    (∀ offset, graph.decoded offset = true ↔ Reachable table data offset ∧
      ∃ instruction, Instruction.decode table data offset = .ok instruction) ∧
    (∀ offset, graph.failed offset = true ↔ Reachable table data offset ∧
      ∃ error, Instruction.decode table data offset = .error error) ∧
    (∀ offset, ¬ (graph.decoded offset = true ∧ graph.failed offset = true)) ∧
    (∀ offset, graph.decoded offset = true ∨ graph.failed offset = true ↔
      Reachable table data offset) ∧
    (∀ offset instruction, (offset, instruction) ∈ graph.instructions →
      Instruction.decode table data offset = .ok instruction ∧ instruction.offset = offset) ∧
    (∀ offset fault, (offset, fault) ∈ graph.failures →
      Instruction.decode table data offset = .error ⟨fault, offset⟩) ∧
    graph.edges.map Prod.fst = graph.instructions.map Prod.fst ∧
    (∀ offset targets, (offset, targets) ∈ graph.edges ↔
      ∃ instruction, (offset, instruction) ∈ graph.instructions ∧
        targets = instruction.successors) ∧
    (explore table data).2.filter (fun event => event.level = .warning) =
      graph.failures.map fun entry => .undecodable entry.1 entry.2 := by
  intro graph
  obtain ⟨⟨recorded, _⟩, _⟩ := Exploration.run_ends table data
  have decodedIff := explore_decoded_iff table data
  have failedIff := explore_failed_iff table data
  refine ⟨recorded.decodedOnce, recorded.failedOnce, decodedIff, failedIff, ?_, ?_, ?_, ?_, ?_, ?_,
    explore_warnings table data⟩
  · rintro offset ⟨decoded, failed⟩
    obtain ⟨_, instruction, good⟩ := (decodedIff offset).mp decoded
    obtain ⟨_, error, bad⟩ := (failedIff offset).mp failed
    cases good.symm.trans bad
  · intro offset
    rw [← Exploration.run_visited_iff table data offset, Graph.visited, Bool.or_eq_true]
    rfl
  · intro offset instruction member
    have decoded := recorded.decoded offset instruction member
    exact ⟨decoded, Instruction.decode_offset decoded⟩
  · exact recorded.failed
  · simp [Graph.edges]
  · intro offset targets
    simp only [Graph.edges, List.mem_map]
    constructor
    · rintro ⟨⟨_, instruction⟩, member, same⟩
      cases same
      exact ⟨instruction, member, rfl⟩
    · rintro ⟨instruction, member, rfl⟩
      exact ⟨(offset, instruction), member, rfl⟩

end ScriptAudit
