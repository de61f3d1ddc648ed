import Mathlib.Data.Nat.Bits
import ScriptAudit.Proofs.Cheat.History

/-!
The effect of one frame. It follows from the cheats that the frame comes to start: their routines
are called in this order, a cheat without a routine is switched as often as it is among them, and
what the routines ask for waits afterwards. A frame in which no routine fails starts everything
that waits. Where one fails, what waits behind it is neither started nor kept.
-/
namespace ScriptAudit

namespace Move

def calls : Move → List Int
  | called index => [index]
  | _ => []

def switches : Move → List Int
  | switched index => [index]
  | _ => []

end Move

def calledIn (history : List Move) : List Int := history.flatMap Move.calls

def switchedIn (history : List Move) : List Int := history.flatMap Move.switches

@[simp] theorem takenIn_cons (move : Move) (rest : List Move) :
    takenIn (move :: rest) = move.taken ++ takenIn rest := List.flatMap_cons

@[simp] theorem takenIn_append (front back : List Move) :
    takenIn (front ++ back) = takenIn front ++ takenIn back := List.flatMap_append

def Conduct.requests (conduct : Conduct) : List Int := takenIn conduct.moves

namespace Engine

theorem move_calls (engine : Engine) (move : Move) :
    (engine.move move).calls = engine.calls ++ move.calls := by
  cases move with
  | asked index =>
      by_cases known : 0 ≤ index ∧ index < 111 <;> simp [Engine.move, Move.calls, known]
  | removed indices => simp [Engine.move, Move.calls]
  | called index => simp [Engine.move, Move.calls]
  | switched index => simp [Engine.move, Move.calls]

theorem moves_calls (engine : Engine) (history : List Move) :
    (engine.moves history).calls = engine.calls ++ calledIn history := by
  induction history generalizing engine with
  | nil => simp [moves, calledIn]
  | cons move rest ih =>
      rw [moves_cons, ih, move_calls, List.append_assoc]
      rfl

theorem move_isActive (engine : Engine) (move : Move) (index : Int) :
    (engine.move move).isActive index =
      (engine.isActive index ^^ (move.switches.count index).bodd) := by
  cases move with
  | asked other =>
      by_cases known : 0 ≤ other ∧ other < 111 <;>
        simp [Engine.move, Move.switches, isActive, known]
  | removed indices => simp [Engine.move, Move.switches, isActive]
  | called other => simp [Engine.move, Move.switches, isActive]
  | switched other =>
      by_cases same : other = index
      · subst same
        simp [Engine.move, Move.switches, isActive, Association.get?_put_self]
      · simp [Engine.move, Move.switches, isActive, same, Ne.symm same,
          Association.get?_put_of_ne]

theorem moves_isActive (engine : Engine) (history : List Move) (index : Int) :
    (engine.moves history).isActive index =
      (engine.isActive index ^^ ((switchedIn history).count index).bodd) := by
  induction history generalizing engine with
  | nil => simp [moves, switchedIn]
  | cons move rest ih =>
      rw [moves_cons, ih, move_isActive, Bool.xor_assoc, ← Nat.bodd_add, ← List.count_append]
      rfl

section Frames

variable (routines : List (Int × Routine))

def hasRoutine (index : Int) : Bool := (Association.get? index routines).isSome

def conducts (indices : List Int) (calls : Nat) : List Conduct :=
  (indices.filterMap fun index => Association.get? index routines).mapIdx
    fun earlier routine => routine (calls + earlier)

variable {routines}

@[simp] theorem conducts_nil (calls : Nat) : conducts routines [] calls = [] := rfl

theorem conducts_cons_none {index : Int} (absent : Association.get? index routines = none)
    (rest : List Int) (calls : Nat) :
    conducts routines (index :: rest) calls = conducts routines rest calls := by
  simp only [conducts, List.filterMap_cons, absent]

theorem conducts_cons_some {index : Int} {routine : Routine}
    (known : Association.get? index routines = some routine) (rest : List Int) (calls : Nat) :
    conducts routines (index :: rest) calls =
      routine calls :: conducts routines rest (calls + 1) := by
  simp only [conducts, List.filterMap_cons, known, List.mapIdx_cons, Nat.add_zero, Nat.add_assoc,
    Nat.add_comm 1]

variable (routines)

/-- A cheat is started in one of two ways, and which one it is depends on the cheat alone. -/
theorem flatMap_runMoves {part : Move → List Int} {keep : Int → Bool}
    (asking : ∀ index, part (.asked index) = [])
    (calling : ∀ index, hasRoutine routines index = true →
      part (.called index) = [index].filter keep)
    (switching : ∀ index, hasRoutine routines index = false →
      part (.switched index) = [index].filter keep)
    (indices : List Int) (calls : Nat) :
    (runMoves routines indices calls).1.flatMap part =
      (startedIn (runMoves routines indices calls).1).filter keep := by
  fun_induction runMoves routines indices calls with
  | case1 => rfl
  | case2 index rest calls absent ih =>
      have switched := switching index (by simp [hasRoutine, absent])
      rw [List.flatMap_cons, switched, ih, ← List.filter_append]
      rfl
  | case3 index rest calls routine known error fails =>
      have called := calling index (by simp [hasRoutine, known])
      rw [List.flatMap_cons, called, Conduct.flatMap_moves asking, startedIn_cons,
        Conduct.startedIn_moves, List.append_nil, List.append_nil]
      rfl
  | case4 index rest calls routine known returns ih =>
      have called := calling index (by simp [hasRoutine, known])
      rw [List.flatMap_cons, List.flatMap_append, called, Conduct.flatMap_moves asking, ih,
        startedIn_cons, startedIn_append, Conduct.startedIn_moves, ← List.append_assoc,
        List.append_nil, ← List.filter_append]
      rfl

theorem calledIn_runMoves (indices : List Int) (calls : Nat) :
    calledIn (runMoves routines indices calls).1 =
      (startedIn (runMoves routines indices calls).1).filter (hasRoutine routines) := by
  apply flatMap_runMoves
  · exact fun _ => rfl
  · intro index known
    simp [Move.calls, known]
  · intro index absent
    simp [Move.calls, absent]

theorem switchedIn_runMoves (indices : List Int) (calls : Nat) :
    switchedIn (runMoves routines indices calls).1 =
      (startedIn (runMoves routines indices calls).1).filter fun index =>
        !hasRoutine routines index := by
  apply flatMap_runMoves
  · exact fun _ => rfl
  · intro index known
    simp [Move.switches, known]
  · intro index absent
    simp [Move.switches, absent]

theorem takenIn_runMoves (indices : List Int) (calls : Nat) :
    takenIn (runMoves routines indices calls).1 =
      (conducts routines (startedIn (runMoves routines indices calls).1) calls).flatMap
        Conduct.requests := by
  fun_induction runMoves routines indices calls with
  | case1 => rfl
  | case2 index rest calls absent ih =>
      simp [Move.taken, Move.started, conducts_cons_none absent, ih]
  | case3 index rest calls routine known error fails =>
      simp [Move.taken, Move.started, conducts_cons_some known, Conduct.requests]
  | case4 index rest calls routine known returns ih =>
      simp [Move.taken, Move.started, conducts_cons_some known, ih, Conduct.requests]

theorem runMoves_returns_iff (indices : List Int) (calls : Nat) :
    (runMoves routines indices calls).2 = none ↔
      ∀ conduct ∈ conducts routines indices calls, conduct.failure? = none := by
  fun_induction runMoves routines indices calls with
  | case1 => simp [conducts]
  | case2 index rest calls absent ih => rw [conducts_cons_none absent, ih]
  | case3 index rest calls routine known error fails =>
      simp [conducts_cons_some known, fails]
  | case4 index rest calls routine known returns ih =>
      simp [conducts_cons_some known, returns, ih]

structure Leaves (before : Engine) (started : List Int) (after : Engine) : Prop where
  calls : after.calls = before.calls ++ started.filter (hasRoutine routines)
  active : ∀ index, after.isActive index = (before.isActive index ^^
    (!hasRoutine routines index && (started.count index).bodd))
  pending : after.pending =
    (conducts routines started before.calls.length).flatMap Conduct.requests

theorem bodd_count_switches (index : Int) (started : List Int) :
    ((started.filter fun index => !hasRoutine routines index).count index).bodd =
      (!hasRoutine routines index && (started.count index).bodd) := by
  cases known : hasRoutine routines index with
  | true =>
      have unswitched : index ∉ started.filter fun index => !hasRoutine routines index := by
        simp [known]
      rw [List.count_eq_zero.mpr unswitched]
      rfl
  | false =>
      rw [List.count_filter (by simp [known])]
      rfl

/-- What a frame leaves follows from the cheats that it comes to start, whether it fails or not. -/
theorem frame_leaves (engine : Engine) :
    Leaves routines engine
      (startedIn (runMoves routines engine.pending engine.calls.length).1)
      (engine.moves (orderMoves routines engine .frame)) := by
  constructor
  · rw [moves_calls, ← calledIn_runMoves]
    rfl
  · intro index
    rw [moves_isActive, ← bodd_count_switches, ← switchedIn_runMoves]
    rfl
  · -- The frame removes what waits once, so what is asked for later is all that is left.
    have none := removed_not_mem_runMoves routines engine.pending engine.calls.length
    have conserved := moves_conserve (faithful_of_none none (engine.move (.removed engine.pending)))
    rw [removedIn_of_none none] at conserved
    rw [← takenIn_runMoves]
    exact conserved.symm

theorem frame_returns {engine : Engine}
    (returns : ∀ conduct ∈ conducts routines engine.pending engine.calls.length,
      conduct.failure? = none) :
    ∃ after, frame routines engine = .ok engine.pending.length after ∧
      Leaves routines engine engine.pending after := by
  have ends := (runMoves_returns_iff routines engine.pending engine.calls.length).mpr returns
  have leaves := frame_leaves routines engine
  rw [(startedIn_runMoves routines engine.pending engine.calls.length).2 ends] at leaves
  refine ⟨_, ?_, leaves⟩
  rw [frame_eq, ends]
  rfl

structure Breaks (indices : List Int) (calls : Nat) (ran : List Int) (index : Int)
    (rest : List Int) (error : CheatError) : Prop where
  split : indices = ran ++ index :: rest
  returns : ∀ conduct ∈ conducts routines ran calls, conduct.failure? = none
  fails : ∃ routine, Association.get? index routines = some routine ∧
    (routine (calls + (conducts routines ran calls).length)).failure? = some error

variable {routines} {indices ran rest : List Int} {calls : Nat} {index : Int} {error : CheatError}

theorem Breaks.runMoves (breaks : Breaks routines indices calls ran index rest error) :
    startedIn (runMoves routines indices calls).1 = ran ++ [index] ∧
      (runMoves routines indices calls).2 = some error := by
  obtain ⟨rfl, returns, routine, known, fails⟩ := breaks
  -- Each routine that has run makes the calls behind it one call later.
  induction ran generalizing calls with
  | nil =>
      rw [conducts_nil, List.length_nil, Nat.add_zero] at fails
      simp [Engine.runMoves, known, fails, Move.started]
  | cons first ran ih =>
      cases present : Association.get? first routines with
      | none =>
          rw [conducts_cons_none present] at returns fails
          simp [Engine.runMoves, present, Move.started, ih returns fails]
      | some other =>
          rw [conducts_cons_some present] at returns fails
          obtain ⟨here, later⟩ := List.forall_mem_cons.mp returns
          rw [List.length_cons, Nat.add_comm _ 1, ← Nat.add_assoc] at fails
          simp [Engine.runMoves, present, here, Move.started, ih later fails]

theorem exists_breaks (failed : (runMoves routines indices calls).2 = some error) :
    ∃ ran index rest, Breaks routines indices calls ran index rest error := by
  fun_induction runMoves routines indices calls with
  | case1 => cases failed
  | case2 first indices calls absent ih =>
      obtain ⟨ran, index, rest, rfl, returns, fails⟩ := ih failed
      rw [← conducts_cons_none absent] at returns fails
      exact ⟨first :: ran, index, rest, rfl, returns, fails⟩
  | case3 first indices calls routine known other fails =>
      cases failed
      exact ⟨[], first, indices, rfl, by simp, routine, known, fails⟩
  | case4 first indices calls routine known returns ih =>
      obtain ⟨ran, index, rest, rfl, others, fails⟩ := ih failed
      rw [Nat.add_assoc, Nat.add_comm 1] at fails
      refine ⟨first :: ran, index, rest, rfl, ?_, ?_⟩
      · rw [conducts_cons_some known]
        exact List.forall_mem_cons.mpr ⟨returns, others⟩
      · rw [conducts_cons_some known]
        exact fails

theorem frame_breaks {engine : Engine}
    (breaks : Breaks routines engine.pending engine.calls.length ran index rest error) :
    ∃ after, frame routines engine = .error error after ∧
      Leaves routines engine (ran ++ [index]) after := by
  obtain ⟨started, failed⟩ := breaks.runMoves
  have leaves := frame_leaves routines engine
  rw [started] at leaves
  refine ⟨_, ?_, leaves⟩
  rw [frame_eq, failed]
  rfl

theorem frame_error_iff (routines : List (Int × Routine)) (engine : Engine) (error : CheatError) :
    (∃ after, frame routines engine = .error error after) ↔
      ∃ ran index rest,
        Breaks routines engine.pending engine.calls.length ran index rest error := by
  constructor
  · rintro ⟨after, failed⟩
    apply exists_breaks
    rw [frame_eq] at failed
    cases ends : (runMoves routines engine.pending engine.calls.length).2 with
    | none =>
        rw [ends] at failed
        cases failed
    | some other =>
        rw [ends] at failed
        cases failed
        rfl
  · rintro ⟨ran, index, rest, breaks⟩
    obtain ⟨after, failed, _⟩ := frame_breaks breaks
    exact ⟨after, failed⟩

end Frames

/-- A frame in which no routine fails runs everything that waits: it tells how much that was,
calls the routines of the cheats that have one, once for each time that the cheat waits and in
this order, turns the flag of a cheat without a routine if it waits an odd number of times, changes
no other flag, and leaves what the routines asked for, in the order of their calls. The flags do
not depend on the order of the queue. -/
theorem frame_runs_queue (routines : List (Int × Routine)) (engine : Engine)
    (returns : ∀ conduct ∈ conducts routines engine.pending engine.calls.length,
      conduct.failure? = none) :
    ∃ after, frame routines engine = .ok engine.pending.length after ∧
      after.calls = engine.calls ++ engine.pending.filter (hasRoutine routines) ∧
      (∀ index, hasRoutine routines index = true ∨ index ∉ engine.pending →
        after.isActive index = engine.isActive index) ∧
      (∀ index ∈ engine.pending, hasRoutine routines index = false →
        after.isActive index =
          (engine.isActive index ^^ (engine.pending.count index).bodd)) ∧
      after.pending =
        (conducts routines engine.pending engine.calls.length).flatMap Conduct.requests ∧
      ∀ order : List Int, order.Perm engine.pending →
        (∀ conduct ∈ conducts routines order engine.calls.length, conduct.failure? = none) →
        ∃ other, frame routines { engine with pending := order } = .ok order.length other ∧
          ∀ index, other.isActive index = after.isActive index := by
  obtain ⟨after, ran, leaves⟩ := frame_returns routines returns
  refine ⟨after, ran, leaves.calls, ?_, ?_, leaves.pending, ?_⟩
  · rintro index (known | absent)
    · simp [leaves.active, known]
    · simp [leaves.active, List.count_eq_zero.mpr absent]
  · intro index _ switch
    simp [leaves.active, switch]
  · -- The flags follow from how often each cheat waits, which is the same in any order.
    intro order same others
    obtain ⟨other, reran, left⟩ := @frame_returns routines { engine with pending := order } others
    refine ⟨other, reran, ?_⟩
    intro index
    rw [left.active, leaves.active, same.count_eq]
    rfl

def tankRoutines : List (Int × Routine) := [(24, fun calls => .ofRequests none [5, calls])]

/-- Four cheats wait, two of them twice. One of the two flags belongs to a cheat with a routine. -/
def busyEngine : Engine where
  pending := [13, 24, 69, 13, 24, 7]
  active := [(24, true), (69, true)]

theorem busyEngine_runs :
    (∀ conduct ∈ conducts tankRoutines busyEngine.pending 0, conduct.failure? = none) ∧
      ∃ after, frame tankRoutines busyEngine = .ok 6 after ∧ after.calls = [24, 24] ∧
        after.isActive 24 = true ∧ after.isActive 13 = false ∧ after.isActive 69 = false ∧
        after.isActive 7 = true ∧ after.pending = [5, 0, 5, 1] := by
  have returns : ∀ conduct ∈ conducts tankRoutines busyEngine.pending 0,
      conduct.failure? = none := by
    change ∀ conduct ∈ [Conduct.ofRequests none [5, 0], Conduct.ofRequests none [5, 1]], _
    exact List.forall_mem_cons.mpr ⟨rfl, List.forall_mem_singleton.mpr rfl⟩
  obtain ⟨after, ran, calls, kept, switched, pending, _⟩ :=
    frame_runs_queue tankRoutines busyEngine returns
  refine ⟨returns, after, ran, calls, ?_, ?_, ?_, ?_, pending⟩
  · exact kept 24 (Or.inl rfl)
  · exact switched 13 (by decide) rfl
  · exact switched 69 (by decide) rfl
  · exact switched 7 (by decide) rfl

/-- A frame fails exactly where a routine does, and it has run what waits up to there: the rest is
not started. It is not kept either. What waits afterwards are the requests of the routines that
ran, so the rest is in front of these only if there is none. -/
theorem failed_frame_keeps_iff (routines : List (Int × Routine)) (engine : Engine)
    (error : CheatError) :
    ((∃ after, frame routines engine = .error error after) ↔
      ∃ ran index rest,
        Breaks routines engine.pending engine.calls.length ran index rest error) ∧
    ∀ ran index rest, Breaks routines engine.pending engine.calls.length ran index rest error →
      ∃ after, frame routines engine = .error error after ∧
        Leaves routines engine (ran ++ [index]) after ∧
        (after.pending = rest ++
            (conducts routines (ran ++ [index]) engine.calls.length).flatMap Conduct.requests ↔
          rest = []) := by
  refine ⟨frame_error_iff routines engine error, ?_⟩
  intro ran index rest breaks
  obtain ⟨after, failed, leaves⟩ := frame_breaks breaks
  refine ⟨after, failed, leaves, ?_⟩
  rw [leaves.pending]
  exact List.self_eq_append_left

def stuckRoutines : List (Int × Routine) := [(24, fun _ => .ofRequests (some "no model") [5])]

theorem stuckRoutines_lose :
    Breaks stuckRoutines [13, 24, 69, 13] 0 [13] 24 [69, 13] (.raised "no model") ∧
      ∃ after, frame stuckRoutines { pending := [13, 24, 69, 13] } =
          .error (.raised "no model") after ∧
        after.pending = [5] ∧ ¬ [69, 13] <+: after.pending := by
  have breaks : Breaks stuckRoutines [13, 24, 69, 13] 0 [13] 24 [69, 13] (.raised "no model") :=
    ⟨rfl, List.forall_mem_nil _, _, rfl, rfl⟩
  obtain ⟨after, failed, leaves⟩ := @frame_breaks _ _ _ _ _ { pending := [13, 24, 69, 13] } breaks
  have pending : after.pending = [5] := leaves.pending
  exact ⟨breaks, after, failed, pending, by rw [pending]; decide⟩

end Engine

end ScriptAudit
