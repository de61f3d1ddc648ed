import ScriptAudit.Cheat.Engine

/-!
The history of the cheat queue. What an engine does is a sequence of moves: a cheat is asked
for, from outside or by a routine that runs; everything that waits is removed; a cheat is
started. At every point of it the requests that were taken so far are, in their order, those
which were removed and then those which still wait. A frame removes once, at its beginning, and
starts only what it has removed, so what its routines ask for waits for the next removal.
-/
namespace ScriptAudit

inductive Move where
  | asked (index : Int)
  | removed (indices : List Int)
  | called (index : Int)
  | switched (index : Int)

namespace Move

def taken : Move → List Int
  | asked index => if 0 ≤ index ∧ index < 111 then [index] else []
  | _ => []

def withdrawn : Move → List Int
  | removed indices => indices
  | _ => []

def started : Move → List Int
  | called index => [index]
  | switched index => [index]
  | _ => []

end Move

def takenIn (history : List Move) : List Int := history.flatMap Move.taken

def removedIn (history : List Move) : List Int := history.flatMap Move.withdrawn

def startedIn (history : List Move) : List Int := history.flatMap Move.started

theorem removedIn_of_none {history : List Move} (none : ∀ indices, .removed indices ∉ history) :
    removedIn history = [] := by
  apply List.flatMap_eq_nil_iff.mpr
  intro move member
  cases move with
  | removed indices => exact (none indices member).elim
  | _ => rfl

@[simp] theorem startedIn_cons (move : Move) (rest : List Move) :
    startedIn (move :: rest) = move.started ++ startedIn rest := List.flatMap_cons

@[simp] theorem startedIn_append (front back : List Move) :
    startedIn (front ++ back) = startedIn front ++ startedIn back := List.flatMap_append

namespace Conduct

def refusal (index : Int) : Option CheatError :=
  if 0 ≤ index ∧ index < 111 then none else some (.noCheat index)

def moves : Conduct → List Move
  | returns => []
  | fails _ => []
  | queues index next => .asked index :: (next (refusal index)).moves

def failure? : Conduct → Option CheatError
  | returns => none
  | fails error => some error
  | queues index next => (next (refusal index)).failure?

theorem moves_asked (conduct : Conduct) : ∀ move ∈ conduct.moves, ∃ index, move = .asked index := by
  induction conduct with
  | returns => simp [moves]
  | fails error => simp [moves]
  | queues index next ih =>
      intro move member
      rcases List.mem_cons.mp member with here | later
      · exact ⟨index, here⟩
      · exact ih _ move later

/-- A routine only asks, so there is nothing else to be found in what it does. -/
theorem flatMap_moves {part : Move → List Int} (asking : ∀ index, part (.asked index) = [])
    (conduct : Conduct) : conduct.moves.flatMap part = [] := by
  apply List.flatMap_eq_nil_iff.mpr
  intro move member
  obtain ⟨index, rfl⟩ := conduct.moves_asked move member
  exact asking index

/-- A routine starts no cheat itself. -/
@[simp] theorem startedIn_moves (conduct : Conduct) : startedIn conduct.moves = [] :=
  flatMap_moves (fun _ => rfl) conduct

end Conduct

namespace Engine

def move (engine : Engine) : Move → Engine
  | .asked index =>
    if 0 ≤ index ∧ index < 111 then { engine with pending := engine.pending ++ [index] }
    else engine
  | .removed _ => { engine with pending := [] }
  | .called index => { engine with calls := engine.calls ++ [index] }
  | .switched index =>
    { engine with active := Association.put index (!engine.isActive index) engine.active }

def moves (engine : Engine) (history : List Move) : Engine := history.foldl move engine

def afterStep {α : Type} (step : Step α) (engine : Engine) : Engine :=
  match step engine with
  | .ok _ after => after
  | .error _ after => after

def ending {α : Type} (failure : Option CheatError) (value : α) (engine : Engine) :
    EStateM.Result CheatError Engine α :=
  match failure with
  | none => .ok value engine
  | some error => .error error engine

def drained (engine : Engine) : List Int :=
  match drain engine with
  | .ok indices _ => indices
  | .error _ _ => []

inductive Order where
  | queue (index : Int)
  | drain
  | frame

section Orders

variable (routines : List (Int × Routine))

/-- Cheats that are run one after the other, behind so many calls: what happens, and the failure
that ends it. -/
def runMoves : List Int → Nat → List Move × Option CheatError
  | [], _ => ([], none)
  | index :: rest, calls =>
    match Association.get? index routines with
    | none => (.switched index :: (runMoves rest calls).1, (runMoves rest calls).2)
    | some routine =>
      match (routine calls).failure? with
      | some error => (.called index :: (routine calls).moves, some error)
      | none =>
        (.called index :: ((routine calls).moves ++ (runMoves rest (calls + 1)).1),
          (runMoves rest (calls + 1)).2)

def obey : Order → Step Unit
  | .queue index => queue index
  | .drain => do
    let _ ← drain
  | .frame => do
    let _ ← frame routines

/-- Orders one after the other; one that fails does not stop the next. -/
def obeyAll (engine : Engine) (orders : List Order) : Engine :=
  orders.foldl (fun engine order => afterStep (obey routines order) engine) engine

def orderMoves (engine : Engine) : Order → List Move
  | .queue index => [.asked index]
  | .drain => [.removed engine.drained]
  | .frame =>
    .removed engine.drained :: (runMoves routines engine.drained engine.calls.length).1

def history : Engine → List Order → List Move
  | _, [] => []
  | engine, order :: rest =>
    engine.orderMoves routines order ++
      history (afterStep (obey routines order) engine) rest

end Orders

/-! Each step does what its moves say. -/

theorem moves_cons (engine : Engine) (move : Move) (rest : List Move) :
    engine.moves (move :: rest) = (engine.move move).moves rest := rfl

theorem moves_append (engine : Engine) (front back : List Move) :
    engine.moves (front ++ back) = (engine.moves front).moves back :=
  List.foldl_append

theorem isCheat_iff (index : Int) : isCheat index = true ↔ 0 ≤ index ∧ index < 111 := by
  have count : Cheat.all.length = 111 := by rfl
  simp [isCheat, count]

theorem queue_eq (index : Int) (engine : Engine) :
    queue index engine = ending (Conduct.refusal index) () (engine.move (.asked index)) := by
  by_cases known : 0 ≤ index ∧ index < 111
  · have cheat := (isCheat_iff index).mpr known
    simp only [queue, cheat, ↓reduceIte, Conduct.refusal, known, move, and_self]
    rfl
  · have noCheat : isCheat index = false :=
      eq_false_of_ne_true fun cheat => known ((isCheat_iff index).mp cheat)
    simp only [queue, noCheat, Bool.false_eq_true, ↓reduceIte, Conduct.refusal, known, move]
    rfl

theorem attempt_queue (index : Int) (engine : Engine) :
    attempt (queue index) engine = .ok (Conduct.refusal index) (engine.move (.asked index)) := by
  unfold attempt
  rw [queue_eq]
  cases Conduct.refusal index <;> rfl

theorem act_eq (conduct : Conduct) (engine : Engine) :
    act conduct engine = ending conduct.failure? () (engine.moves conduct.moves) := by
  induction conduct generalizing engine with
  | returns => rfl
  | fails error => rfl
  | queues index next ih =>
      change EStateM.bind (attempt (queue index)) (fun refusal => act (next refusal)) engine = _
      simp only [EStateM.bind, attempt_queue]
      exact ih (Conduct.refusal index) (engine.move (.asked index))

theorem call_eq (index : Int) (routine : Routine) (engine : Engine) :
    call index routine engine = ending (routine engine.calls.length).failure? ()
      ((engine.move (.called index)).moves (routine engine.calls.length).moves) :=
  act_eq (routine engine.calls.length) (engine.move (.called index))

theorem moves_conduct_calls (engine : Engine) (conduct : Conduct) :
    (engine.moves conduct.moves).calls = engine.calls := by
  induction conduct generalizing engine with
  | returns => rfl
  | fails error => rfl
  | queues index next ih =>
      have asked : (engine.move (.asked index)).calls = engine.calls := by
        by_cases known : 0 ≤ index ∧ index < 111 <;> simp [move, known]
      exact (ih (Conduct.refusal index) _).trans asked

variable (routines : List (Int × Routine))

theorem runAll_eq (indices : List Int) (engine : Engine) :
    runAll routines indices engine =
      ending (runMoves routines indices engine.calls.length).2 ()
        (engine.moves (runMoves routines indices engine.calls.length).1) := by
  induction indices generalizing engine with
  | nil => rfl
  | cons index rest ih =>
      change EStateM.bind (run routines index) (fun _ => runAll routines rest) engine = _
      simp only [EStateM.bind, run, runMoves]
      cases Association.get? index routines with
      | none => exact ih (engine.move (.switched index))
      | some routine =>
          have calls : ((engine.move (.called index)).moves
              (routine engine.calls.length).moves).calls.length = engine.calls.length + 1 := by
            simp [moves_conduct_calls, move]
          simp only [call_eq]
          cases (routine engine.calls.length).failure? with
          | some error => rfl
          | none => simp only [ending, ih, calls, moves_cons, moves_append]

theorem frame_eq (engine : Engine) :
    frame routines engine =
      ending (runMoves routines engine.pending engine.calls.length).2 engine.pending.length
        (engine.moves (orderMoves routines engine .frame)) := by
  have calls : (engine.move (.removed engine.pending)).calls = engine.calls := rfl
  change EStateM.bind (runAll routines engine.pending)
    (fun _ => (pure engine.pending.length : Step Nat)) (engine.move (.removed engine.pending)) = _
  simp only [EStateM.bind, runAll_eq, calls]
  cases (runMoves routines engine.pending engine.calls.length).2 <;> rfl

theorem afterStep_obey (order : Order) (engine : Engine) :
    afterStep (obey routines order) engine = engine.moves (orderMoves routines engine order) := by
  cases order with
  | queue index =>
      simp only [afterStep, obey, queue_eq]
      cases Conduct.refusal index <;> rfl
  | drain => rfl
  | frame =>
      change afterStep (EStateM.bind (frame routines) fun _ => pure ()) engine = _
      simp only [afterStep, EStateM.bind, frame_eq]
      cases (runMoves routines engine.pending engine.calls.length).2 <;> rfl

theorem obeyAll_eq (engine : Engine) (orders : List Order) :
    obeyAll routines engine orders = engine.moves (history routines engine orders) := by
  induction orders generalizing engine with
  | nil => rfl
  | cons order rest ih =>
      rw [history, moves_append, ← afterStep_obey]
      exact ih (afterStep (obey routines order) engine)

/-! Requests are conserved move by move. -/

def Faithful : Engine → List Move → Prop
  | _, [] => True
  | engine, move :: rest =>
    (∀ indices, move = .removed indices → indices = engine.pending) ∧
      Faithful (engine.move move) rest

theorem faithful_append (engine : Engine) (front back : List Move) :
    Faithful engine (front ++ back) ↔
      Faithful engine front ∧ Faithful (engine.moves front) back := by
  induction front generalizing engine with
  | nil => simp [Faithful, moves]
  | cons move rest ih => simp only [List.cons_append, Faithful, ih, and_assoc, moves_cons]

theorem faithful_of_none {later : List Move} (none : ∀ indices, .removed indices ∉ later)
    (engine : Engine) : Faithful engine later := by
  induction later generalizing engine with
  | nil => trivial
  | cons move rest ih =>
      simp only [List.mem_cons, not_or] at none
      refine ⟨?_, ih (fun indices => (none indices).2) _⟩
      intro indices removal
      exact ((none indices).1 removal.symm).elim

/-- One move neither loses, doubles nor reorders a request. -/
theorem move_conserves {engine : Engine} {move : Move}
    (faithful : ∀ indices, move = .removed indices → indices = engine.pending) :
    engine.pending ++ move.taken = move.withdrawn ++ (engine.move move).pending := by
  cases move with
  | asked index =>
      by_cases known : 0 ≤ index ∧ index < 111 <;>
        simp [Move.taken, Move.withdrawn, Engine.move, known]
  | removed indices => simp [Move.taken, Move.withdrawn, Engine.move, faithful indices rfl]
  | called index => simp [Move.taken, Move.withdrawn, Engine.move]
  | switched index => simp [Move.taken, Move.withdrawn, Engine.move]

theorem moves_conserve {engine : Engine} {history : List Move}
    (faithful : Faithful engine history) :
    engine.pending ++ takenIn history = removedIn history ++ (engine.moves history).pending := by
  induction history generalizing engine with
  | nil => simp [takenIn, removedIn, moves]
  | cons move rest ih =>
      calc engine.pending ++ takenIn (move :: rest)
          = (engine.pending ++ move.taken) ++ takenIn rest := by
            simp only [takenIn, List.flatMap_cons, List.append_assoc]
        _ = move.withdrawn ++ ((engine.move move).pending ++ takenIn rest) := by
            rw [move_conserves faithful.1, List.append_assoc]
        _ = removedIn (move :: rest) ++ (engine.moves (move :: rest)).pending := by
            rw [ih faithful.2, moves_cons]
            simp only [removedIn, List.flatMap_cons, List.append_assoc]

theorem removed_not_mem_runMoves (indices : List Int) (calls : Nat) (removal : List Int) :
    .removed removal ∉ (runMoves routines indices calls).1 := by
  have asks : ∀ conduct : Conduct, .removed removal ∉ conduct.moves := by
    intro conduct member
    obtain ⟨index, other⟩ := conduct.moves_asked _ member
    cases other
  fun_induction runMoves routines indices calls with
  | case1 => simp
  | case2 index rest calls absent ih => simpa using ih
  | case3 index rest calls routine known error fails => simpa using asks (routine calls)
  | case4 index rest calls routine known returns ih => simpa using ⟨asks (routine calls), ih⟩

/-- Cheats are started in their order, and all of them unless one fails. -/
theorem startedIn_runMoves (indices : List Int) (calls : Nat) :
    startedIn (runMoves routines indices calls).1 <+: indices ∧
      ((runMoves routines indices calls).2 = none →
        startedIn (runMoves routines indices calls).1 = indices) := by
  fun_induction runMoves routines indices calls with
  | case1 => simp [startedIn]
  | case2 index rest calls absent ih => simpa [Move.started] using ih
  | case3 index rest calls routine known error fails => simp [Move.started]
  | case4 index rest calls routine known returns ih => simpa [Move.started] using ih

theorem orderMoves_faithful (engine : Engine) (order : Order) :
    Faithful engine (orderMoves routines engine order) := by
  have removal : ∀ indices, Move.removed engine.drained = .removed indices →
      indices = engine.pending := fun _ same => (Move.removed.inj same).symm
  cases order with
  | queue index => exact ⟨fun _ other => (nomatch other), trivial⟩
  | drain => exact ⟨removal, trivial⟩
  | frame => exact ⟨removal, faithful_of_none (removed_not_mem_runMoves routines _ _) _⟩

theorem history_faithful (engine : Engine) (orders : List Order) :
    Faithful engine (history routines engine orders) := by
  induction orders generalizing engine with
  | nil => trivial
  | cons order rest ih =>
      rw [history, faithful_append, ← afterStep_obey]
      exact ⟨orderMoves_faithful routines engine order, ih _⟩

/-- Whatever is asked of an engine and whatever its routines do, what happens is the history of
these orders, and at each point of it the requests taken so far are those which were removed
and behind them those which wait. A request for what is no cheat fails and changes nothing. A
frame removes what waits when it begins and nothing later, starts cheats from this list in its
order, all of them unless one fails, and leaves waiting what their routines asked for. -/
theorem history_conserves_requests (routines : List (Int × Routine)) (start : Engine)
    (orders : List Order) :
    obeyAll routines start orders = start.moves (history routines start orders) ∧
      (∀ front, front <+: history routines start orders →
        start.pending ++ takenIn front = removedIn front ++ (start.moves front).pending) ∧
      (∀ index engine, ¬ (0 ≤ index ∧ index < 111) →
        queue index engine = .error (.noCheat index) engine) ∧
      ∀ engine, ∃ later, orderMoves routines engine .frame = .removed engine.pending :: later ∧
        (∀ indices, .removed indices ∉ later) ∧
        startedIn later <+: engine.pending ∧
        (∀ count after, frame routines engine = .ok count after →
          startedIn later = engine.pending) ∧
        (afterStep (obey routines .frame) engine).pending = takenIn later := by
  refine ⟨obeyAll_eq routines start orders, ?_, ?_, ?_⟩
  · rintro front ⟨back, whole⟩
    have faithful := history_faithful routines start orders
    rw [← whole, faithful_append] at faithful
    exact moves_conserve faithful.1
  · intro index engine unknown
    simp only [queue_eq, Conduct.refusal, unknown, move, ↓reduceIte]
    rfl
  · intro engine
    have none := removed_not_mem_runMoves routines engine.pending engine.calls.length
    have started := startedIn_runMoves routines engine.pending engine.calls.length
    refine ⟨(runMoves routines engine.pending engine.calls.length).1, rfl, none, started.1, ?_, ?_⟩
    · intro count after ran
      apply started.2
      rw [frame_eq] at ran
      cases ends : (runMoves routines engine.pending engine.calls.length).2 with
      | none => rfl
      | some error =>
          rw [ends] at ran
          cases ran
    · -- Behind the removal nothing waits, and nothing is removed any more.
      have faithful := faithful_of_none none (engine.move (.removed engine.pending))
      have conserved := moves_conserve faithful
      rw [removedIn_of_none none] at conserved
      rw [afterStep_obey]
      exact conserved.symm

end Engine

end ScriptAudit
