import ScriptAudit.Association
import ScriptAudit.Cheat.Catalogue

/-! Deferred cheats. Requests wait in a queue that is emptied once per frame, since a cheat
must run only where the game allows it. A cheat with a routine calls it; any other cheat
is a switch. A routine may queue cheats, which wait for the next frame, and may fail,
and then the rest of the frame is lost. -/
namespace ScriptAudit

inductive CheatError where
  | noCheat (index : Int)
  | raised (text : Text)
deriving DecidableEq

def CheatError.message : CheatError → Text
  | noCheat index => "no cheat with index " ++ toString index
  | raised text => text

/-- What a routine does when it is called. It queues cheats one after the other and learns of
each why it was refused, if it was; in the end it returns or fails. -/
inductive Conduct where
  | returns
  | fails (error : CheatError)
  | queues (index : Int) (next : Option CheatError → Conduct)

/-- Queues cheats in order up to the first that is refused, which is a failure; one at the end
may follow. -/
def Conduct.ofRequests (failure : Option Text) : List Int → Conduct
  | [] =>
    match failure with
    | some text => fails (.raised text)
    | none => returns
  | index :: rest => queues index fun
    | some error => fails error
    | none => ofRequests failure rest

/-- A routine may act differently each time. It is told how many calls there were before. -/
abbrev Routine := Nat → Conduct

structure Engine where
  pending : List Int := []
  active : List (Int × Bool) := []
  calls : List Int := []

namespace Engine

/-- Steps keep what they have changed when they fail. -/
abbrev Step := EStateM CheatError Engine

def isActive (engine : Engine) (index : Int) : Bool :=
  (Association.get? index engine.active).getD false

def setActive (index : Int) (value : Bool) : Step Unit :=
  modify fun engine => { engine with active := Association.put index value engine.active }

def isCheat (index : Int) : Bool := 0 ≤ index && index < Cheat.all.length

def queue (index : Int) : Step Unit :=
  if isCheat index then
    modify fun engine => { engine with pending := engine.pending ++ [index] }
  else throw (.noCheat index)

/-- Tells how a step fails instead of failing. -/
def attempt (step : Step Unit) : Step (Option CheatError) := fun engine =>
  match step engine with
  | .ok _ after => .ok none after
  | .error error after => .ok (some error) after

def drain : Step (List Int) :=
  modifyGet fun engine => (engine.pending, { engine with pending := [] })

def act : Conduct → Step Unit
  | .returns => return ()
  | .fails error => throw error
  | .queues index next => do
    let refusal ← attempt (queue index)
    act (next refusal)

def call (index : Int) (routine : Routine) : Step Unit := do
  let before := (← get).calls.length
  modify fun engine => { engine with calls := engine.calls ++ [index] }
  act (routine before)

variable (routines : List (Int × Routine))

def run (index : Int) : Step Unit := do
  match Association.get? index routines with
  | some routine => call index routine
  | none => setActive index (!(← get).isActive index)

def runAll : List Int → Step Unit
  | [] => return ()
  | index :: rest => do
    run routines index
    runAll rest

/-- One frame: everything that waits is taken off the queue, then run. -/
def frame : Step Nat := do
  let waiting ← drain
  runAll routines waiting
  return waiting.length

end Engine
end ScriptAudit
