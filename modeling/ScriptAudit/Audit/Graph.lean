import ScriptAudit.Event
import ScriptAudit.Script.Instruction

/-! Disassembly by reachability. Exploration goes in rounds from offset zero: a round decodes
the offsets of a frontier and collects the successors of each new instruction into the
next frontier. An offset that was decoded before, or that failed before, is skipped, so
loops end; an offset that cannot be decoded is recorded and dropped. -/
namespace ScriptAudit

/-- Entries by ascending offset. -/
def byOffset {α : Type} (entries : List (Int × α)) : List (Int × α) :=
  entries.mergeSort fun a b => a.1 ≤ b.1

/-- Instructions and failures by offset, in the order of their discovery. -/
structure Graph where
  instructions : List (Int × Instruction) := []
  failures : List (Int × Fault) := []

namespace Graph

def decoded (graph : Graph) (offset : Int) : Bool :=
  graph.instructions.any fun entry => entry.1 = offset

def failed (graph : Graph) (offset : Int) : Bool :=
  graph.failures.any fun entry => entry.1 = offset

def visited (graph : Graph) (offset : Int) : Bool := graph.decoded offset || graph.failed offset

def edges (graph : Graph) : List (Int × List Int) :=
  graph.instructions.map fun entry => (entry.1, entry.2.successors)

def successors (graph : Graph) (offset : Int) : List Int :=
  ((graph.edges.find? fun edge => edge.1 = offset).map (·.2)).getD []

def blockOrder (graph : Graph) : List (Int × Instruction) := byOffset graph.instructions

def addInstruction (graph : Graph) (offset : Int) (instruction : Instruction) : Graph :=
  { graph with instructions := graph.instructions ++ [(offset, instruction)] }

def addFailure (graph : Graph) (offset : Int) (fault : Fault) : Graph :=
  { graph with failures := graph.failures ++ [(offset, fault)] }

end Graph

/-- An exploration under way: the graph so far, what was logged, and the next frontier. -/
structure Exploration where
  graph : Graph := {}
  events : List Event := []
  discovered : List Int := []

namespace Exploration

variable (table : Table) (data : Bytes)

def visit (state : Exploration) (offset : Int) : Exploration :=
  if state.graph.visited offset then state
  else
    match Instruction.decode table data offset with
    | .error error =>
      { state with
        graph := state.graph.addFailure offset error.fault
        events := state.events ++ [.undecodable offset error.fault] }
    | .ok instruction =>
      { state with
        graph := state.graph.addInstruction offset instruction
        discovered := state.discovered ++ instruction.successors }

def round (state : Exploration) : Exploration :=
  state.discovered.foldl (visit table data) { state with discovered := [] }

/-- Rounds until the frontier is empty. -/
def rounds : Nat → Exploration → Exploration
  | 0, state => state
  | fuel + 1, state =>
    if state.discovered.isEmpty then state else rounds fuel (state.round table data)

/-- A round after the first follows a round that decoded something, and every instruction
takes two bytes at an offset of its own, so there are at most as many rounds as bytes, or one. -/
def run : Exploration := rounds table data (data.length + 1) { discovered := [0] }

end Exploration

/-- The reachable graph of a script, with the events of its exploration. -/
def explore (table : Table) (data : Bytes) : Graph × List Event :=
  let state := Exploration.run table data
  (state.graph, state.events ++
    [.disassembled state.graph.instructions.length state.graph.failures.length])

end ScriptAudit
