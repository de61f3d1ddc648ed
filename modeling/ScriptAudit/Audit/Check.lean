import ScriptAudit.Audit.Graph

/-! The compatibility check. The first flagged instruction in the order of discovery decides;
a script without any, also one of which nothing decodes, has nothing against it. -/
namespace ScriptAudit

/-- What is handed in to be checked. -/
inductive Body where
  | bytes (data : Bytes)
  | other (value : Json)

namespace Graph

def firstIssue? (graph : Graph) : Option (Instruction × Issue) :=
  graph.instructions.findSome? fun entry =>
    (Issue.ofOpcode? entry.2.opcode).map fun issue => (entry.2, issue)

def classify (graph : Graph) : Option Issue × List Event :=
  match graph.firstIssue? with
  | some (instruction, issue) =>
    (some issue, [.flagged instruction.opcode instruction.offset issue])
  | none => (none, [])

end Graph

/-- Explores the script and classifies what is reachable. -/
def checkBytes (table : Table) (data : Bytes) : Option Issue × List Event :=
  let (graph, explored) := explore table data
  let (issue, flagged) := graph.classify
  (issue, explored ++ .checked :: flagged)

def checkStrict (table : Table) : Body → Except CheckError (Option Issue × List Event)
  | .bytes data => .ok (checkBytes table data)
  | .other value => .error (.notBytes value)

/-- A check that cannot run is an issue of its own. -/
def check (table : Table) (body : Body) : Option Issue × List Event :=
  match checkStrict table body with
  | .ok verdict => verdict
  | .error error => (some .checkFailed, [.checkFailed error])

end ScriptAudit
