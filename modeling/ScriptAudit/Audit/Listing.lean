import ScriptAudit.Audit.Graph

/-! Listings: the instructions by ascending offset, cut after a number of them, and then all
offsets that could not be decoded. -/
namespace ScriptAudit.Listing

def truncationMark : Text := "; ... truncated ..."

def messageLine (offset : Int) (message : Text) : Text :=
  "; undecodable offset 0x" ++ Text.hex 0 offset ++ ": " ++ message

def failureLine (offset : Int) (fault : Fault) : Text := messageLine offset fault.message

/-- Whether so many lines use up a limit. A negative one is used up from the start. -/
def isUsedUp (limit : Option Int) (listed : Nat) : Bool :=
  limit.any fun (most : Int) => most ≤ listed

/-- The lines of the instructions behind those that were listed before. The first one for which
there is no room gives the mark, and with it the lines end. -/
def instructionLines (limit : Option Int) :
    Nat → List (Int × Instruction) → Except RenderError (List Text)
  | _, [] => return []
  | listed, entry :: rest =>
    if isUsedUp limit listed then return [truncationMark]
    else do
      let line ← entry.2.format
      return line :: (← instructionLines limit (listed + 1) rest)

def lines (instructions : List (Int × Instruction)) (messages : List (Int × Text))
    (limit : Option Int) : Except RenderError (List Text) := do
  let shown ← instructionLines limit 0 (byOffset instructions)
  return shown ++ (byOffset messages).map fun entry => messageLine entry.1 entry.2

/-- The listing of instructions and of messages on what could not be decoded. -/
def text (instructions : List (Int × Instruction)) (messages : List (Int × Text))
    (limit : Option Int) : Except RenderError Text := do
  return Text.joinLines (← lines instructions messages limit)

def render (instructions : List (Int × Instruction)) (failures : List (Int × Fault))
    (limit : Option Int) : Except RenderError Text :=
  text instructions (failures.map fun entry => (entry.1, (entry.2.message : Text))) limit

def ofGraph (graph : Graph) (limit : Option Int) : Except RenderError Text :=
  render graph.instructions graph.failures limit

end ScriptAudit.Listing
