import ScriptAudit.Text.CodePoint

/-! Lines of a text. A line ends at a line feed, a carriage return, both in this order, or
one of the other breaks; the last line needs no end. -/
namespace ScriptAudit.Text

def breakCodes : List Nat :=
  [0x0A, 0x0B, 0x0C, 0x0D, 0x1C, 0x1D, 0x1E, 0x85, 0x2028, 0x2029]

def isBreak (point : CodePoint) : Bool := breakCodes.contains point.code

def lines : Text → List Text
  | [] => []
  | .char '\r' :: .char '\n' :: rest => [] :: lines rest
  | point :: rest =>
    if isBreak point then [] :: lines rest
    else
      match lines rest with
      | [] => [[point]]
      | line :: more => (point :: line) :: more

def carriageReturn : CodePoint := .char '\r'

/-- Reading in text mode: a carriage return, with the line feed that follows it or
without one, becomes a line feed. -/
def foldReturns : Text → Text
  | [] => []
  | .char '\r' :: .char '\n' :: rest => lineFeed :: foldReturns rest
  | point :: rest => (if point = carriageReturn then lineFeed else point) :: foldReturns rest

end ScriptAudit.Text
