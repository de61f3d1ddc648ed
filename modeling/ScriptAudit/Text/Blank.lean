import ScriptAudit.Text.CodePoint

/-! Blank characters and trimming. -/
namespace ScriptAudit.Text

/-- The white space of Unicode: the controls that separate, the space, and the wide and
narrow spaces of the other blocks. -/
def blankCodes : List Nat :=
  [0x09, 0x0A, 0x0B, 0x0C, 0x0D, 0x1C, 0x1D, 0x1E, 0x1F, 0x20, 0x85, 0xA0, 0x1680,
   0x2000, 0x2001, 0x2002, 0x2003, 0x2004, 0x2005, 0x2006, 0x2007, 0x2008, 0x2009, 0x200A,
   0x2028, 0x2029, 0x202F, 0x205F, 0x3000]

def isBlank (point : CodePoint) : Bool := blankCodes.contains point.code

/-- Removes the elements of a class at both ends. -/
def trimBy {α : Type} (p : α → Bool) (text : List α) : List α :=
  ((text.dropWhile p).reverse.dropWhile p).reverse

def trim (text : Text) : Text := trimBy isBlank text

end ScriptAudit.Text
