/-! Text as a list of code points. A string of a JSON text or a word of a command line may
hold half of a surrogate pair on its own, which is no character, so a `String` cannot hold
it. Every `String` is text. -/
namespace ScriptAudit

/-- A character, or a surrogate by its place among the surrogates. -/
inductive CodePoint where
  | char (c : Char)
  | surrogate (place : Fin 0x800)
deriving DecidableEq

namespace CodePoint

def firstSurrogate : Nat := 0xD800

def code : CodePoint → Nat
  | char c => c.toNat
  | surrogate place => firstSurrogate + place

/-- The code point of a number below 0x10000. -/
def ofUnit (unit : Nat) : CodePoint :=
  if half : unit - firstSurrogate < 0x800 ∧ firstSurrogate ≤ unit then
    surrogate ⟨unit - firstSurrogate, half.1⟩
  else char (Char.ofNat unit)

def char? : CodePoint → Option Char
  | char c => some c
  | surrogate _ => none

def isChar (point : CodePoint) : Bool := point.char?.isSome

end CodePoint

abbrev Text := List CodePoint

namespace Text

def ofChars (chars : List Char) : Text := chars.map .char

def ofString (text : String) : Text := ofChars text.toList

instance : Coe String Text := ⟨ofString⟩

/-- The characters of a text without surrogates. -/
def chars? (text : Text) : Option (List Char) := text.mapM CodePoint.char?

def toString? (text : Text) : Option String := text.chars?.map String.ofList

def join (separator : Text) (parts : List Text) : Text := separator.intercalate parts

def lineFeed : CodePoint := .char '\n'

/-- Each line with a line feed behind it. -/
def ofLines (lines : List Text) : Text := lines.flatMap fun line => line ++ [lineFeed]

/-- Line feeds between the lines and at the end, also where there is no line. -/
def joinLines (lines : List Text) : Text := join [lineFeed] lines ++ [lineFeed]

/-- The order by the codes of the first code points that differ. -/
def le : Text → Text → Bool
  | [], _ => true
  | _ :: _, [] => false
  | a :: s, b :: t => a.code < b.code || (a.code = b.code && le s t)

end Text
end ScriptAudit
