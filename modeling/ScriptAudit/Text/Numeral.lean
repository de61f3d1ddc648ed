import ScriptAudit.Text.Blank
import ScriptAudit.Text.Digit

/-! Integers as text. A numeral may stand between blanks and begin with a sign; a
hexadecimal one may then have the mark `0x`, which one underscore may follow. Single
underscores may stand between digits, and digits of every script count. -/
namespace ScriptAudit.Text

/-- The blanks around a numeral: all but the four separator controls. -/
def isNumeralBlank (c : Char) : Bool :=
  isBlank (.char c) && !(0x1C ≤ c.toNat && c.toNat ≤ 0x1F)

def digitBelow? (base : Nat) (c : Char) : Option Nat := (digit? c).filter (· < base)

def readMoreDigits (base total : Nat) : List Char → Option Nat
  | [] => some total
  | '_' :: c :: rest =>
    match digitBelow? base c with
    | some d => readMoreDigits base (total * base + d) rest
    | none => none
  | c :: rest =>
    match digitBelow? base c with
    | some d => readMoreDigits base (total * base + d) rest
    | none => none

def readDigits (base : Nat) : List Char → Option Nat
  | [] => none
  | c :: rest =>
    match digitBelow? base c with
    | some d => readMoreDigits base d rest
    | none => none

def dropMark : List Char → List Char
  | lead :: x :: '_' :: rest =>
    if decimalDigit? lead = some 0 && (x = 'x' || x = 'X') then rest else lead :: x :: '_' :: rest
  | lead :: x :: rest =>
    if decimalDigit? lead = some 0 && (x = 'x' || x = 'X') then rest else lead :: x :: rest
  | text => text

def readSigned (magnitude : List Char → Option Nat) : List Char → Option Int
  | '+' :: rest => (magnitude rest).map Int.ofNat
  | '-' :: rest => (magnitude rest).map fun n => -(n : Int)
  | text => (magnitude text).map Int.ofNat

def hexadecimal? (text : List Char) : Option Int :=
  readSigned (fun digits => readDigits 16 (dropMark digits)) (trimBy isNumeralBlank text)

/-- A decimal numeral may have this many digits, leading zeros included. -/
def decimalLimit : Nat := 4300

def decimalDigits? (text : List Char) : Option Nat :=
  if decimalLimit < (text.filter (· != '_')).length then none else readDigits 10 text

def decimal? (text : List Char) : Option Int :=
  readSigned decimalDigits? (trimBy isNumeralBlank text)

/-- Lower-case hexadecimal, filled with zeros to a width in which a minus sign counts. -/
def hex (width : Nat) (n : Int) : String :=
  let digits := Nat.toDigits 16 n.natAbs
  if n < 0 then
    String.ofList ('-' :: (List.replicate (width - 1 - digits.length) '0' ++ digits))
  else String.ofList (List.replicate (width - digits.length) '0' ++ digits)

end ScriptAudit.Text
