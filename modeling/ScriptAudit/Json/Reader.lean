import ScriptAudit.Decimal.Nearest
import ScriptAudit.Json.Basic
import ScriptAudit.Text.Numeral

/-! Reading JSON text. Beside the standard grammar the names `NaN`, `Infinity` and
`-Infinity` are numbers. A repeated key keeps its first place and last value. Strings hold
no raw control characters; half of a surrogate pair stays half of one. Lists and objects
may be nested up to a depth. -/
namespace ScriptAudit.Json

inductive Container where
  | list
  | object
deriving DecidableEq

inductive ReadError where
  | malformed
  | tooDeep (container : Container)
deriving DecidableEq

def isSpace : CodePoint → Bool
  | .char c => c = ' ' || c = '\t' || c = '\n' || c = '\r'
  | .surrogate _ => false

def skip (text : Text) : Text := text.dropWhile isSpace

/-- What follows a word that a text begins with. -/
def after? (word text : Text) : Option Text :=
  if word.isPrefixOf text then some (text.drop word.length) else none

def hexDigit? : CodePoint → Option Nat
  | .char c => if c.toNat < 0x80 then Text.digitBelow? 16 c else none
  | .surrogate _ => none

def hexUnit? : Text → Option (Nat × Text)
  | a :: b :: c :: d :: rest => do
    let a ← hexDigit? a
    let b ← hexDigit? b
    let c ← hexDigit? c
    let d ← hexDigit? d
    return (((a * 16 + b) * 16 + c) * 16 + d, rest)
  | _ => none

def isHighHalf (unit : Nat) : Bool := 0xD800 ≤ unit && unit < 0xDC00

def isLowHalf (unit : Nat) : Bool := 0xDC00 ≤ unit && unit < 0xE000

def joinHalves (high low : Nat) : Char :=
  Char.ofNat (0x10000 + (high - 0xD800) * 0x400 + (low - 0xDC00))

/-- The code point of an escape that begins after its `\u`. -/
def unicodeEscape? (text : Text) : Option (CodePoint × Text) := do
  let (unit, rest) ← hexUnit? text
  match isHighHalf unit, rest with
  | true, .char '\\' :: .char 'u' :: more =>
    let (low, after) ← hexUnit? more
    if isLowHalf low then return (.char (joinHalves unit low), after)
    else return (.ofUnit unit, rest)
  | _, _ => return (.ofUnit unit, rest)

def plainEscape? : CodePoint → Option Char
  | .char '"' => some '"'
  | .char '\\' => some '\\'
  | .char '/' => some '/'
  | .char 'b' => some '\x08'
  | .char 'f' => some '\x0c'
  | .char 'n' => some '\n'
  | .char 'r' => some '\r'
  | .char 't' => some '\t'
  | _ => none

/-- The text of a string up to its closing quote, and what follows it. Each step uses up a
code point, so the length of the text is fuel enough. -/
def stringBody : Nat → Text → Option (Text × Text)
  | _, [] => none
  | 0, _ => none
  | _ + 1, .char '"' :: rest => some ([], rest)
  | fuel + 1, .char '\\' :: .char 'u' :: rest => do
    let (point, rest) ← unicodeEscape? rest
    let (body, rest) ← stringBody fuel rest
    return (point :: body, rest)
  | fuel + 1, .char '\\' :: point :: rest => do
    let c ← plainEscape? point
    let (body, rest) ← stringBody fuel rest
    return (.char c :: body, rest)
  | fuel + 1, point :: rest => do
    if point.code < 0x20 || point = .char '\\' then none
    else
      let (body, rest) ← stringBody fuel rest
      return (point :: body, rest)

def string? (text : Text) : Option (Text × Text) := stringBody text.length text

def isDigit : CodePoint → Bool
  | .char c => '0' ≤ c && c ≤ '9'
  | .surrogate _ => false

/-- The digits of the whole part: a zero, or digits that do not begin with one. -/
def wholePart : Text → Text × Text
  | .char '0' :: rest => ([.char '0'], rest)
  | text => (text.takeWhile isDigit, text.dropWhile isDigit)

def fractionPart : Text → Text × Text
  | .char '.' :: rest =>
    match rest.takeWhile isDigit with
    | [] => ([], .char '.' :: rest)
    | digits => (digits, rest.dropWhile isDigit)
  | text => ([], text)

def natural (digits : Text) : Nat :=
  digits.foldl (fun total point => total * 10 + (point.code - '0'.toNat)) 0

def exponentDigits (negative : Bool) (digits : Text) : Option Int :=
  match digits with
  | [] => none
  | _ => some (if negative then -(natural digits : Int) else natural digits)

def exponentPart (text : Text) : Option Int × Text :=
  match text with
  | e :: rest =>
    if e = .char 'e' || e = .char 'E' then
      let (negative, digits) :=
        match rest with
        | .char '-' :: more => (true, more)
        | .char '+' :: more => (false, more)
        | more => (false, more)
      match exponentDigits negative (digits.takeWhile isDigit) with
      | some exponent => (some exponent, digits.dropWhile isDigit)
      | none => (none, text)
    else (none, text)
  | [] => (none, [])

/-- A number without its sign. It is real if it has a fraction or an exponent. An integer
with more digits than a numeral may have is refused. -/
def magnitude? (negative : Bool) (text : Text) : Option (Json × Text) :=
  let (whole, rest) := wholePart text
  let (fraction, rest) := fractionPart rest
  let (exponent, rest) := exponentPart rest
  if whole.isEmpty then none
  else if fraction.isEmpty && exponent.isNone then
    if Text.decimalLimit < whole.length then none
    else some (.integer (if negative then -(natural whole : Int) else natural whole), rest)
  else
    let value : Decimal := ⟨natural (whole ++ fraction), exponent.getD 0 - fraction.length⟩
    some (.real (value.nearest negative), rest)

def number? : Text → Option (Json × Text)
  | .char '-' :: rest => magnitude? true rest
  | text => magnitude? false text

def notANumber : Binary64 := .assemble false (2047 * Binary64.fractionSize + 1)

/-- The values that have names. -/
def named : List (Text × Json) :=
  [("null", .null), ("true", .bool true), ("false", .bool false), ("NaN", .real notANumber),
   ("Infinity", .real (.infinity false)), ("-Infinity", .real (.infinity true))]

def named? (text : Text) : Option (Json × Text) :=
  named.findSome? fun (name, value) => (after? name text).map (value, ·)

def scalar? (text : Text) : Option (Json × Text) :=
  match text with
  | .char '"' :: rest => (string? rest).map fun (value, rest) => (.string value, rest)
  | text => (named? text).or (number? text)

def orMalformed {α : Type} : Option α → Except ReadError α
  | some value => .ok value
  | none => .error .malformed

def opening? : Text → Option (Container × Text)
  | .char '[' :: rest => some (.list, rest)
  | .char '\x7b' :: rest => some (.object, rest)
  | _ => none

mutual

/-- One value and what follows it, with room for so many containers in each other. Two calls
that follow each other use up a code point, so twice the length of the text is fuel enough. -/
def value : Nat → Nat → Text → Except ReadError (Json × Text)
  | 0, _, _ => .error .malformed
  | fuel + 1, room, text =>
    match opening? text, room with
    | none, _ => orMalformed (scalar? text)
    | some (container, _), 0 => .error (.tooDeep container)
    | some (.list, rest), room + 1 =>
      match skip rest with
      | .char ']' :: rest => .ok (.list [], rest)
      | rest => items fuel room [] rest
    | some (.object, rest), room + 1 =>
      match skip rest with
      | .char '\x7d' :: rest => .ok (.object [], rest)
      | rest => fields fuel room [] rest

def items : Nat → Nat → List Json → Text → Except ReadError (Json × Text)
  | 0, _, _, _ => .error .malformed
  | fuel + 1, room, done, text => do
    let (item, rest) ← value fuel room text
    match skip rest with
    | .char ',' :: rest => items fuel room (item :: done) (skip rest)
    | .char ']' :: rest => return (.list (item :: done).reverse, rest)
    | _ => .error .malformed

def fields : Nat → Nat → List (Text × Json) → Text → Except ReadError (Json × Text)
  | 0, _, _, _ => .error .malformed
  | fuel + 1, room, done, .char '"' :: text => do
    let (key, rest) ← orMalformed (string? text)
    match skip rest with
    | .char ':' :: rest =>
      let (item, rest) ← value fuel room (skip rest)
      let done := Association.put key item done
      match skip rest with
      | .char ',' :: rest => fields fuel room done (skip rest)
      | .char '\x7d' :: rest => return (.object done, rest)
      | _ => .error .malformed
    | _ => .error .malformed
  | _ + 1, _, _, _ => .error .malformed

end

/-- As many containers may be in each other. -/
def depthLimit : Nat := 988

/-- Reads a text that holds one value and blanks around it. -/
def parse (text : Text) : Except ReadError Json := do
  let (result, rest) ← value (2 * text.length + 1) depthLimit (skip text)
  if (skip rest).isEmpty then return result else .error .malformed

end ScriptAudit.Json
