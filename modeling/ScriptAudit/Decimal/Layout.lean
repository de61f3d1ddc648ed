import ScriptAudit.Decimal.Shortest

/-! How a double is written: shortest digits, positional while the decimal exponent is at
least -4 and below 16, otherwise with an exponent of at least two digits. -/
namespace ScriptAudit
namespace Decimal

def digits (n : Nat) : List Char := Nat.toDigits 10 n

def zeros (n : Nat) : List Char := List.replicate n '0'

def isPositional (exponent : Int) : Bool := -4 ≤ exponent && exponent < 16

/-- Digits with the decimal point after the first `point` of them. -/
def positional (ds : List Char) (point : Int) : List Char :=
  if point ≤ 0 then '0' :: '.' :: (zeros (-point).toNat ++ ds)
  else if (ds.length : Int) ≤ point then ds ++ zeros (point - ds.length).toNat ++ ['.', '0']
  else ds.take point.toNat ++ '.' :: ds.drop point.toNat

def exponentMark (exponent : Int) : List Char :=
  let ds := digits exponent.natAbs
  'e' :: (if exponent < 0 then '-' else '+') :: (zeros (2 - ds.length) ++ ds)

def scientific (ds : List Char) (exponent : Int) : List Char :=
  match ds with
  | [] => []
  | [d] => d :: exponentMark exponent
  | d :: rest => d :: '.' :: (rest ++ exponentMark exponent)

def layout (value : Decimal) : List Char :=
  let ds := digits value.coefficient
  let point := ds.length + value.power
  if isPositional (point - 1) then positional ds point else scientific ds (point - 1)

end Decimal

/-- The text of a double. A number that is not a number has no sign. -/
def Binary64.text (x : Binary64) : String :=
  if x.isNaN then "nan"
  else
    let magnitude :=
      if x.isInfinite then ['i', 'n', 'f']
      else if x.isZero then ['0', '.', '0']
      else (Decimal.shortest x).layout
    String.ofList (if x.negative then '-' :: magnitude else magnitude)

end ScriptAudit
