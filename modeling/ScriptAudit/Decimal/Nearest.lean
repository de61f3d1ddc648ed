import ScriptAudit.Decimal.Shortest

/-! The double nearest to a decimal, halves to the even significand. -/
namespace ScriptAudit
namespace Decimal

def roundHalfEven (numerator denominator : Nat) : Nat :=
  let quotient := numerator / denominator
  let doubled := 2 * (numerator % denominator)
  if doubled < denominator then quotient
  else if denominator < doubled then quotient + 1
  else quotient + quotient % 2

/-- The greatest `e` with `2 ^ e ≤ numerator / denominator`. -/
def binaryExponent (numerator denominator : Nat) : Int :=
  let e : Int := numerator.log2 - denominator.log2
  if denominator <<< e.toNat ≤ numerator <<< (-e).toNat then e else e - 1

/-- Rounds a positive ratio. The biased exponent and the significand are added, so that a
significand rounded up to the next power of two carries into the exponent. -/
def nearestRatio (negative : Bool) (numerator denominator : Nat) : Binary64 :=
  let scale := max (binaryExponent numerator denominator - 52) (-1074)
  let significand :=
    roundHalfEven (numerator <<< (-scale).toNat) (denominator <<< scale.toNat)
  let magnitude := (scale + 1074).toNat * Binary64.fractionSize + significand
  if 2047 * Binary64.fractionSize ≤ magnitude then .infinity negative
  else .assemble negative magnitude

/-- Decimals from `10 ^ 310` on are infinite and those below `10 ^ (-330)` are zero, whatever
their exponent, which may be too large to raise ten to. -/
def nearest (negative : Bool) (value : Decimal) : Binary64 :=
  let size := (Nat.toDigits 10 value.coefficient).length + value.power
  if value.coefficient = 0 || size < -330 then .zero negative
  else if 310 < size then .infinity negative
  else
    nearestRatio negative (value.coefficient * Nat.pow 10 value.power.toNat)
      (Nat.pow 10 (-value.power).toNat)

end Decimal
end ScriptAudit
