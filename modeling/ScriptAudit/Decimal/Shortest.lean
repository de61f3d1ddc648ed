import ScriptAudit.Decimal.Binary64

/-! The shortest decimal that reads back as a given double. The decimals that round to
`x` fill an interval around `x`, whose ends belong to it when the significand is even.
Grids of multiples of a power of ten are tried from the coarsest on; the first grid with
a point in the interval has the fewest digits, and of its points next to `x` the nearer
one is taken, the even one of two at equal distance. -/
namespace ScriptAudit

/-- The number `coefficient * 10 ^ power`. -/
structure Decimal where
  coefficient : Nat
  power : Int
deriving DecidableEq

namespace Decimal

/-- A ratio `numerator / denominator` of `units * 2 ^ (scale - 2)` to `10 ^ power`. -/
def gridRatio (units : Nat) (scale power : Int) : Nat × Nat :=
  let shift := scale - 2
  ((units * Nat.pow 10 (-power).toNat) <<< shift.toNat, Nat.pow 10 power.toNat <<< (-shift).toNat)

/-- Quarter units below the significand at which the rounding interval begins. The gap
below a power of two is half the gap above it. -/
def lowerGap (x : Binary64) : Nat :=
  if x.fraction = 0 && decide (1 < x.exponent) then 1 else 2

/-- The point of the grid `10 ^ power` next to a positive `x` that rounds to `x`. -/
def onGrid? (x : Binary64) (power : Int) : Option Nat :=
  let units := 4 * x.significand
  let (value, one) := gridRatio units x.scale power
  let (low, _) := gridRatio (units - lowerGap x) x.scale power
  let (high, _) := gridRatio (units + 2) x.scale power
  let inside (point : Nat) : Bool :=
    if x.significand % 2 = 0 then low ≤ point * one && point * one ≤ high
    else low < point * one && point * one < high
  let below := value / one
  let above := below + 1
  match inside below, inside above with
  | false, false => none
  | true, false => some below
  | false, true => some above
  | true, true =>
    let middle := (2 * below + 1) * one
    if 2 * value < middle then some below
    else if middle < 2 * value then some above
    else if below % 2 = 0 then some below
    else some above

def search (x : Binary64) : Nat → Int → Decimal
  | 0, power => ⟨0, power⟩
  | steps + 1, power =>
    match onGrid? x power with
    | some point => ⟨point, power⟩
    | none => search x steps (power - 1)

/-- No double reaches `10 ^ 309`, and two neighbours are more than `10 ^ (-324)` apart, so a
positive finite `x` meets one of these 634 grids. -/
def shortest (x : Binary64) : Decimal := search x 634 309

end Decimal
end ScriptAudit
