/-! Double-precision numbers as 64-bit words. Sign, exponent and fraction are read off
the word by division and remainder, so every statement about a number is one about
`Nat`. A finite number is `significand * 2 ^ scale`, up to its sign. -/
namespace ScriptAudit

structure Binary64 where
  bits : UInt64
deriving DecidableEq

namespace Binary64

/-- The fraction has 52 bits. -/
def fractionSize : Nat := 0x10000000000000

/-- The sign is the 64th bit. -/
def signUnit : Nat := 0x8000000000000000

def negative (x : Binary64) : Bool := decide (signUnit ≤ x.bits.toNat)

def exponent (x : Binary64) : Nat := x.bits.toNat / fractionSize % 2048

def fraction (x : Binary64) : Nat := x.bits.toNat % fractionSize

def isNaN (x : Binary64) : Bool := x.exponent = 2047 && x.fraction != 0

def isInfinite (x : Binary64) : Bool := x.exponent = 2047 && x.fraction = 0

def isZero (x : Binary64) : Bool := x.exponent = 0 && x.fraction = 0

def significand (x : Binary64) : Nat :=
  if x.exponent = 0 then x.fraction else fractionSize + x.fraction

def scale (x : Binary64) : Int := (max x.exponent 1 : Nat) - 1075

/-- The number with this sign and these 63 bits below the sign. -/
def assemble (negative : Bool) (magnitude : Nat) : Binary64 :=
  ⟨UInt64.ofNat (if negative then signUnit + magnitude else magnitude)⟩

def infinity (negative : Bool) : Binary64 := assemble negative (2047 * fractionSize)

def zero (negative : Bool) : Binary64 := assemble negative 0

/-- Widens a single-precision word. Every single-precision number, the subnormal ones
included, is a double, so nothing is rounded. -/
def ofSingle (word : Nat) : Binary64 :=
  let exponent := word / 0x800000 % 256
  let fraction := word % 0x800000
  let magnitude :=
    if exponent = 255 then 2047 * fractionSize + fraction <<< 29
    else if exponent ≠ 0 then (exponent + 896) * fractionSize + fraction <<< 29
    else if fraction = 0 then 0
    else (fraction.log2 + 873) * fractionSize + fraction <<< (52 - fraction.log2)
  assemble (decide (0x80000000 ≤ word)) magnitude

end Binary64
end ScriptAudit
