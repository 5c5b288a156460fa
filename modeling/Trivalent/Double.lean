/-!
# Exact parts of doubles

A finite double is a signed integer times a power of two. This module takes doubles apart into
these integers and puts them together again, and defines what needs the exact value: the
remainder, the conversion of integers and the order, in which NaN has no place.
-/

namespace Trivalent

namespace Double

-- The number `± significand * 2 ^ exponent`.
structure Parts where
  negative    : Bool
  significand : Nat
  exponent    : Int
  deriving DecidableEq

-- The exponent of the last digit of the least doubles.
def leastExponent : Int := -1074

-- The number of doubles of one sign and one scale.
def scaleSize : Nat := 0x10000000000000

-- The number of scales of one sign.
def scaleCount : Nat := 0x800

-- The exact value of a finite double. The significand of all but the least doubles has 53 bits.
def parts (x : Float) : Parts :=
  let bits := x.toBits.toNat
  let fraction : Nat := bits % scaleSize
  let scale : Nat := bits / scaleSize % scaleCount
  let negative := bits / scaleSize / scaleCount = 1
  if scale = 0 then
    ⟨negative, fraction, leastExponent⟩
  else
    ⟨negative, scaleSize + fraction, scale + leastExponent - 1⟩

-- The double with the given value, which has to be a finite double.
def ofParts (p : Parts) : Float :=
  let sign := if p.negative then scaleCount * scaleSize else 0
  if p.significand = 0 then
    .ofBits (UInt64.ofNat sign)
  else
    let target := max (p.exponent + p.significand.log2 - 52) leastExponent
    let significand :=
      if p.exponent ≤ target then
        p.significand >>> (target - p.exponent).toNat
      else
        p.significand <<< (p.exponent - target).toNat
    let scale := (target - leastExponent).toNat
    .ofBits (UInt64.ofNat (sign + scale * scaleSize + significand))

def isNegative (x : Float) : Bool :=
  x.toBits ≥ 0x8000000000000000

def nan : Float := 0 / 0

def infinity : Float := 1 / 0

-- The nearest double, a tie going to the even neighbour, of an integer of at most 64 bits.
def ofInt : Int → Float
  | .ofNat n   => n.toUInt64.toFloat
  | .negSucc n => -(n + 1).toUInt64.toFloat

-- The remainder of the division whose quotient is cut off towards zero. It is exact and has the
-- sign of the dividend.
def remainder (x y : Float) : Float :=
  if x.isNaN || y.isNaN || x.isInf || y == 0 then
    nan
  else if y.isInf || x == 0 then
    x
  else
    let p := parts x
    let q := parts y
    let exponent := min p.exponent q.exponent
    let dividend := p.significand <<< (p.exponent - exponent).toNat
    let divisor := q.significand <<< (q.exponent - exponent).toNat
    ofParts ⟨p.negative, dividend % divisor, exponent⟩

-- No order relates NaN to any double; both zeros are equal.
def order? (x y : Float) : Option Ordering :=
  if x < y then
    some .lt
  else if x == y then
    some .eq
  else if y < x then
    some .gt
  else
    none

end Double

end Trivalent
