import Trivalent.Double

/-!
# Shortest decimals

The decimal with the fewest digits among those that a double is the nearest double of, and of these
the one nearest to it.
-/

namespace Trivalent

-- The number `significand * 10 ^ exponent`.
structure Decimal where
  significand : Nat
  exponent    : Int
  deriving DecidableEq

namespace Decimal

-- Which of two neighbours a number halfway between them goes to.
inductive Tie
  | up
  | even
  deriving DecidableEq

-- The double `significand * 2 ^ exponent` beside the grid of multiples of `10 ^ place`, all
-- scaled to integers: the grid point `d` is at `d * step`.
structure Grid where
  -- Least number that rounds to the double.
  low    : Nat
  value  : Nat
  -- Greatest number that rounds to the double.
  high   : Nat
  step   : Nat
  -- Whether `low` and `high` themselves round to the double.
  closed : Bool

namespace Grid

def ofDouble (significand : Nat) (exponent place : Int) : Grid :=
  let quarter := Nat.pow 10 (-place).toNat <<< (exponent - 2).toNat
  let below := if significand = Double.scaleSize ∧ Double.leastExponent < exponent then 1 else 2
  { low    := (4 * significand - below) * quarter
    value  := 4 * significand * quarter
    high   := (4 * significand + 2) * quarter
    step   := Nat.pow 10 place.toNat <<< (2 - exponent).toNat
    closed := significand % 2 = 0 }

def Admits (g : Grid) (d : Nat) : Prop :=
  if g.closed then
    g.low ≤ d * g.step ∧ d * g.step ≤ g.high
  else
    g.low < d * g.step ∧ d * g.step < g.high

instance (g : Grid) (d : Nat) : Decidable (g.Admits d) := by
  unfold Admits
  infer_instance

-- The grid point that rounds to the double and is nearest to it.
def nearest? (g : Grid) (tie : Tie) : Option Nat :=
  let d := g.value / g.step
  if g.Admits d then
    if g.Admits (d + 1) then
      match compare (2 * g.value) ((2 * d + 1) * g.step), tie with
      | .lt, _     => some d
      | .gt, _     => some (d + 1)
      | .eq, .up   => some (d + 1)
      | .eq, .even => some (d + d % 2)
    else
      some d
  else if g.Admits (d + 1) then
    some (d + 1)
  else
    none

end Grid

-- A power of ten at most ten times too small for the number `numerator / denominator`, raised
-- while the next one still fits.
def raisePlace (numerator denominator : Nat) : Nat → Int → Int
  | 0, place => place
  | fuel + 1, place =>
    if Nat.pow 10 (place + 1).toNat * denominator ≤ numerator * Nat.pow 10 (-(place + 1)).toNat then
      raisePlace numerator denominator fuel (place + 1)
    else
      place

-- The exponent of the first decimal digit of `significand * 2 ^ exponent`.
def firstPlace (significand : Nat) (exponent : Int) : Int :=
  let estimate := (significand.log2 + exponent) * 30103 / 100000 - 1
  raisePlace (significand <<< exponent.toNat) (1 <<< (-exponent).toNat) 4 estimate

def dropZeros : Nat → Decimal → Decimal
  | 0, d => d
  | fuel + 1, d =>
    if d.significand % 10 = 0 then dropZeros fuel ⟨d.significand / 10, d.exponent + 1⟩ else d

-- The shortest decimal of the double `significand * 2 ^ exponent`, which is not zero. Seventeen
-- digits are always enough.
def shortest (tie : Tie) (significand : Nat) (exponent : Int) : Decimal :=
  let first := firstPlace significand exponent
  let found := (List.range 17).findSome? fun (n : Nat) =>
    let place := first - n
    (Grid.ofDouble significand exponent place).nearest? tie |>.map (⟨·, place⟩)
  dropZeros 17 (found.getD ⟨0, 0⟩)

end Decimal

end Trivalent
