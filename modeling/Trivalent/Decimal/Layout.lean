import Trivalent.Decimal.Shortest

/-!
# Layouts of doubles

How the shortest digits of a double are written. A layout is one record: where the positional
notation ends, whether whole numbers keep a fraction, and which way ties between two shortest
decimals go. An exponent is written with its sign, as in `1e+16` and `1.5e-7`.
-/

namespace Trivalent.Decimal

structure Layout where
  -- Decimal exponents of `d.ddd * 10 ^ e` that are written positionally, if not all are.
  positional    : Option (Int × Int)
  -- Whole numbers in positional notation end in `.0`.
  wholeFraction : Bool
  tie           : Tie

namespace Layout

def isPositional (l : Layout) (exponent : Int) : Bool :=
  match l.positional with
  | none => true
  | some (least, greatest) => least ≤ exponent && exponent ≤ greatest

def zeros (n : Int) : String :=
  "".pushn '0' n.toNat

-- `digits` with the decimal point after its first `point` digits, where `point` may lie
-- outside.
def positionalText (l : Layout) (digits : List Char) (point : Int) : String :=
  if point ≤ 0 then
    "0." ++ zeros (-point) ++ String.ofList digits
  else if digits.length ≤ point then
    String.ofList digits ++ zeros (point - digits.length) ++ (if l.wholeFraction then ".0" else "")
  else
    String.ofList (digits.take point.toNat) ++ "." ++ String.ofList (digits.drop point.toNat)

def scientificText (digits : List Char) (exponent : Int) : String :=
  let fraction := if digits.length ≤ 1 then "" else "." ++ String.ofList (digits.drop 1)
  let sign := if exponent < 0 then "-" else "+"
  String.ofList (digits.take 1) ++ fraction ++ "e" ++ sign ++ toString exponent.natAbs

def magnitudeText (l : Layout) (p : Double.Parts) : String :=
  if p.significand = 0 then
    if l.wholeFraction then "0.0" else "0"
  else
    let decimal := shortest l.tie p.significand p.exponent
    let digits := Nat.toDigits 10 decimal.significand
    let exponent := decimal.exponent + digits.length - 1
    if l.isPositional exponent then
      l.positionalText digits (exponent + 1)
    else
      scientificText digits exponent

-- The text of any double; the sign of NaN is not written.
def text (l : Layout) (x : Float) : String :=
  if x.isNaN then
    "NaN"
  else
    let sign := if Double.isNegative x then "-" else ""
    sign ++ (if x.isInf then "inf" else l.magnitudeText (Double.parts x))

end Layout

end Trivalent.Decimal
