import Trivalent.Json
import Trivalent.Json.Fault

/-!
# Numerals

Reading the numbers of a JSON text. A numeral without fraction and exponent that fits a word is an
integer; any other one is a double, found by one multiplication or division of its significand by a
power of ten. The significand holds as many digits as fit an unsigned word of 64 bits.
-/

namespace Trivalent.Json.Numeral

def digitValue (c : Char) : Nat :=
  c.toNat - '0'.toNat

def digits (cs : List Char) : List Char :=
  cs.takeWhile Char.isDigit

def afterDigits (cs : List Char) : List Char :=
  cs.dropWhile Char.isDigit

-- The number of unsigned words of 64 bits.
def wordSize : Nat := 0x10000000000000000

-- Appends digits while the result fits a word. Also gives how many digits were left.
def appendDigits (significand : Nat) : List Char → Nat × Nat
  | [] => (significand, 0)
  | c :: cs =>
    let next := significand * 10 + digitValue c
    if next < wordSize then appendDigits next cs else (significand, cs.length + 1)

-- The greatest power of ten below the greatest double.
def greatestPower : Nat := 308

def powerOfTen (n : Nat) : Float :=
  OfScientific.ofScientific 1 false n

-- The double `x * 10 ^ exponent`, unless it is out of range.
def scale? (x : Float) (exponent : Int) : Option Float :=
  if exponent.natAbs ≤ greatestPower then
    if 0 ≤ exponent then
      let y := x * powerOfTen exponent.natAbs
      if y.isInf then none else some y
    else
      some (x / powerOfTen exponent.natAbs)
  else if x == 0 then
    some x
  else if 0 ≤ exponent then
    none
  else
    scale? (x / powerOfTen greatestPower) (exponent + greatestPower)
termination_by (-exponent).toNat
decreasing_by simp only [greatestPower] at *; omega

-- A numeral as it is read from left to right.
structure Reading where
  negative    : Bool
  significand : Nat
  exponent    : Int
  -- Neither fraction nor exponent nor too many digits were seen.
  whole       : Bool

namespace Reading

def ofDouble (r : Reading) (x : Float) : Except Flaw Number :=
  match Number.ofFloat? (if r.negative then -x else x) with
  | some n => .ok n
  | none => .error .soft

def double (r : Reading) : Except Flaw Number :=
  match scale? r.significand.toUInt64.toFloat r.exponent with
  | some x => r.ofDouble x
  | none => .error .soft

-- There is no integer minus zero.
def number (r : Reading) : Except Flaw Number :=
  if r.whole ∧ ¬(r.negative ∧ r.significand = 0) then
    match Number.ofInt? (if r.negative then -r.significand else r.significand) with
    | some n => .ok n
    | none => r.double
  else
    r.double

-- A numeral that breaks off is a fault of its own kind only when its number is asked for.
def flawAt : List Char → Flaw
  | [] => ⟨.truncated, some .malformed⟩
  | _ => .hard .malformed

-- The greatest exponent that is kept in full.
def greatestExponent : Nat := 0x7fffffff

def exponentValue (cs : List Char) : Nat :=
  cs.foldl (fun n c => n * 10 + digitValue c) 0

-- Reads the exponent after its mark.
def readExponent (r : Reading) (cs : List Char) : Except Flaw Number × List Char :=
  let (negative, cs) :=
    match cs with
    | '+' :: rest => (false, rest)
    | '-' :: rest => (true, rest)
    | _ => (false, cs)
  let value := exponentValue (digits cs)
  if (digits cs).isEmpty then
    (.error (flawAt cs), cs)
  else if greatestExponent < value then
    let number := if r.significand ≠ 0 ∧ ¬negative then .error .soft else r.ofDouble 0
    (number, afterDigits cs)
  else
    let exponent := if negative then r.exponent - value else r.exponent + value
    (double { r with exponent }, afterDigits cs)

-- Reads what may follow the digits of a numeral.
def readTail (r : Reading) (cs : List Char) : Except Flaw Number × List Char :=
  match cs with
  | 'e' :: rest => { r with whole := false }.readExponent rest
  | 'E' :: rest => { r with whole := false }.readExponent rest
  | _ => (r.number, cs)

-- Reads the fraction after its point.
def readFraction (r : Reading) (cs : List Char) : Except Flaw Number × List Char :=
  if (digits cs).isEmpty then
    (.error (flawAt cs), cs)
  else
    let (significand, left) := appendDigits r.significand (digits cs)
    let exponent := r.exponent - ((digits cs).length - left : Nat)
    readTail { r with significand, exponent, whole := false } (afterDigits cs)

-- Reads a numeral after its sign. A zero is not followed by another digit.
def readMagnitude (negative : Bool) (cs : List Char) : Except Flaw Number × List Char :=
  let (significand, left) := appendDigits 0 (digits cs)
  let r : Reading := ⟨negative, significand, left, left = 0⟩
  if (digits cs).isEmpty then
    (.error (flawAt cs), afterDigits cs)
  else if (digits cs).head? = some '0' ∧ 1 < (digits cs).length then
    (.error (.hard .malformed), afterDigits cs)
  else
    match afterDigits cs with
    | '.' :: rest => r.readFraction rest
    | rest => r.readTail rest

end Reading

theorem length_afterDigits_le (cs : List Char) : (afterDigits cs).length ≤ cs.length :=
  (List.dropWhile_sublist _).length_le

theorem length_afterDigits_cons_le (h : c.isDigit) :
    (afterDigits (c :: cs)).length ≤ cs.length := by
  simpa [afterDigits, h] using length_afterDigits_le cs

namespace Reading

theorem length_readExponent_le (r : Reading) (cs : List Char) :
    (r.readExponent cs).2.length ≤ cs.length := by
  unfold readExponent
  split
  next negative rest h =>
    have : rest.length ≤ cs.length := by
      split at h <;> cases h <;> simp
    have := length_afterDigits_le rest
    simp only
    split
    · exact ‹rest.length ≤ cs.length›
    · split <;> exact Nat.le_trans ‹_› ‹_›

theorem length_readTail_le (r : Reading) (cs : List Char) :
    (r.readTail cs).2.length ≤ cs.length := by
  unfold readTail
  split
  · exact Nat.le_succ_of_le (length_readExponent_le ..)
  · exact Nat.le_succ_of_le (length_readExponent_le ..)
  · exact Nat.le_refl _

theorem length_readFraction_le (r : Reading) (cs : List Char) :
    (r.readFraction cs).2.length ≤ cs.length := by
  unfold readFraction
  split
  · exact Nat.le_refl _
  · exact Nat.le_trans (length_readTail_le ..) (length_afterDigits_le cs)

theorem length_readMagnitude_le (negative : Bool) (cs : List Char) :
    (readMagnitude negative cs).2.length ≤ (afterDigits cs).length := by
  unfold readMagnitude
  simp only
  split
  · exact Nat.le_refl _
  · split
    · exact Nat.le_refl _
    · split
      · next h =>
        rw [h]
        exact Nat.le_succ_of_le (length_readFraction_le ..)
      · exact length_readTail_le ..

end Reading

end Trivalent.Json.Numeral
