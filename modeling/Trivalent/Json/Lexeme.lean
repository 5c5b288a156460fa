import Trivalent.Json.Numeral

/-!
# Lexemes

The smallest units of a JSON text. Reading them never fails: what is no lexeme becomes a flawed one,
and after a flaw that spoils the text around it nothing more is read.
-/

namespace Trivalent.Json

inductive Lexeme
  | openArray
  | closeArray
  | openObject
  | closeObject
  | comma
  | colon
  | null
  | bool   (b : Bool)
  | number (n : Except Flaw Number)
  | string (s : Except Flaw String)
  | other  (flaw : Flaw)

namespace Lexeme

-- No lexeme can be read after this one.
def isLast : Lexeme → Bool
  | number (.error flaw) => flaw.skipped.isSome
  | string (.error flaw) => flaw.skipped.isSome
  | other flaw           => flaw.skipped.isSome
  | _                    => false

/-! ## Strings -/

def hexValue? (c : Char) : Option Nat :=
  if c.isDigit then some (c.toNat - '0'.toNat)
  else if 'a' ≤ c ∧ c ≤ 'f' then some (c.toNat - 'a'.toNat + 10)
  else if 'A' ≤ c ∧ c ≤ 'F' then some (c.toNat - 'A'.toNat + 10)
  else none

def unit? (a b c d : Char) : Option Nat := do
  return ((((← hexValue? a) * 16 + (← hexValue? b)) * 16 + (← hexValue? c)) * 16 + (← hexValue? d))

def escaped? : Char → Option Char
  | '"'  => some '"'
  | '\\' => some '\\'
  | '/'  => some '/'
  | 'b'  => some '\x08'
  | 'f'  => some '\x0c'
  | 'n'  => some '\n'
  | 'r'  => some '\r'
  | 't'  => some '\t'
  | _    => none

-- A string as it is read from left to right.
structure Reading where
  -- The characters in reverse order.
  chars : List Char
  -- The first half of a character, whose second half must follow.
  half  : Option Nat
  -- A half without its other half was seen.
  split : Bool

namespace Reading

def empty : Reading := ⟨[], none, false⟩

-- What follows is no second half.
def settled (r : Reading) : Reading :=
  ⟨r.chars, none, r.split || r.half.isSome⟩

def push (r : Reading) (c : Char) : Reading :=
  { r.settled with chars := c :: r.chars }

-- Adds a code unit that was written as an escape.
def pushUnit (r : Reading) (unit : Nat) : Reading :=
  if 0xdc00 ≤ unit ∧ unit ≤ 0xdfff then
    match r.half with
    | some first =>
      let c := Char.ofNat ((first - 0xd800) * 0x400 + (unit - 0xdc00) + 0x10000)
      ⟨c :: r.chars, none, r.split⟩
    | none => { r with split := true }
  else if 0xd800 ≤ unit ∧ unit ≤ 0xdbff then
    { r.settled with half := some unit }
  else
    r.push (.ofNat unit)

def fail (r : Reading) (fault : Fault) : Except Flaw String :=
  .error ⟨if r.split then .malformed else fault, some fault⟩

def close (r : Reading) : Except Flaw String :=
  if r.settled.split then .error .soft else .ok (String.ofList r.chars.reverse)

end Reading

-- A text too short for the four digits of an escape has ended too early.
def escapeFault (cs : List Char) : Fault :=
  if (String.ofList cs).utf8ByteSize < 4 then .truncated else .malformed

-- Reads a string after its opening quote.
def readString (r : Reading) : List Char → Except Flaw String × List Char
  | [] => (r.fail .truncated, [])
  | '"' :: cs => (r.close, cs)
  | '\\' :: [] => (r.fail .truncated, [])
  | '\\' :: 'u' :: a :: b :: c :: d :: cs =>
    match unit? a b c d with
    | some unit => readString (r.pushUnit unit) cs
    | none => (r.fail .malformed, cs)
  | '\\' :: 'u' :: cs => (r.fail (escapeFault cs), cs)
  | '\\' :: c :: cs =>
    match escaped? c with
    | some c => readString (r.push c) cs
    | none => (r.settled.fail .malformed, cs)
  | c :: cs => if c < ' ' then (r.settled.fail .malformed, cs) else readString (r.push c) cs

theorem length_readString_le (r : Reading) (cs : List Char) :
    (readString r cs).2.length ≤ cs.length := by
  fun_induction readString r cs <;> simp_all <;> omega

/-! ## All lexemes -/

-- Reads a fixed word after its first letter.
def readWord (lexeme : Lexeme) : List Char → List Char → Lexeme × List Char
  | [], cs => (lexeme, cs)
  | _ :: _, [] => (other (.hard .truncated), [])
  | w :: ws, c :: cs => if w = c then readWord lexeme ws cs else (other (.hard .malformed), cs)

theorem length_readWord_le (lexeme : Lexeme) (ws cs : List Char) :
    (readWord lexeme ws cs).2.length ≤ cs.length := by
  fun_induction readWord lexeme ws cs <;> simp_all
  omega

-- The blanks of JSON.
def isSpace (c : Char) : Bool :=
  c = ' ' || c = '\n' || c = '\t' || c = '\r'

-- Reads one lexeme, which begins with the given character.
def readOne (c : Char) (cs : List Char) : Lexeme × List Char :=
  match c with
  | '[' => (openArray, cs)
  | ']' => (closeArray, cs)
  | '\x7b' => (openObject, cs)
  | '\x7d' => (closeObject, cs)
  | ',' => (comma, cs)
  | ':' => (colon, cs)
  | 'n' => readWord null ['u', 'l', 'l'] cs
  | 't' => readWord (bool true) ['r', 'u', 'e'] cs
  | 'f' => readWord (bool false) ['a', 'l', 's', 'e'] cs
  | '"' =>
    let (s, rest) := readString .empty cs
    (string s, rest)
  | '-' =>
    let (n, rest) := Numeral.Reading.readMagnitude true cs
    (number n, rest)
  | _ =>
    if c.isDigit then
      let (n, rest) := Numeral.Reading.readMagnitude false (c :: cs)
      (number n, rest)
    else
      (other (.hard .malformed), cs)

theorem length_readOne_le (c : Char) (cs : List Char) :
    (readOne c cs).2.length ≤ cs.length := by
  unfold readOne
  split
  · exact Nat.le_refl _
  · exact Nat.le_refl _
  · exact Nat.le_refl _
  · exact Nat.le_refl _
  · exact Nat.le_refl _
  · exact Nat.le_refl _
  · exact length_readWord_le ..
  · exact length_readWord_le ..
  · exact length_readWord_le ..
  · exact length_readString_le ..
  · exact Nat.le_trans (Numeral.Reading.length_readMagnitude_le ..)
      (Numeral.length_afterDigits_le _)
  · split
    · next h =>
      exact Nat.le_trans (Numeral.Reading.length_readMagnitude_le ..)
        (Numeral.length_afterDigits_cons_le h)
    · exact Nat.le_refl _

-- The lexemes of a text.
def readAll : List Char → List Lexeme
  | [] => []
  | c :: cs =>
    if isSpace c then
      readAll cs
    else
      have := length_readOne_le c cs
      let lexeme := (readOne c cs).1
      if lexeme.isLast then [lexeme] else lexeme :: readAll (readOne c cs).2
termination_by cs => cs.length

end Lexeme

end Trivalent.Json
