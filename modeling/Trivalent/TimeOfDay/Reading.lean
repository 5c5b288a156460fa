import Trivalent.TimeOfDay
import Trivalent.Text.Blank

/-!
# Reading times of day

A time is written as hour, minute and second between colons. Each number has one or two digits and
may follow blanks.
-/

namespace Trivalent.TimeOfDay

inductive ReadError
  -- The text ends where something is missing.
  | ended
  | invalid
  | outOfRange
  -- Something follows the time.
  | trailing
  deriving DecidableEq

namespace ReadError

def message : ReadError → String
  | ended      => "premature end of input"
  | invalid    => "input contains invalid characters"
  | outOfRange => "input is out of range"
  | trailing   => "trailing input"

end ReadError

-- Reads a number up to the given greatest one.
def readNumber (greatest : Nat) (cs : List Char) : Except ReadError (Nat × List Char) :=
  match Text.skipBlanks cs with
  | [] => .error .ended
  | c :: cs =>
    if c.isDigit then
      let tens := c.toNat - '0'.toNat
      let (n, cs) :=
        match cs with
        | d :: rest => if d.isDigit then (10 * tens + (d.toNat - '0'.toNat), rest) else (tens, cs)
        | [] => (tens, cs)
      if n ≤ greatest then .ok (n, cs) else .error .outOfRange
    else
      .error .invalid

def readColon : List Char → Except ReadError (List Char)
  | []      => .error .ended
  | c :: cs => if c = ':' then .ok cs else .error .invalid

def ofText (s : String) : Except ReadError TimeOfDay := do
  let (hour, cs) ← readNumber 23 s.toList
  let cs ← readColon cs
  let (minute, cs) ← readNumber 59 cs
  let cs ← readColon cs
  let (second, cs) ← readNumber 60 cs
  if cs.isEmpty then
    match ofClock? hour minute second with
    | some t => return t
    | none => throw .outOfRange
  else
    throw .trailing

end Trivalent.TimeOfDay
