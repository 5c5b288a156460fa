import Trivalent.Interval

/-!
# Times of day

A time of day counts the seconds since midnight. The last second of a minute may be followed by a
leap second, which is held as that second with a billion nanoseconds more and written as second 60.
-/

namespace Trivalent

-- The number of seconds of a day.
def daySeconds : Nat := 86400

-- The number of nanoseconds of a second.
def secondNanos : Nat := 1000000000

@[ext]
structure TimeOfDay where
  seconds    : Nat
  nanos      : Nat
  seconds_lt : seconds < daySeconds
  nanos_lt   : nanos < 2 * secondNanos
  leap       : secondNanos ≤ nanos → seconds % 60 = 59
  deriving DecidableEq

namespace TimeOfDay

def of? (seconds nanos : Nat) : Option TimeOfDay :=
  if h : seconds < daySeconds ∧ nanos < 2 * secondNanos ∧
      (secondNanos ≤ nanos → seconds % 60 = 59) then
    some ⟨seconds, nanos, h.1, h.2.1, h.2.2⟩
  else
    none

-- The time on a clock whose second may be the leap second 60.
def ofClock? (hour minute second : Nat) : Option TimeOfDay :=
  if second = 60 then
    of? (hour * 3600 + minute * 60 + 59) secondNanos
  else
    of? (hour * 3600 + minute * 60 + second) 0

def isLeap (t : TimeOfDay) : Bool :=
  secondNanos ≤ t.nanos

-- A shift that moves a leap second starts from the second before it or, going back, from the
-- second after it.
def shift (t : TimeOfDay) (amount : Int) : TimeOfDay :=
  if amount = 0 then
    t
  else
    let start : Int := if t.isLeap ∧ amount < 0 then t.seconds + 1 else t.seconds
    { seconds    := ((start + amount) % daySeconds).toNat
      nanos      := t.nanos % secondNanos
      seconds_lt := by simp only [daySeconds]; omega
      nanos_lt   := by simp only [secondNanos]; omega
      leap       := by simp only [secondNanos]; omega }

-- The calendar components of an interval do not move a time of day.
def add (t : TimeOfDay) (a : Interval) : TimeOfDay :=
  t.shift a.clockSeconds

def sub (t : TimeOfDay) (a : Interval) : TimeOfDay :=
  t.shift (-a.clockSeconds)

-- Times are ordered by their seconds alone.
def order (s t : TimeOfDay) : Ordering :=
  compare s.seconds t.seconds

def twoDigits (n : Nat) : String :=
  String.ofList [Nat.digitChar (n / 10), Nat.digitChar (n % 10)]

def hour (t : TimeOfDay) : Nat :=
  t.seconds / 3600

def minute (t : TimeOfDay) : Nat :=
  t.seconds / 60 % 60

-- A leap second is second 60.
def second (t : TimeOfDay) : Nat :=
  t.seconds % 60 + t.nanos / secondNanos

def text (t : TimeOfDay) : String :=
  twoDigits t.hour ++ ":" ++ twoDigits t.minute ++ ":" ++ twoDigits t.second

end TimeOfDay

end Trivalent
