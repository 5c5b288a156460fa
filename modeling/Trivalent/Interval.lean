import Trivalent.Word

/-!
# Intervals

An interval is a span of calendar and clock time whose six components are kept apart: one month
differs from thirty days, and sixty minutes from one hour.
-/

namespace Trivalent

@[ext]
structure Interval where
  years   : Int32
  months  : Int32
  days    : Int32
  hours   : Int32
  minutes : Int32
  seconds : Int32
  deriving DecidableEq

namespace Interval

def zero : Interval := ⟨0, 0, 0, 0, 0, 0⟩

-- Combines the components of two intervals if every result fits a word.
def combine? (f : Int → Int → Int) (a b : Interval) : Option Interval := do
  let years   ← word32? (f a.years.toInt b.years.toInt)
  let months  ← word32? (f a.months.toInt b.months.toInt)
  let days    ← word32? (f a.days.toInt b.days.toInt)
  let hours   ← word32? (f a.hours.toInt b.hours.toInt)
  let minutes ← word32? (f a.minutes.toInt b.minutes.toInt)
  let seconds ← word32? (f a.seconds.toInt b.seconds.toInt)
  return ⟨years, months, days, hours, minutes, seconds⟩

def add? : Interval → Interval → Option Interval :=
  combine? (· + ·)

def sub? : Interval → Interval → Option Interval :=
  combine? (· - ·)

def neg? (a : Interval) : Option Interval :=
  zero.sub? a

-- The length of the clock components.
def clockSeconds (a : Interval) : Int :=
  a.hours.toInt * 3600 + a.minutes.toInt * 60 + a.seconds.toInt

-- The length of the years and months.
def calendarMonths (a : Interval) : Int :=
  a.years.toInt * 12 + a.months.toInt

-- Months count before days, days before seconds.
def order (a b : Interval) : Ordering :=
  (compare a.calendarMonths b.calendarMonths).then <|
    (compare a.days.toInt b.days.toInt).then <|
      compare a.clockSeconds b.clockSeconds

-- The components with their units.
def parts (a : Interval) : List (Int × String) :=
  [(a.years.toInt, "YEARS"), (a.months.toInt, "MONTHS"), (a.days.toInt, "DAYS"),
   (a.hours.toInt, "HOURS"), (a.minutes.toInt, "MINUTES"), (a.seconds.toInt, "SECONDS")]

def partText (part : Int × String) : String :=
  toString part.1 ++ " " ++ part.2

-- The components that are not zero.
def text (a : Interval) : String :=
  match a.parts.filter (·.1 ≠ 0) with
  | []    => partText (0, "SECONDS")
  | parts => " ".intercalate (parts.map partText)

end Interval

end Trivalent
