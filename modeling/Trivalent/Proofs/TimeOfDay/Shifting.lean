import Trivalent.Proofs.Interval

/-!
# Shifting times of day

Intervals shift a time of day as a hand is turned on a dial of one day. Only their clock components count, and
shifts that follow one another add up. A leap second is no place on this dial. It is left by the first shift
that is not zero, forwards from the second before it and backwards from the second after it.
-/

namespace Trivalent

namespace TimeOfDay

variable {t u v : TimeOfDay} {m n : Int}

/-! ## Moves -/

-- The second time is as many seconds after the first one, on a dial of one day.
structure Moved (t : TimeOfDay) (amount : Int) (u : TimeOfDay) : Prop where
  seconds : (u.seconds : Int) = (t.seconds + amount) % daySeconds
  nanos   : u.nanos = t.nanos

namespace Moved

theorem unique (hu : Moved t n u) (hv : Moved t n v) : u = v := by
  have hs : (u.seconds : Int) = v.seconds := by rw [hu.seconds, hv.seconds]
  ext
  case seconds => exact Int.ofNat_inj.mp hs
  case nanos   => rw [hu.nanos, hv.nanos]

theorem trans (hu : Moved t m u) (hv : Moved u n v) : Moved t (m + n) v where
  seconds := by rw [hv.seconds, hu.seconds, Int.emod_add_emod, Int.add_assoc]
  nanos   := by rw [hv.nanos, hu.nanos]

-- Whole days lead back.
theorem of_dvd (h : (daySeconds : Int) ∣ n) : Moved t n t where
  seconds := by
    have ⟨days, hd⟩ := h
    have hlt := t.seconds_lt
    simp only [daySeconds] at *
    omega
  nanos   := rfl

theorem isLeap (h : Moved t n u) : u.isLeap = t.isLeap := by
  rw [TimeOfDay.isLeap, TimeOfDay.isLeap, h.nanos]

end Moved

theorem isLeap_eq_false : t.isLeap = false ↔ t.nanos < secondNanos := by
  simp [isLeap]

theorem moved_shift (h : t.isLeap = false) (n : Int) : Moved t n (t.shift n) := by
  rw [shift]
  split
  case isTrue hn => exact .of_dvd (hn ▸ Int.dvd_zero _)
  case isFalse =>
    constructor
    case seconds => simp [h, daySeconds]; omega
    case nanos   => exact Nat.mod_eq_of_lt (isLeap_eq_false.mp h)

theorem mod_secondNanos_lt (n : Nat) : n % secondNanos < secondNanos :=
  Nat.mod_lt n (by decide)

theorem isLeap_shift (h : n ≠ 0) : (t.shift n).isLeap = false := by
  rw [shift, if_neg h, isLeap_eq_false]
  exact mod_secondNanos_lt _

theorem shift_shift (h : t.isLeap = false) (m n : Int) : (t.shift m).shift n = t.shift (m + n) := by
  have hm := moved_shift h m
  have hn := moved_shift (hm.isLeap.trans h) n
  exact (hm.trans hn).unique (moved_shift h (m + n))

theorem shift_of_dvd (h : t.isLeap = false) (hn : (daySeconds : Int) ∣ n) : t.shift n = t :=
  (moved_shift h n).unique (.of_dvd hn)

/-! ## Leap seconds -/

theorem mod_nanos_lt (t : TimeOfDay) : t.nanos % secondNanos < 2 * secondNanos := by
  have := mod_secondNanos_lt t.nanos
  omega

theorem mod_nanos_ordinary (t : TimeOfDay) (s : Nat) : secondNanos ≤ t.nanos % secondNanos → s % 60 = 59 :=
  fun h => absurd h (Nat.not_le.mpr (mod_secondNanos_lt _))

theorem next_seconds_lt (t : TimeOfDay) : (t.seconds + 1) % daySeconds < daySeconds :=
  Nat.mod_lt _ (by decide)

-- The time that is not a leap second and keeps the part of the second.
def ordinary (t : TimeOfDay) (s : Nat) (h : s < daySeconds) : TimeOfDay :=
  ⟨s, t.nanos % secondNanos, h, t.mod_nanos_lt, t.mod_nanos_ordinary s⟩

-- The second that a leap second follows.
def secondBefore (t : TimeOfDay) : TimeOfDay :=
  t.ordinary t.seconds t.seconds_lt

-- The second that follows a leap second.
def secondAfter (t : TimeOfDay) : TimeOfDay :=
  t.ordinary ((t.seconds + 1) % daySeconds) t.next_seconds_lt

theorem isLeap_ordinary (t : TimeOfDay) {s : Nat} (h : s < daySeconds) : (t.ordinary s h).isLeap = false :=
  isLeap_eq_false.mpr (mod_secondNanos_lt _)

theorem shift_secondBefore (hn : 0 < n) : t.shift n = t.secondBefore.shift n := by
  have hz : n ≠ 0 := by omega
  have hlt : ¬n < 0 := by omega
  ext
  case seconds => simp [shift, hz, hlt, secondBefore, ordinary]
  case nanos   => simp [shift, hz, secondBefore, ordinary]

theorem shift_secondAfter (h : t.isLeap) (hn : n < 0) : t.shift n = t.secondAfter.shift n := by
  have hz : n ≠ 0 := by omega
  ext
  case seconds =>
    have hleap : t.secondAfter.isLeap = false := t.isLeap_ordinary _
    simp only [shift, hz, if_false, h, hleap, hn]
    simp [secondAfter, ordinary]
  case nanos => simp [shift, hz, secondAfter, ordinary]

theorem moved_secondAfter (t : TimeOfDay) : Moved t.secondBefore 1 t.secondAfter where
  seconds := rfl
  nanos   := rfl

/-! ## Arithmetic -/

theorem plus_interval (target : DataType) (t : TimeOfDay) (a : Interval) :
    Calculating.time target (.time t) (.interval a) .plus = .ok (.time (t.shift a.clockSeconds)) :=
  rfl

theorem minus_interval (target : DataType) (t : TimeOfDay) (a : Interval) :
    Calculating.time target (.time t) (.interval a) .minus = .ok (.time (t.shift (-a.clockSeconds))) :=
  rfl

-- A word holds the seconds of an interval, and another one their milliseconds. Shifting a time always succeeds.
-- It does not depend on the calendar components of the interval or, when adding, on the order of the operands.
-- If the time is no leap second, it moves by the seconds of the interval, so that it moves back when the
-- interval is subtracted again, by the sum when two intervals are added, and not at all by whole days. A leap
-- second that is moved becomes the time reached from the second before it, or backwards from the second after it.
theorem shifts_by_clock (target : DataType) :
    let plus (l r : Value) := Calculating.time target l r .plus
    let minus (l r : Value) := Calculating.time target l r .minus
    let negative (l r : Value) := Calculating.time target l r .unaryMinus
    (∀ a : Interval, ∃ i ms, a.clockWord? = some i ∧ i.toInt = a.clockSeconds ∧
      word64? (i.toInt * 1000) = some ms) ∧
    (∀ (t : TimeOfDay) (a : Interval),
      plus (.interval a) (.time t) = plus (.time t) (.interval a) ∧
      ∀ years months days,
        plus (.time t) (.interval { a with years, months, days }) = plus (.time t) (.interval a) ∧
        minus (.time t) (.interval { a with years, months, days }) = minus (.time t) (.interval a)) ∧
    (∀ t : TimeOfDay, t.isLeap = false → ∀ a : Interval, ∃ u v,
      plus (.time t) (.interval a) = .ok (.time u) ∧ Moved t a.clockSeconds u ∧
      minus (.time t) (.interval a) = .ok (.time v) ∧ Moved t (-a.clockSeconds) v ∧
      minus (.time u) (.interval a) = .ok (.time t) ∧
      (∀ b s, plus (.interval a) (.interval b) = .ok s → plus (.time u) (.interval b) = plus (.time t) s) ∧
      (∀ w s, negative (.interval a) w = .ok s → minus (.time t) (.interval a) = plus (.time t) s) ∧
      ((daySeconds : Int) ∣ a.clockSeconds → u = t ∧ v = t)) ∧
    (∀ t : TimeOfDay, t.isLeap → ∀ a : Interval, a.clockSeconds ≠ 0 →
      (t.secondBefore.isLeap = false ∧ Moved t.secondBefore 1 t.secondAfter) ∧
      (∃ u v, plus (.time t) (.interval a) = .ok (.time u) ∧ u.isLeap = false ∧
        minus (.time t) (.interval a) = .ok (.time v) ∧ v.isLeap = false) ∧
      (0 < a.clockSeconds →
        plus (.time t) (.interval a) = plus (.time t.secondBefore) (.interval a) ∧
        minus (.time t) (.interval a) = minus (.time t.secondAfter) (.interval a)) ∧
      (a.clockSeconds < 0 →
        plus (.time t) (.interval a) = plus (.time t.secondAfter) (.interval a) ∧
        minus (.time t) (.interval a) = minus (.time t.secondBefore) (.interval a))) := by
  intro plus minus negative
  refine ⟨fun a => ?word, fun t a => ⟨rfl, fun _ _ _ => ⟨rfl, rfl⟩⟩, fun t ht a => ?ordinary,
    fun t ht a hn => ?leap⟩
  case word =>
    have ⟨i, hi, hc⟩ := a.clockWord?_eq_some
    have ⟨ms, hms⟩ := a.clockMillis?_eq_some
    exact ⟨i, ms, hi, hc, hc ▸ hms⟩
  case ordinary =>
    have hu := moved_shift ht a.clockSeconds
    have hv := moved_shift ht (-a.clockSeconds)
    refine ⟨t.shift a.clockSeconds, t.shift (-a.clockSeconds), rfl, hu, rfl, hv, ?back, fun b s hs => ?sum,
      fun w s hs => ?negated, fun hd => ⟨?forth, ?whole⟩⟩
    case back =>
      have hback := shift_shift ht a.clockSeconds (-a.clockSeconds)
      rw [Int.add_right_neg, shift_of_dvd ht (Int.dvd_zero _)] at hback
      simp only [minus, minus_interval, hback]
    case sum =>
      have ⟨c, hc, hs⟩ := Calculating.checkedInterval_eq_ok.mp hs
      have ⟨_, _, hclock⟩ := Interval.measures_of_add? hc
      subst hs
      simp only [plus, plus_interval, shift_shift ht, hclock]
    case negated =>
      simp only [negative, Calculating.time_negative, Calculating.checkedInterval_eq_ok] at hs
      have ⟨c, hc, hs⟩ := hs
      have ⟨_, _, hclock⟩ := Interval.measures_of_neg? hc
      subst hs
      simp only [plus, plus_interval, minus, minus_interval, hclock]
    case forth => exact shift_of_dvd ht hd
    case whole => exact shift_of_dvd ht (Int.dvd_neg.mpr hd)
  case leap =>
    refine ⟨⟨t.isLeap_ordinary _, moved_secondAfter t⟩, ?moved, fun hpos => ?forwards, fun hneg => ?backwards⟩
    case moved => exact ⟨_, _, rfl, isLeap_shift hn, rfl, isLeap_shift (by omega)⟩
    case forwards =>
      have hbefore := shift_secondBefore (t := t) hpos
      have hafter := shift_secondAfter ht (Int.neg_neg_of_pos hpos)
      simp only [plus, plus_interval, minus, minus_interval, ← hbefore, ← hafter, and_self]
    case backwards =>
      have hafter := shift_secondAfter ht hneg
      have hbefore := shift_secondBefore (t := t) (Int.neg_pos_of_neg hneg)
      simp only [plus, plus_interval, minus, minus_interval, ← hbefore, ← hafter, and_self]

-- An hour after half past eleven at night it is half past midnight, and an hour before the leap second of
-- midnight it is eleven.
theorem shifts_by_clock_midnight :
    let plus (l r : Value) := Calculating.time Standard.time l r .plus
    let minus (l r : Value) := Calculating.time Standard.time l r .minus
    let negative (l r : Value) := Calculating.time Standard.time l r .unaryMinus
    let hour : Value := .interval ⟨0, 0, 0, 1, 0, 0⟩
    let back : Value := .interval ⟨0, 0, 0, -1, 0, 0⟩
    let late : TimeOfDay := ⟨84600, 0, by decide, by decide, by decide⟩
    let leap : TimeOfDay := ⟨86399, 1000000000, by decide, by decide, by decide⟩
    (late.isLeap = false ∧ leap.isLeap ∧ plus hour hour = .ok (.interval ⟨0, 0, 0, 2, 0, 0⟩) ∧
      negative hour hour = .ok back) ∧
    (∃ u : TimeOfDay, plus (.time late) hour = .ok (.time u) ∧ (u.seconds : Int) = (84600 + 3600) % 86400 ∧
      u.nanos = 0 ∧ minus (.time u) hour = .ok (.time late) ∧
      plus (.time u) hour = plus (.time late) (.interval ⟨0, 0, 0, 2, 0, 0⟩)) ∧
    minus (.time late) hour = plus (.time late) back ∧
    minus (.time leap) hour = minus (.time ⟨0, 0, by decide, by decide, by decide⟩) hour := by
  intro plus minus negative hour back late leap
  have ⟨_, _, hordinary, hleap⟩ := shifts_by_clock Standard.time
  have ⟨u, _, hu, hmoved, _, _, hback, hsum, hnegated, _⟩ := hordinary late rfl ⟨0, 0, 0, 1, 0, 0⟩
  refine ⟨⟨rfl, rfl, rfl, rfl⟩, ⟨u, hu, hmoved.seconds, hmoved.nanos, hback, ?twice⟩, ?negated, ?leap⟩
  case twice   => exact hsum ⟨0, 0, 0, 1, 0, 0⟩ _ rfl
  case negated => exact hnegated hour _ rfl
  case leap =>
    have hmidnight : leap.secondAfter = ⟨0, 0, by decide, by decide, by decide⟩ := by decide
    rw [← hmidnight]
    exact ((hleap leap rfl ⟨0, 0, 0, 1, 0, 0⟩ (by decide)).2.2.1 (by decide)).2

end TimeOfDay

end Trivalent
