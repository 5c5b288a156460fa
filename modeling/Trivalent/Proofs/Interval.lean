import Trivalent.Evaluation.Calculating
import Trivalent.Proofs.Calculating.Integer
import Trivalent.Proofs.Comparing.Coherence
import Trivalent.Standard

/-!
# Intervals

Intervals are added component by component, but compared by their months, days and seconds, each of which puts
components of different signs and sizes together. These three measures are sums of the components, so that
adding an interval to both sides moves both sides alike and negation turns the order over.
-/

namespace Trivalent

namespace Interval

variable {a b c a' b' : Interval}

/-! ## Components -/

-- The amounts of the six components.
def amounts (a : Interval) : List Int :=
  a.parts.map (·.1)

theorem exists_amounts_iff {zs : List Int} (h : zs.length = 6) :
    (∃ a : Interval, a.amounts = zs) ↔ ∀ z ∈ zs, ∃ i : Int32, i.toInt = z := by
  match zs, h with
  | [years, months, days, hours, minutes, seconds], _ =>
    simp only [List.forall_mem_cons, List.not_mem_nil, false_implies, implies_true, and_true]
    constructor
    case mp =>
      intro ⟨a, ha⟩
      simp only [amounts, parts, List.map_cons, List.map_nil, List.cons.injEq, and_true] at ha
      have ⟨hy, hmo, hd, hh, hmi, hs⟩ := ha
      exact ⟨⟨_, hy⟩, ⟨_, hmo⟩, ⟨_, hd⟩, ⟨_, hh⟩, ⟨_, hmi⟩, ⟨_, hs⟩⟩
    case mpr =>
      intro ⟨⟨y, hy⟩, ⟨mo, hmo⟩, ⟨d, hd⟩, ⟨h, hh⟩, ⟨mi, hmi⟩, ⟨s, hs⟩⟩
      exact ⟨⟨y, mo, d, h, mi, s⟩, by simp [amounts, parts, *]⟩

theorem combine?_eq_some_iff {f : Int → Int → Int} :
    combine? f a b = some c ↔ c.amounts = List.zipWith f a.amounts b.amounts := by
  simp only [combine?, amounts, parts, List.map_cons, List.map_nil, List.zipWith_cons_cons,
    List.zipWith_nil_left, bind, pure, Option.bind_eq_some_iff, word32?_eq_some_iff, List.cons.injEq,
    and_true]
  constructor
  case mp =>
    intro ⟨_, hy, _, hmo, _, hd, _, hh, _, hmi, _, hs, h⟩
    cases h
    exact ⟨hy, hmo, hd, hh, hmi, hs⟩
  case mpr =>
    intro ⟨hy, hmo, hd, hh, hmi, hs⟩
    exact ⟨_, hy, _, hmo, _, hd, _, hh, _, hmi, _, hs, rfl⟩

theorem combine?_eq_none_iff {f : Int → Int → Int} :
    combine? f a b = none ↔
      ∃ z ∈ List.zipWith f a.amounts b.amounts, ∀ i : Int32, i.toInt ≠ z := by
  have hl : (List.zipWith f a.amounts b.amounts).length = 6 := by simp [amounts, parts]
  have hn : combine? f a b = none ↔ ¬∃ c, combine? f a b = some c := by
    simp [Option.eq_none_iff_forall_ne_some]
  rw [hn]
  simp only [combine?_eq_some_iff, exists_amounts_iff hl]
  push Not
  rfl

-- The amounts of an interval are those of the sum less those of the other summand.
theorem sub?_of_add? (h : a.add? b = some c) : c.sub? b = some a := by
  rw [add?, combine?_eq_some_iff] at h
  rw [sub?, combine?_eq_some_iff, h]
  simp [amounts, parts]

/-! ## Measures -/

theorem measures_of_add? (h : a.add? b = some c) :
    c.calendarMonths = a.calendarMonths + b.calendarMonths ∧
      c.days.toInt = a.days.toInt + b.days.toInt ∧
      c.clockSeconds = a.clockSeconds + b.clockSeconds := by
  rw [add?, combine?_eq_some_iff] at h
  simp only [amounts, parts, List.map_cons, List.map_nil, List.zipWith_cons_cons, List.cons.injEq] at h
  simp only [calendarMonths, clockSeconds]
  omega

theorem measures_of_neg? (h : a.neg? = some c) :
    c.calendarMonths = -a.calendarMonths ∧ c.days.toInt = -a.days.toInt ∧
      c.clockSeconds = -a.clockSeconds := by
  have hz : (0 : Int32).toInt = 0 := rfl
  rw [neg?, sub?, combine?_eq_some_iff] at h
  simp only [amounts, parts, zero, hz, List.map_cons, List.map_nil, List.zipWith_cons_cons,
    List.cons.injEq] at h
  simp only [calendarMonths, clockSeconds]
  omega

theorem word64?_eq_some {z : Int} (lo : -0x8000000000000000 ≤ z) (hi : z < 0x8000000000000000) :
    ∃ i, word64? z = some i ∧ i.toInt = z := by
  have ⟨i, hz⟩ := exists_word_iff.mpr ⟨lo, hi⟩
  exact ⟨i, word64?_eq_some_iff.mpr hz, hz⟩

-- The length of the years and months, if it is computed with words.
def monthsWord? (a : Interval) : Option Int64 := do
  let years ← word64? (a.years.toInt * 12)
  word64? (years.toInt + a.months.toInt)

-- The length of the clock components, if it is computed with words.
def clockWord? (a : Interval) : Option Int64 := do
  let hours   ← word64? (a.hours.toInt * 3600)
  let minutes ← word64? (a.minutes.toInt * 60)
  let whole   ← word64? (hours.toInt + minutes.toInt)
  word64? (whole.toInt + a.seconds.toInt)

theorem monthsWord?_eq_some (a : Interval) : ∃ i, a.monthsWord? = some i ∧ i.toInt = a.calendarMonths := by
  have := a.years.le_toInt
  have := a.years.toInt_lt
  have := a.months.le_toInt
  have := a.months.toInt_lt
  have ⟨years, hy, hyears⟩ := word64?_eq_some (z := a.years.toInt * 12) (by omega) (by omega)
  have ⟨whole, hw, hwhole⟩ := word64?_eq_some (z := years.toInt + a.months.toInt) (by omega) (by omega)
  refine ⟨whole, ?_, by rw [hwhole, hyears, calendarMonths]⟩
  simp only [monthsWord?, hy, hw, Option.bind_eq_bind, Option.bind_some]

theorem clockWord?_eq_some (a : Interval) : ∃ i, a.clockWord? = some i ∧ i.toInt = a.clockSeconds := by
  have := a.hours.le_toInt
  have := a.hours.toInt_lt
  have := a.minutes.le_toInt
  have := a.minutes.toInt_lt
  have := a.seconds.le_toInt
  have := a.seconds.toInt_lt
  have ⟨hours, hh, hhours⟩ := word64?_eq_some (z := a.hours.toInt * 3600) (by omega) (by omega)
  have ⟨minutes, hm, hminutes⟩ := word64?_eq_some (z := a.minutes.toInt * 60) (by omega) (by omega)
  have ⟨whole, hw, hwhole⟩ := word64?_eq_some (z := hours.toInt + minutes.toInt) (by omega) (by omega)
  have ⟨clock, hc, hclock⟩ := word64?_eq_some (z := whole.toInt + a.seconds.toInt) (by omega) (by omega)
  refine ⟨clock, ?_, by rw [hclock, hwhole, hhours, hminutes, clockSeconds]⟩
  simp only [clockWord?, hh, hm, hw, hc, Option.bind_eq_bind, Option.bind_some]

-- The length of the clock components in milliseconds fits a word, too.
theorem clockMillis?_eq_some (a : Interval) : ∃ i, word64? (a.clockSeconds * 1000) = some i := by
  have := a.hours.le_toInt
  have := a.hours.toInt_lt
  have := a.minutes.le_toInt
  have := a.minutes.toInt_lt
  have := a.seconds.le_toInt
  have := a.seconds.toInt_lt
  have ⟨i, hi, _⟩ := word64?_eq_some (z := a.clockSeconds * 1000)
    (by rw [clockSeconds]; omega) (by rw [clockSeconds]; omega)
  exact ⟨i, hi⟩

-- Three words by which intervals can be compared.
structure Key where
  months : Int64
  days   : Int64
  clock  : Int64

def Key.order (k l : Key) : Ordering :=
  (compare k.months.toInt l.months.toInt).then <|
    (compare k.days.toInt l.days.toInt).then <|
      compare k.clock.toInt l.clock.toInt

-- The measures of the interval, if they are computed with words.
def key? (a : Interval) : Option Key := do
  let months ← a.monthsWord?
  let clock  ← a.clockWord?
  return ⟨months, a.days.toInt64, clock⟩

theorem key?_eq_some (a : Interval) :
    ∃ k, a.key? = some k ∧ k.months.toInt = a.calendarMonths ∧ k.days.toInt = a.days.toInt ∧
      k.clock.toInt = a.clockSeconds := by
  have ⟨months, hm, hmonths⟩ := a.monthsWord?_eq_some
  have ⟨clock, hc, hclock⟩ := a.clockWord?_eq_some
  refine ⟨⟨months, a.days.toInt64, clock⟩, ?_, hmonths, Int32.toInt_toInt64 _, hclock⟩
  simp only [key?, hm, hc, Option.bind_eq_bind, Option.bind_some, Option.pure_def]

theorem key?_order (a b : Interval) :
    ∃ k l, a.key? = some k ∧ b.key? = some l ∧ k.order l = a.order b := by
  have ⟨k, hk, hkm, hkd, hkc⟩ := a.key?_eq_some
  have ⟨l, hl, hlm, hld, hlc⟩ := b.key?_eq_some
  refine ⟨k, l, hk, hl, ?_⟩
  rw [Key.order, order, hkm, hkd, hkc, hlm, hld, hlc]

/-! ## Order -/

-- Two pairs whose measures differ alike are in the same order.
theorem order_eq_of_sub_eq (hm : a'.calendarMonths - b'.calendarMonths = a.calendarMonths - b.calendarMonths)
    (hd : a'.days.toInt - b'.days.toInt = a.days.toInt - b.days.toInt)
    (hs : a'.clockSeconds - b'.clockSeconds = a.clockSeconds - b.clockSeconds) :
    a'.order b' = a.order b := by
  rw [order, order, Comparing.compare_eq_of_sub_eq hm, Comparing.compare_eq_of_sub_eq hd,
    Comparing.compare_eq_of_sub_eq hs]

theorem order_add (ha : a.add? c = some a') (hb : b.add? c = some b') : a'.order b' = a.order b := by
  have ⟨_, _, _⟩ := measures_of_add? ha
  have ⟨_, _, _⟩ := measures_of_add? hb
  apply order_eq_of_sub_eq <;> omega

theorem order_neg (ha : a.neg? = some a') (hb : b.neg? = some b') : a'.order b' = b.order a := by
  have ⟨_, _, _⟩ := measures_of_neg? ha
  have ⟨_, _, _⟩ := measures_of_neg? hb
  apply order_eq_of_sub_eq <;> omega

theorem order_eq_iff :
    a.order b = .eq ↔ a.calendarMonths = b.calendarMonths ∧ a.days.toInt = b.days.toInt ∧
      a.clockSeconds = b.clockSeconds := by
  simp only [order, Ordering.then_eq_eq, Int.compare_eq_eq]

end Interval

namespace Calculating

variable {o : Operation} {l r v : Value} {a : Option Interval}

theorem checkedInterval_eq_ok : checkedInterval o l r a = .ok v ↔ ∃ b, a = some b ∧ v = .interval b := by
  cases a
  case none   => simp [checkedInterval]
  case some b => simp [checkedInterval, eq_comm]

theorem checkedInterval_eq_error : (∃ err, checkedInterval o l r a = .error err) ↔ a = none := by
  cases a <;> simp [checkedInterval]

theorem time_negative (target : DataType) (a : Interval) (r : Value) :
    time target (.interval a) r .unaryMinus = checkedInterval .unaryMinus (.interval a) r a.neg? := by
  cases r <;> rfl

end Calculating

namespace Interval

-- The comparison of the two intervals says that the first is at most the second.
def AtMost (a b : Interval) : Prop :=
  Comparing.time (.interval a) (.interval b) .lessOrEqual = .ok (some true)

theorem atMost_iff {a b : Interval} : a.AtMost b ↔ (a.order b).isLE := by
  simp only [AtMost, Comparing.time, Except.ok.injEq, Option.some.injEq]
  cases a.order b <;> decide

theorem atMost_total (a b : Interval) : a.AtMost b ∨ b.AtMost a := by
  have hswap : b.order a = (a.order b).swap := Std.OrientedCmp.eq_swap
  rw [atMost_iff, atMost_iff, hswap]
  cases a.order b <;> decide

theorem compared_equal {a b : Interval} :
    Comparing.time (.interval a) (.interval b) .equal = .ok (some true) ↔ a.order b = .eq := by
  simp [Comparing.time, Comparison.test]

-- Intervals are added component by component, with an error if and only if no word holds one of the sums.
-- Two intervals are compared by three words each, which can always be computed. Their order is total. It is
-- kept if an interval is added on both sides, and turned over if both sides are. Intervals that are equal in
-- this order shift times alike.
theorem arithmetic_keeps_order (target : DataType) :
    let plus (l r : Value) := Calculating.time target l r .plus
    let minus (l r : Value) := Calculating.time target l r .minus
    let negative (l r : Value) := Calculating.time target l r .unaryMinus
    (∀ a b : Interval,
      ((∃ err, plus (.interval a) (.interval b) = .error err) ↔
        ∃ z ∈ a.amounts.zipWith (· + ·) b.amounts, ∀ i : Int32, i.toInt ≠ z) ∧
      ∀ s, plus (.interval a) (.interval b) = .ok s → minus s (.interval b) = .ok (.interval a)) ∧
    (∀ a b : Interval, ∃ k l, a.key? = some k ∧ b.key? = some l ∧
      ∀ op, Comparing.time (.interval a) (.interval b) op = .ok (some (op.test (k.order l)))) ∧
    ((∀ a, AtMost a a) ∧
      (∀ a b, AtMost a b ∨ AtMost b a) ∧
      (∀ a b c, AtMost a b → AtMost b c → AtMost a c)) ∧
    (∀ a b c s t, plus (.interval a) (.interval c) = .ok s → plus (.interval b) (.interval c) = .ok t →
      ∀ op, Comparing.time s t op = Comparing.time (.interval a) (.interval b) op) ∧
    (∀ a b u v s t, negative (.interval a) u = .ok s → negative (.interval b) v = .ok t →
      ∀ op, Comparing.time s t op = Comparing.time (.interval b) (.interval a) op) ∧
    (∀ a b, Comparing.time (.interval a) (.interval b) .equal = .ok (some true) →
      ∀ t, plus (.time t) (.interval a) = plus (.time t) (.interval b) ∧
        plus (.interval a) (.time t) = plus (.interval b) (.time t) ∧
        minus (.time t) (.interval a) = minus (.time t) (.interval b)) := by
  intro plus minus negative
  refine ⟨fun a b => ⟨?overflow, fun s hs => ?back⟩, fun a b => ?compared, ⟨?refl, ?total, ?trans⟩,
    fun a b c s t hs ht op => ?sums, fun a b u v s t hs ht op => ?negatives, fun a b h t => ?times⟩
  case overflow => exact Calculating.checkedInterval_eq_error.trans combine?_eq_none_iff
  case back =>
    have ⟨c, hc, hv⟩ := Calculating.checkedInterval_eq_ok.mp hs
    subst hv
    exact Calculating.checkedInterval_eq_ok.mpr ⟨a, sub?_of_add? hc, rfl⟩
  case compared =>
    have ⟨k, l, hk, hl, ho⟩ := key?_order a b
    exact ⟨k, l, hk, hl, fun op => by rw [ho, Comparing.time]⟩
  case refl  => exact fun a => (a.atMost_total a).elim id id
  case total => exact atMost_total
  case trans => exact fun a b c => Comparing.intervals_ordered.trans a b c .lessOrEqual (.inr rfl)
  case sums =>
    have ⟨a', ha, hs⟩ := Calculating.checkedInterval_eq_ok.mp hs
    have ⟨b', hb, ht⟩ := Calculating.checkedInterval_eq_ok.mp ht
    subst hs ht
    simp only [Comparing.time, order_add ha hb]
  case negatives =>
    simp only [negative, Calculating.time_negative, Calculating.checkedInterval_eq_ok] at hs ht
    have ⟨a', ha, hs⟩ := hs
    have ⟨b', hb, ht⟩ := ht
    subst hs ht
    simp only [Comparing.time, order_neg ha hb]
  case times =>
    have ⟨_, _, hc⟩ := order_eq_iff.mp (compared_equal.mp h)
    simp only [plus, minus, Calculating.time, TimeOfDay.add, TimeOfDay.sub, hc, and_self]

-- An hour is more than half an hour, also if a month less ninety minutes is added, and equal to sixty minutes.
theorem arithmetic_keeps_order_hour :
    let plus (l r : Value) := Calculating.time Standard.time l r .plus
    let minus (l r : Value) := Calculating.time Standard.time l r .minus
    let negative (l r : Value) := Calculating.time Standard.time l r .unaryMinus
    let hour : Value := .interval ⟨0, 0, 0, 1, 0, 0⟩
    let sixty : Value := .interval ⟨0, 0, 0, 0, 60, 0⟩
    let thirty : Value := .interval ⟨0, 0, 0, 0, 30, 0⟩
    let month : Value := .interval ⟨0, 1, 0, 0, -90, 0⟩
    (plus hour month = .ok (.interval ⟨0, 1, 0, 1, -90, 0⟩) ∧
      plus thirty month = .ok (.interval ⟨0, 1, 0, 0, -60, 0⟩) ∧
      negative hour hour = .ok (.interval ⟨0, 0, 0, -1, 0, 0⟩) ∧
      negative thirty thirty = .ok (.interval ⟨0, 0, 0, 0, -30, 0⟩) ∧
      AtMost ⟨0, 0, 0, 0, 30, 0⟩ ⟨0, 0, 0, 0, 60, 0⟩ ∧
      AtMost ⟨0, 0, 0, 0, 60, 0⟩ ⟨0, 0, 0, 1, 0, 0⟩ ∧
      Comparing.time sixty hour .equal = .ok (some true)) ∧
    minus (.interval ⟨0, 1, 0, 1, -90, 0⟩) month = .ok hour ∧
    Comparing.time (.interval ⟨0, 1, 0, 1, -90, 0⟩) (.interval ⟨0, 1, 0, 0, -60, 0⟩) .greater =
      Comparing.time hour thirty .greater ∧
    Comparing.time (.interval ⟨0, 0, 0, -1, 0, 0⟩) (.interval ⟨0, 0, 0, 0, -30, 0⟩) .less =
      Comparing.time thirty hour .less ∧
    AtMost ⟨0, 0, 0, 0, 30, 0⟩ ⟨0, 0, 0, 1, 0, 0⟩ ∧
    ∀ t, plus (.time t) sixty = plus (.time t) hour := by
  have hts : AtMost ⟨0, 0, 0, 0, 30, 0⟩ ⟨0, 0, 0, 0, 60, 0⟩ := rfl
  have hsh : AtMost ⟨0, 0, 0, 0, 60, 0⟩ ⟨0, 0, 0, 1, 0, 0⟩ := rfl
  have ⟨hsums, _, ⟨_, _, htrans⟩, hadded, hnegated, htimes⟩ := arithmetic_keeps_order Standard.time
  refine ⟨⟨rfl, rfl, rfl, rfl, hts, hsh, rfl⟩, ?back, ?added, ?negated, ?atMost, fun t => ?shifted⟩
  case back    => exact (hsums ⟨0, 0, 0, 1, 0, 0⟩ ⟨0, 1, 0, 0, -90, 0⟩).2 _ rfl
  case added   => exact hadded _ _ ⟨0, 1, 0, 0, -90, 0⟩ _ _ rfl rfl .greater
  case negated =>
    exact hnegated _ _ (.interval ⟨0, 0, 0, 1, 0, 0⟩) (.interval ⟨0, 0, 0, 0, 30, 0⟩) _ _ rfl rfl .less
  case atMost  => exact htrans _ _ _ hts hsh
  case shifted => exact (htimes _ _ rfl t).1

end Interval

end Trivalent
