import Trivalent.Evaluation.Comparing
import Trivalent.Proofs.TimeOfDay

/-!
# Times of day in the order of their texts

Texts of times have two digits for each number, so that they are in the order of the hours, minutes and seconds
which they show. Times are compared by the seconds since midnight. Both orders are the same but for a leap
second, which is written differently from the second before it, but not compared to be any later.
-/

namespace Trivalent

namespace TimeOfDay

variable {s t : TimeOfDay} {m n : Nat} {cs ds : List Char}

/-! ## Texts -/

theorem digitChar_lt_iff : ∀ d < 10, ∀ e < 10, (Nat.digitChar d < Nat.digitChar e ↔ d < e) := by
  decide

theorem digitChar_eq_iff : ∀ d < 10, ∀ e < 10, (Nat.digitChar d = Nat.digitChar e ↔ d = e) := by
  decide

theorem toList_twoDigits (n : Nat) : (twoDigits n).toList = [Nat.digitChar (n / 10), Nat.digitChar (n % 10)] :=
  String.toList_ofList

theorem twoDigits_append_lt_iff (hm : m < 100) (hn : n < 100) :
    (twoDigits m).toList ++ cs < (twoDigits n).toList ++ ds ↔ m < n ∨ m = n ∧ cs < ds := by
  have htens := digitChar_lt_iff (m / 10) (by omega) (n / 10) (by omega)
  have htens' := digitChar_eq_iff (m / 10) (by omega) (n / 10) (by omega)
  have hones := digitChar_lt_iff (m % 10) (by omega) (n % 10) (by omega)
  have hones' := digitChar_eq_iff (m % 10) (by omega) (n % 10) (by omega)
  simp only [toList_twoDigits, List.cons_append, List.nil_append, List.cons_lt_cons_iff, htens, htens', hones,
    hones']
  by_cases h : cs < ds
  case pos =>
    simp only [h, and_true]
    omega
  case neg =>
    simp only [h, and_false, or_false]
    omega

theorem twoDigits_append_eq_iff (hm : m < 100) (hn : n < 100) :
    (twoDigits m).toList ++ cs = (twoDigits n).toList ++ ds ↔ m = n ∧ cs = ds := by
  have htens := digitChar_eq_iff (m / 10) (by omega) (n / 10) (by omega)
  have hones := digitChar_eq_iff (m % 10) (by omega) (n % 10) (by omega)
  simp only [toList_twoDigits, List.cons_append, List.nil_append, List.cons.injEq, htens, hones, ← and_assoc]
  refine and_congr_left fun _ => ?_
  omega

theorem toList_text (t : TimeOfDay) :
    t.text.toList = (twoDigits t.hour).toList ++ ':' :: ((twoDigits t.minute).toList ++
      ':' :: ((twoDigits t.second).toList ++ [])) := by
  simp [text]

-- The numbers of a time have two digits.
theorem shown_lt (t : TimeOfDay) : t.hour < 100 ∧ t.minute < 100 ∧ t.second < 100 := by
  have := t.hour_le
  have := t.minute_le
  have := t.second_le
  omega

theorem text_lt_iff :
    s.text < t.text ↔ s.hour < t.hour ∨ s.hour = t.hour ∧
      (s.minute < t.minute ∨ s.minute = t.minute ∧ s.second < t.second) := by
  have ⟨hh, hm, hs⟩ := s.shown_lt
  have ⟨hh', hm', hs'⟩ := t.shown_lt
  rw [String.lt_iff, toList_text, toList_text, twoDigits_append_lt_iff hh hh', List.cons_lt_cons_iff,
    twoDigits_append_lt_iff hm hm', List.cons_lt_cons_iff, twoDigits_append_lt_iff hs hs']
  simp

theorem text_eq_iff : s.text = t.text ↔ s.hour = t.hour ∧ s.minute = t.minute ∧ s.second = t.second := by
  have ⟨hh, hm, hs⟩ := s.shown_lt
  have ⟨hh', hm', hs'⟩ := t.shown_lt
  rw [← String.toList_inj, toList_text, toList_text, twoDigits_append_eq_iff hh hh', List.cons.injEq,
    twoDigits_append_eq_iff hm hm', List.cons.injEq, twoDigits_append_eq_iff hs hs']
  simp

/-! ## Comparison -/

-- One of the times is written as second 59, the other one as the leap second that follows it.
def Abuts (s t : TimeOfDay) : Prop :=
  s.hour = t.hour ∧ s.minute = t.minute ∧ (s.second = 59 ∧ t.second = 60 ∨ s.second = 60 ∧ t.second = 59)

-- The second of the minute, and whether it is written as the next one.
theorem second_cases (t : TimeOfDay) :
    t.second = t.seconds % 60 ∨ t.second = 60 ∧ t.seconds % 60 = 59 := by
  have hlt := t.nanos_lt
  have hleap := t.leap
  simp only [second, secondNanos] at *
  omega

theorem seconds_as_written (s t : TimeOfDay) :
    (s.seconds = t.seconds ↔ s.text = t.text ∨ s.Abuts t) ∧
    (s.seconds < t.seconds ↔ s.text < t.text ∧ ¬s.Abuts t) := by
  have := s.clock_seconds
  have := t.clock_seconds
  have := s.minute_le
  have := t.minute_le
  have := s.second_cases
  have := t.second_cases
  rw [text_eq_iff, text_lt_iff, Abuts]
  constructor <;> omega

-- Times are compared as their texts, except that a leap second is equal to the second before it.
theorem compared_as_written (s t : TimeOfDay) :
    (Comparing.time (.time s) (.time t) .equal = .ok (some true) ↔ s.text = t.text ∨ s.Abuts t) ∧
    (Comparing.time (.time s) (.time t) .less = .ok (some true) ↔ s.text < t.text ∧ ¬s.Abuts t) := by
  simp only [Comparing.time, order, Comparison.test, Except.ok.injEq, Option.some.injEq, beq_iff_eq,
    Nat.compare_eq_eq, Nat.compare_eq_lt]
  exact seconds_as_written s t

-- The last second of a day and the leap second after it are read from different texts, and are equal.
theorem leap_second_compared_equal :
    ∃ s t, ofText "23:59:59" = .ok s ∧ ofText "23:59:60" = .ok t ∧ s.text ≠ t.text ∧ s.text < t.text ∧
      Comparing.time (.time s) (.time t) .equal = .ok (some true) ∧
      Comparing.time (.time s) (.time t) .less = .ok (some false) := by
  refine ⟨⟨86399, 0, by decide, by decide, by decide⟩, ⟨86399, 1000000000, by decide, by decide, by decide⟩, ?_⟩
  exact ⟨rfl, rfl, by decide, by decide, rfl, rfl⟩

end TimeOfDay

end Trivalent
