import Trivalent.Proofs.Outcome
import Trivalent.TimeOfDay.Reading

/-!
# Times of day and their texts

Reading the text of a time gives the time again if it has no part of a second. A leap second has none.
-/

namespace Trivalent

theorem Text.skipBlanks_cons {cs : List Char} (h : isBlank c = false) : skipBlanks (c :: cs) = c :: cs := by
  simp [skipBlanks, h]

namespace TimeOfDay

variable {t : TimeOfDay}

-- The digit that the character of a digit stands for.
theorem digit_of_digitChar : ∀ d < 10,
    Text.isBlank (Nat.digitChar d) = false ∧ (Nat.digitChar d).isDigit ∧
      (Nat.digitChar d).toNat - '0'.toNat = d := by
  decide

theorem readNumber_twoDigits (hn : n ≤ greatest) (hg : greatest < 100) (cs : List Char) :
    readNumber greatest ((twoDigits n).toList ++ cs) = .ok (n, cs) := by
  have ⟨hblank, htens, htens'⟩ := digit_of_digitChar (n / 10) (by omega)
  have ⟨_, hones, hones'⟩ := digit_of_digitChar (n % 10) (by omega)
  have hv : 10 * (n / 10) + n % 10 = n := Nat.div_add_mod ..
  rw [twoDigits, String.toList_ofList, List.cons_append, readNumber, Text.skipBlanks_cons hblank]
  simp only [List.cons_append, List.nil_append, htens, hones, if_pos, htens', hones', hv, hn]

theorem of?_self (t : TimeOfDay) : of? t.seconds t.nanos = some t :=
  dif_pos ⟨t.seconds_lt, t.nanos_lt, t.leap⟩

theorem hour_le (t : TimeOfDay) : t.hour ≤ 23 := by
  have := t.seconds_lt
  simp only [hour, daySeconds] at *
  omega

theorem minute_le (t : TimeOfDay) : t.minute ≤ 59 := by
  simp only [minute]
  omega

theorem second_le (t : TimeOfDay) : t.second ≤ 60 := by
  have := t.nanos_lt
  simp only [second, secondNanos] at *
  omega

theorem clock_seconds (t : TimeOfDay) : t.hour * 3600 + t.minute * 60 + t.seconds % 60 = t.seconds := by
  simp only [hour, minute]
  omega

-- The clock shows 60 for a leap second, which is held as the second before.
theorem ofClock?_self (h : secondNanos ∣ t.nanos) : ofClock? t.hour t.minute t.second = some t := by
  by_cases hz : t.nanos = 0
  case pos =>
    have hs : t.second = t.seconds % 60 := by simp [second, hz]
    have hn : t.second ≠ 60 := by omega
    rw [ofClock?, if_neg hn, hs, clock_seconds, ← hz]
    exact of?_self t
  case neg =>
    have hle : secondNanos ≤ t.nanos := Nat.le_of_dvd (Nat.pos_of_ne_zero hz) h
    have hone : t.nanos = secondNanos := by
      have hlt := t.nanos_lt
      simp only [secondNanos] at *
      omega
    have hleap := t.leap hle
    have hs : t.second = 60 := by simp [second, hone, hleap, secondNanos]
    rw [ofClock?, if_pos hs, ← hleap, clock_seconds, ← hone]
    exact of?_self t

theorem ofText_text (h : secondNanos ∣ t.nanos) : ofText t.text = .ok t := by
  have hhour := readNumber_twoDigits t.hour_le (by decide)
  have hminute := readNumber_twoDigits t.minute_le (by decide)
  have hsecond := readNumber_twoDigits t.second_le (by decide) []
  rw [List.append_nil] at hsecond
  have hcolon (cs : List Char) : readColon (":".toList ++ cs) = .ok cs := rfl
  simp only [ofText, text, String.toList_append, List.append_assoc]
  refine bind_eq_ok.mpr ⟨_, hhour _, bind_eq_ok.mpr ⟨_, hcolon _, ?_⟩⟩
  refine bind_eq_ok.mpr ⟨_, hminute _, bind_eq_ok.mpr ⟨_, hcolon _, ?_⟩⟩
  refine bind_eq_ok.mpr ⟨_, hsecond, ?_⟩
  rw [ofClock?_self h]
  rfl

end TimeOfDay

end Trivalent
