import Trivalent.Evaluation.Calculating
import Trivalent.Standard

/-!
# Calculating with integers

The result of an operation on integers is the one of mathematics, or there is an error if no word holds it.
Quotients are cut off towards zero. A quotient and its remainder are found together or not at all, and lead
back to the dividend.
-/

namespace Trivalent

-- The outcome of an operation whose result is `z`. Either a word holds the result or there is the error.
inductive Exact (z : Int) (overflow : EvalError) : Except EvalError Value → Prop
  | held : i.toInt = z → Exact z overflow (.ok (.integer i))
  | none : (∀ i : Int64, i.toInt ≠ z) → Exact z overflow (.error overflow)

namespace Exact

variable {z : Int} {err : EvalError} {o : Except EvalError Value}

theorem eq_ok (h : Exact z err o) {i : Int64} (hi : i.toInt = z) : o = .ok (.integer i) := by
  cases h
  case held hj => rw [Int64.toInt_inj.mp (hj.trans hi.symm)]
  case none hn => exact absurd hi (hn i)

theorem eq_error_iff (h : Exact z err o) : o = .error err ↔ ¬∃ i : Int64, i.toInt = z := by
  cases h
  case held i hi => simp [← hi, Int64.toInt_inj]
  case none hn   => simpa using hn

end Exact

-- The words are the integers between the least one and the greatest one.
theorem exists_word_iff {z : Int} :
    (∃ i : Int64, i.toInt = z) ↔ -0x8000000000000000 ≤ z ∧ z < 0x8000000000000000 := by
  constructor
  case mp =>
    intro ⟨i, hi⟩
    subst hi
    exact ⟨i.le_toInt, i.toInt_lt⟩
  case mpr =>
    intro ⟨lo, hi⟩
    exact ⟨Int64.ofInt z, Int64.toInt_ofInt_of_le lo hi⟩

namespace Calculating

variable {target : DataType} {l r q m : Int64}

-- The error of an operation whose result no word holds.
def overflow (o : Operation) (l r : Int64) : EvalError :=
  .integerOverflow o.symbol (.integer l) (.integer r)

theorem checkedInteger_exact (o : Operation) (l r : Int64) (z : Int) :
    Exact z (overflow o l r) (checkedInteger o l r z) := by
  rw [checkedInteger]
  split
  case h_1 i hi => exact .held (word64?_eq_some_iff.mp hi)
  case h_2 hn =>
    apply Exact.none
    intro i hi
    simp [word64?_eq_some_iff.mpr hi] at hn

theorem numeric_integers (ht : target.name ≠ "NUMERIC") (l r : Int64) (o : Operation) :
    numeric target (.integer l) (.integer r) o = integer target l r o :=
  if_neg ht

/-! ## Quotients and remainders -/

theorem toInt_ne_zero (hr : r ≠ 0) : r.toInt ≠ 0 :=
  fun h => hr (Int64.toInt_inj.mp h)

theorem natAbs_tmod_lt (a : Int) {b : Int} (hb : b ≠ 0) : (a.tmod b).natAbs < b.natAbs := by
  rw [Int.natAbs_tmod]
  exact Nat.mod_lt _ (Int.natAbs_pos.mpr hb)

-- The remainder is zero or has the sign of the dividend.
theorem tmod_eq_zero_or_sign (a b : Int) : a.tmod b = 0 ∨ (a.tmod b).sign = a.sign := by
  rw [← Int.sign_eq_zero_iff_zero, Int.sign_tmod]
  split
  case isTrue  => exact .inl rfl
  case isFalse => exact .inr rfl

-- Only the least word has a quotient that no word holds, and only by minus one.
theorem exists_quotient_iff (hr : r ≠ 0) :
    (∃ q : Int64, q.toInt = l.toInt.tdiv r.toInt) ↔ ¬(l = Int64.minValue ∧ r = -1) := by
  have hl : l = Int64.minValue ↔ l.toInt = -0x8000000000000000 := Int64.toInt_inj.symm
  have hr1 : r = -1 ↔ r.toInt = -1 := Int64.toInt_inj.symm
  have hr0 := toInt_ne_zero hr
  have lo := l.le_toInt
  have hi := l.toInt_lt
  rw [exists_word_iff, hl, hr1]
  generalize l.toInt = a, r.toInt = b at *
  by_cases hb : b = 1 ∨ b = -1
  case pos =>
    cases hb
    case inl hb => simp [hb]; omega
    case inr hb => simp [hb, Int.tdiv_neg]; omega
  case neg =>
    have hq : (a.tdiv b).natAbs ≤ a.natAbs / 2 := by
      rw [Int.natAbs_tdiv]
      exact Nat.div_le_div_left (by omega) (by decide)
    omega

theorem exists_remainder (hr : r ≠ 0) : ∃ m : Int64, m.toInt = l.toInt.tmod r.toInt := by
  have hm := natAbs_tmod_lt l.toInt (toInt_ne_zero hr)
  have lo := r.le_toInt
  have hi := r.toInt_lt
  apply exists_word_iff.mpr
  omega

-- The product of divisor and quotient lies between zero and the dividend.
theorem exists_product (l r : Int64) : ∃ p : Int64, p.toInt = l.toInt.tdiv r.toInt * r.toInt := by
  have hd := Int.tdiv_mul_add_tmod l.toInt r.toInt
  have hm : (l.toInt.tmod r.toInt).natAbs ≤ l.toInt.natAbs := by
    rw [Int.natAbs_tmod]
    exact Nat.mod_le _ _
  have hs : 0 ≤ l.toInt ∧ 0 ≤ l.toInt.tmod r.toInt ∨ l.toInt ≤ 0 ∧ l.toInt.tmod r.toInt ≤ 0 := by
    cases Int.le_total 0 l.toInt
    case inl h => exact .inl ⟨h, Int.tmod_nonneg _ h⟩
    case inr h =>
      have hn := Int.tmod_nonneg r.toInt (Int.neg_nonneg_of_nonpos h)
      rw [Int.neg_tmod] at hn
      exact .inr ⟨h, Int.nonpos_of_neg_nonneg hn⟩
  have lo := l.le_toInt
  have hi := l.toInt_lt
  apply exists_word_iff.mpr
  omega

theorem divide_exact (hr : r ≠ 0) (target : DataType) (l : Int64) :
    Exact (l.toInt.tdiv r.toInt) (overflow .divide l r) (integer target l r .divide) := by
  have h := checkedInteger_exact .divide l r (l.toInt.tdiv r.toInt)
  simpa [integer, toInt_ne_zero hr] using h

-- A remainder is found if its quotient is.
theorem modulo_of_quotient (hr : r ≠ 0) (target : DataType) (hq : q.toInt = l.toInt.tdiv r.toInt)
    (hm : m.toInt = l.toInt.tmod r.toInt) : integer target l r .modulo = .ok (.integer m) := by
  have hd := (checkedInteger_exact .modulo l r (l.toInt.tdiv r.toInt)).eq_ok hq
  have hc := (checkedInteger_exact .modulo l r (l.toInt.tmod r.toInt)).eq_ok hm
  simp only [integer, toInt_ne_zero hr, if_false, hd, hc]
  rfl

theorem modulo_of_not_quotient (hr : r ≠ 0) (target : DataType)
    (hq : ¬∃ q : Int64, q.toInt = l.toInt.tdiv r.toInt) :
    integer target l r .modulo = .error (overflow .modulo l r) := by
  have hd := (checkedInteger_exact .modulo l r (l.toInt.tdiv r.toInt)).eq_error_iff.mpr hq
  simp only [integer, toInt_ne_zero hr, if_false, hd]
  rfl

-- The product of quotient and divisor and the remainder add up to the dividend, in mathematics and by the
-- operations themselves.
theorem dividend_of_quotient (target : DataType) (hq : q.toInt = l.toInt.tdiv r.toInt)
    (hm : m.toInt = l.toInt.tmod r.toInt) :
    q.toInt * r.toInt + m.toInt = l.toInt ∧
      ∃ p, integer target q r .times = .ok (.integer p) ∧
        integer target p m .plus = .ok (.integer l) := by
  have hd : q.toInt * r.toInt + m.toInt = l.toInt := by
    rw [hq, hm]
    exact Int.tdiv_mul_add_tmod ..
  have ⟨p, hp⟩ := exists_product l r
  rw [← hq] at hp
  have hl : l.toInt = p.toInt + m.toInt := by omega
  refine ⟨hd, p, ?product, ?sum⟩
  case product => exact (checkedInteger_exact .times q r _).eq_ok hp
  case sum     => exact (checkedInteger_exact .plus p m _).eq_ok hl

-- Operations on integers give the integer that they give in mathematics, or the error of an overflow if no
-- word holds it. Nothing is divided by zero. There is a remainder if and only if there is a quotient, which
-- only the least word and minus one do not have. The remainder is less than the divisor and has the sign of
-- the dividend, to which it leads back from the quotient.
theorem numeric_exact (ht : target.name ≠ "NUMERIC") (l r : Int64) :
    let calculate := numeric target (.integer l) (.integer r)
    (Exact (l.toInt + r.toInt) (overflow .plus l r) (calculate .plus) ∧
      Exact (l.toInt - r.toInt) (overflow .minus l r) (calculate .minus) ∧
      Exact (l.toInt * r.toInt) (overflow .times l r) (calculate .times) ∧
      Exact (-l.toInt) (overflow .unaryMinus l r) (calculate .unaryMinus)) ∧
    (r = 0 →
      calculate .divide = .error .divisionByZero ∧ calculate .modulo = .error .divisionByZero) ∧
    (r ≠ 0 →
      Exact (l.toInt.tdiv r.toInt) (overflow .divide l r) (calculate .divide) ∧
      ((∃ v, calculate .modulo = .ok v) ↔ ∃ v, calculate .divide = .ok v) ∧
      (l = Int64.minValue ∧ r = -1 →
        calculate .divide = .error (overflow .divide l r) ∧
        calculate .modulo = .error (overflow .modulo l r)) ∧
      (¬(l = Int64.minValue ∧ r = -1) →
        ∃ q m p : Int64, calculate .divide = .ok (.integer q) ∧ calculate .modulo = .ok (.integer m) ∧
          q.toInt * r.toInt + m.toInt = l.toInt ∧ m.toInt.natAbs < r.toInt.natAbs ∧
          (m.toInt = 0 ∨ m.toInt.sign = l.toInt.sign) ∧
          numeric target (.integer q) (.integer r) .times = .ok (.integer p) ∧
          numeric target (.integer p) (.integer m) .plus = .ok (.integer l))) := by
  simp only [numeric_integers ht]
  refine ⟨⟨?plus, ?minus, ?times, ?negative⟩, fun hr => ?zero, fun hr => ?quotient⟩
  case plus | minus | times | negative => exact checkedInteger_exact ..
  case zero =>
    subst hr
    exact ⟨rfl, rfl⟩
  case quotient =>
    have hd := divide_exact hr target l
    have ⟨m, hm⟩ := exists_remainder (l := l) hr
    by_cases hq : ∃ q : Int64, q.toInt = l.toInt.tdiv r.toInt
    case pos =>
      have hc := (exists_quotient_iff hr).mp hq
      have ⟨q, hq⟩ := hq
      have hdivide := hd.eq_ok hq
      have hmodulo := modulo_of_quotient hr target hq hm
      have ⟨hl, p, hp⟩ := dividend_of_quotient target hq hm
      have hlt : m.toInt.natAbs < r.toInt.natAbs := hm ▸ natAbs_tmod_lt l.toInt (toInt_ne_zero hr)
      have hs : m.toInt = 0 ∨ m.toInt.sign = l.toInt.sign := hm ▸ tmod_eq_zero_or_sign ..
      refine ⟨hd, ⟨fun _ => ⟨_, hdivide⟩, fun _ => ⟨_, hmodulo⟩⟩, fun h => absurd h hc, fun _ => ?_⟩
      exact ⟨q, m, p, hdivide, hmodulo, hl, hlt, hs, hp⟩
    case neg =>
      have hc := Decidable.not_not.mp (mt (exists_quotient_iff hr).mpr hq)
      have hdivide := hd.eq_error_iff.mpr hq
      have hmodulo := modulo_of_not_quotient hr target hq
      refine ⟨hd, ?_, fun _ => ⟨hdivide, hmodulo⟩, fun h => absurd hc h⟩
      simp [hdivide, hmodulo]

-- Seven is divided by minus two, and the least word by minus one.
theorem numeric_exact_least :
    Standard.integer.name ≠ "NUMERIC" ∧
      (∃ q m p : Int64, numeric Standard.integer (.integer 7) (.integer (-2)) .divide = .ok (.integer q) ∧
        numeric Standard.integer (.integer 7) (.integer (-2)) .modulo = .ok (.integer m) ∧
        (q = -3 ∧ m = 1 ∧ p = 6) ∧
        numeric Standard.integer (.integer q) (.integer (-2)) .times = .ok (.integer p) ∧
        numeric Standard.integer (.integer p) (.integer m) .plus = .ok (.integer 7)) ∧
      numeric Standard.integer (.integer Int64.minValue) (.integer (-1)) .divide =
        .error (overflow .divide Int64.minValue (-1)) ∧
      numeric Standard.integer (.integer Int64.minValue) (.integer (-1)) .modulo =
        .error (overflow .modulo Int64.minValue (-1)) := by
  have ht : Standard.integer.name ≠ "NUMERIC" := by decide
  have ⟨_, _, _, hquotient⟩ := (numeric_exact ht 7 (-2)).2.2 (by decide)
  have ⟨_, _, hleast, _⟩ := (numeric_exact ht Int64.minValue (-1)).2.2 (by decide)
  have ⟨q, m, p, hd, hm, _, _, _, hp, hs⟩ := hquotient (by decide)
  have hv : q = -3 ∧ m = 1 ∧ p = 6 := by
    cases hd
    cases hm
    cases hp
    decide
  exact ⟨ht, ⟨q, m, p, hd, hm, hv, hp, hs⟩, hleast ⟨rfl, rfl⟩⟩

end Calculating

end Trivalent
