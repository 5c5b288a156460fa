import Trivalent.Proofs.Double.Rounding

/-!
# Comparing numbers

Two integers are compared exactly, an integer and a double as doubles. Integers keep their order when they
become doubles, but large ones that differ can become one double. Being equal and being at most are therefore
passed on through numbers of both kinds, unless two integers are compared through a double that both become.
-/

namespace Trivalent

namespace Double

variable {x y z : Float} {c : Comparison} {i k : Int64}

/-! ## Doubles -/

-- The doubles have an order, and the comparison holds for it.
def Satisfies (c : Comparison) (x y : Float) : Prop :=
  (order? x y).map c.test = some true
  deriving Decidable

theorem satisfies_iff :
    Satisfies c x y ↔ ∃ p q, place? x = some p ∧ place? y = some q ∧ c.test (p.order q) = true := by
  simp only [Satisfies, Option.map_eq_some_iff, order?_eq_some]
  constructor
  case mp =>
    intro ⟨o, ⟨p, q, hp, hq, ho⟩, hc⟩
    exact ⟨p, q, hp, hq, ho ▸ hc⟩
  case mpr =>
    intro ⟨p, q, hp, hq, hc⟩
    exact ⟨_, ⟨p, q, hp, hq, rfl⟩, hc⟩

theorem satisfies_equal : Satisfies .equal x y ↔ order? x y = some .eq := by
  simp [Satisfies, Comparison.test]

theorem satisfies_trans (hc : c = .equal ∨ c = .lessOrEqual) (hx : Satisfies c x y) (hy : Satisfies c y z) :
    Satisfies c x z := by
  have ⟨p, q, hp, hq, hx⟩ := satisfies_iff.mp hx
  have ⟨q', r, hq', hr, hy⟩ := satisfies_iff.mp hy
  have heq : q' = q := Option.some_inj.mp (hq'.symm.trans hq)
  subst heq
  exact satisfies_iff.mpr ⟨p, r, hp, hr, Comparing.test_trans hc hx hy⟩

theorem satisfies_antisymm (hx : Satisfies .lessOrEqual x y) (hy : Satisfies .lessOrEqual y x) :
    order? x y = some .eq := by
  have ⟨p, q, hp, hq, hx⟩ := satisfies_iff.mp hx
  have ⟨q', p', hq', hp', hy⟩ := satisfies_iff.mp hy
  have heq : p' = p := Option.some_inj.mp (hp'.symm.trans hp)
  have heq' : q' = q := Option.some_inj.mp (hq'.symm.trans hq)
  have hswap : q.order p = (p.order q).swap := Std.OrientedCmp.eq_swap
  subst heq heq'
  rw [hswap] at hy
  refine order?_eq_some.mpr ⟨_, _, hp, hq, ?_⟩
  cases ho : Place.order _ _ <;> simp [ho, Comparison.test] at hx hy ⊢

/-! ## Integers as doubles -/

theorem test_equal {i k : Int} : Comparison.equal.test (compare i k) ↔ i = k := by
  simp [Comparison.test]

theorem test_lessOrEqual {i k : Int} : Comparison.lessOrEqual.test (compare i k) ↔ i ≤ k := by
  rw [Comparison.test, bne_iff_ne, ne_eq, Int.compare_eq_gt, Int.not_lt]

theorem satisfies_ofInt (hc : c = .equal ∨ c = .lessOrEqual) (h : c.test (compare i.toInt k.toInt)) :
    Satisfies c (ofInt i.toInt) (ofInt k.toInt) := by
  rw [Satisfies, order?_ofInt, Option.map_some, Option.some.injEq]
  cases hc
  case inl hc =>
    subst hc
    rw [test_equal] at *
    rw [h]
  case inr hc =>
    subst hc
    rw [test_lessOrEqual] at *
    exact signedGrade_le h

-- Integers that are not the same become one double.
structure Merged (i : Int64) (x : Float) (k : Int64) : Prop where
  left  : order? (ofInt i.toInt) x = some .eq
  right : order? x (ofInt k.toInt) = some .eq
  apart : i ≠ k

theorem merged_of_satisfies (hc : c = .equal ∨ c = .lessOrEqual) (hi : Satisfies c (ofInt i.toInt) x)
    (hk : Satisfies c x (ofInt k.toInt)) (hn : ¬c.test (compare i.toInt k.toInt)) : Merged i x k := by
  cases hc
  case inl hc =>
    subst hc
    rw [test_equal, Int64.toInt_inj] at hn
    exact ⟨satisfies_equal.mp hi, satisfies_equal.mp hk, hn⟩
  case inr hc =>
    subst hc
    rw [test_lessOrEqual, Int.not_le] at hn
    have hki : Satisfies .lessOrEqual (ofInt k.toInt) (ofInt i.toInt) :=
      satisfies_ofInt (.inr rfl) (test_lessOrEqual.mpr (Int.le_of_lt hn))
    -- The double lies between the two doubles, which are in the other order.
    refine ⟨satisfies_antisymm hi ?left, satisfies_antisymm hk ?right, fun heq => ?apart⟩
    case left  => exact satisfies_trans (.inr rfl) hk hki
    case right => exact satisfies_trans (.inr rfl) hki hi
    case apart => exact Int.lt_irrefl _ (heq ▸ hn)

-- Integers up to two to the power of 53 are doubles of their own.
theorem Merged.large (h : Merged i x k) : 2 ^ 53 < i.toInt.natAbs ∨ 2 ^ 53 < k.toInt.natAbs := by
  have ⟨hi, hk, hn⟩ := h
  have heq := satisfies_trans (.inl rfl) (satisfies_equal.mpr hi) (satisfies_equal.mpr hk)
  rw [satisfies_equal, order?_ofInt, Option.some.injEq, Int.compare_eq_eq] at heq
  rw [ne_eq, ← Int64.toInt_inj] at hn
  by_contra hsmall
  obtain hlt | hlt : i.toInt < k.toInt ∨ k.toInt < i.toInt := by omega
  all_goals
    have := signedGrade_lt hlt (by omega) (by omega)
    omega

end Double

namespace Comparing

open Double (Satisfies Merged)

variable {a b c : Value} {op : Comparison}

/-! ## Numbers -/

-- The number as a double.
def double? : Value → Option Float
  | .integer i => some (Double.ofInt i.toInt)
  | .numeric x => some x
  | _          => none

theorem double?_eq_some :
    double? a = some x ↔ (∃ i, a = .integer i ∧ Double.ofInt i.toInt = x) ∨ a = .numeric x := by
  cases a <;> simp [double?]

theorem satisfies_of_numeric (ho : op = .equal ∨ op = .lessOrEqual) (h : numeric a b op = .ok (some true)) :
    ∃ x y, double? a = some x ∧ double? b = some y ∧ Satisfies op x y := by
  unfold numeric at h
  split at h
  case h_1 i k =>
    simp only [Except.ok.injEq, Option.some.injEq] at h
    exact ⟨_, _, rfl, rfl, Double.satisfies_ofInt ho h⟩
  case h_5 => simp [invalid] at h
  all_goals exact ⟨_, _, rfl, rfl, Except.ok.inj h⟩

theorem numeric_of_satisfies (ha : double? a = some x) (hb : double? b = some y) (h : Satisfies op x y) :
    numeric a b op = .ok (some true) ∨ ∃ i k, a = .integer i ∧ b = .integer k := by
  cases double?_eq_some.mp ha <;> cases double?_eq_some.mp hb
  case inl.inl ha hb =>
    have ⟨i, ha, _⟩ := ha
    have ⟨k, hb, _⟩ := hb
    exact .inr ⟨i, k, ha, hb⟩
  case inl.inr ha hb =>
    have ⟨i, ha, hx⟩ := ha
    subst ha hx hb
    exact .inl (congrArg Except.ok h)
  case inr.inl ha hb =>
    have ⟨k, hb, hy⟩ := hb
    subst ha hb hy
    exact .inl (congrArg Except.ok h)
  case inr.inr ha hb =>
    subst ha hb
    exact .inl (congrArg Except.ok h)

-- Two integers are compared through a third number.
theorem integers_trans_or (ho : op = .equal ∨ op = .lessOrEqual) {i k : Int64}
    (hi : numeric (.integer i) b op = .ok (some true)) (hk : numeric b (.integer k) op = .ok (some true)) :
    numeric (.integer i) (.integer k) op = .ok (some true) ∨
      numeric (.integer i) (.integer k) op = .ok (some false) ∧ ∃ x, b = .numeric x ∧ Merged i x k := by
  have ⟨_, x, _, hx, _⟩ := satisfies_of_numeric ho hi
  cases double?_eq_some.mp hx
  case inl hb =>
    have ⟨j, hb, _⟩ := hb
    subst hb
    exact .inl (integers_ordered.trans i j k op ho hi hk)
  case inr hb =>
    subst hb
    by_cases h : op.test (compare i.toInt k.toInt)
    case pos => exact .inl (congrArg (Except.ok ∘ some) h)
    case neg =>
      have hm := Double.merged_of_satisfies ho (Except.ok.inj hi) (Except.ok.inj hk) h
      exact .inr ⟨congrArg (Except.ok ∘ some) (Bool.not_eq_true _ ▸ h), x, rfl, hm⟩

-- Numbers that are equal to, or at most, a number that is so to a third one are so to the third one themselves.
-- The exception are two different integers that become the same double, if they are compared through it. Then
-- one of them is beyond two to the power of 53.
theorem numbers_trans (ho : op = .equal ∨ op = .lessOrEqual) (hab : numeric a b op = .ok (some true))
    (hbc : numeric b c op = .ok (some true)) :
    numeric a c op = .ok (some true) ∨
      numeric a c op = .ok (some false) ∧
        ∃ i x k, a = .integer i ∧ b = .numeric x ∧ c = .integer k ∧ Merged i x k ∧
          (2 ^ 53 < i.toInt.natAbs ∨ 2 ^ 53 < k.toInt.natAbs) := by
  have ⟨x, y, hx, hy, hxy⟩ := satisfies_of_numeric ho hab
  have ⟨y', z, hy', hz, hyz⟩ := satisfies_of_numeric ho hbc
  have heq : y' = y := Option.some_inj.mp (hy'.symm.trans hy)
  subst heq
  cases numeric_of_satisfies hx hz (Double.satisfies_trans ho hxy hyz)
  case inl h => exact .inl h
  case inr h =>
    have ⟨i, k, ha, hc⟩ := h
    subst ha hc
    cases integers_trans_or ho hab hbc
    case inl h => exact .inl h
    case inr h =>
      have ⟨hfalse, x, hb, hm⟩ := h
      exact .inr ⟨hfalse, i, x, k, rfl, hb, rfl, hm, hm.large⟩

-- One is at most one and a half, which is at most two.
theorem numbers_trans_half :
    numeric (.integer 1) (.numeric 1.5) .lessOrEqual = .ok (some true) ∧
    numeric (.numeric 1.5) (.integer 2) .lessOrEqual = .ok (some true) ∧
    numeric (.integer 1) (.integer 2) .lessOrEqual = .ok (some true) := by
  have hlower : Satisfies .lessOrEqual (Double.ofInt 1) 1.5 := by decide +kernel
  have hupper : Satisfies .lessOrEqual 1.5 (Double.ofInt 2) := by decide +kernel
  have hab : numeric (.integer 1) (.numeric 1.5) .lessOrEqual = .ok (some true) := congrArg Except.ok hlower
  have hbc : numeric (.numeric 1.5) (.integer 2) .lessOrEqual = .ok (some true) := congrArg Except.ok hupper
  exact ⟨hab, hbc, (numbers_trans (.inr rfl) hab hbc).resolve_right fun h => nomatch h.1⟩

-- Two to the power of 53 is a double, and the next integer becomes the same one.
theorem merged_beyond_digits :
    let next : Value := .integer 9007199254740993
    let double : Value := .numeric 9007199254740992.0
    let power : Value := .integer 9007199254740992
    (numeric next double .equal = .ok (some true) ∧ numeric double power .equal = .ok (some true) ∧
      numeric next power .equal = .ok (some false)) ∧
    (numeric next double .lessOrEqual = .ok (some true) ∧ numeric double power .lessOrEqual = .ok (some true) ∧
      numeric next power .lessOrEqual = .ok (some false)) := by
  have hm : Merged 9007199254740993 9007199254740992.0 9007199254740992 :=
    ⟨by decide +kernel, by decide +kernel, by decide⟩
  simp only [numeric, hm.left, hm.right]
  exact ⟨⟨rfl, rfl, rfl⟩, rfl, rfl, rfl⟩

end Comparing

end Trivalent
