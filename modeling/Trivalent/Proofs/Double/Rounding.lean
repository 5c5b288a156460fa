import Mathlib
import Trivalent.Proofs.Double.Order

/-!
# Rounding integers to doubles

An integer becomes a double by a shift of its digits to a mantissa of 53 bits and by rounding what was shifted
out. Both keep the order of integers.
-/

namespace Trivalent

namespace Double

open Float.Model Float.Model.UnpackedFloat

/-! ## Mantissas -/

section Mantissas

variable {a b : ExtendedMantissa}

-- The mantissa with two more digits for its residual bits.
def weight (a : ExtendedMantissa) : Nat :=
  4 * a.mantissa + 2 * a.roundBit.toNat + a.stickyBit.toNat

theorem weight_shiftRightOne (a : ExtendedMantissa) :
    weight a.shiftRightOne = 2 * (weight a / 4) + min 1 (weight a % 4) := by
  match a with
  | ⟨m, half, sticky⟩ =>
    have hm : (m % 2 != 0).toNat = m % 2 := by
      obtain h | h : m % 2 = 0 ∨ m % 2 = 1 := by omega
      all_goals simp [h]
    simp only [weight, ExtendedMantissa.shiftRightOne, hm]
    cases half <;> cases sticky <;> simp <;> omega

theorem weight_shift (h : weight a ≤ weight b) (k : Nat) : weight (a >>> k) ≤ weight (b >>> k) := by
  induction k
  case zero => exact h
  case succ k ih =>
    change weight (a >>> k).shiftRightOne ≤ weight (b >>> k).shiftRightOne
    rw [weight_shiftRightOne, weight_shiftRightOne]
    omega

theorem mantissa_shift (a : ExtendedMantissa) (k : Nat) : (a >>> k).mantissa = a.mantissa / 2 ^ k := by
  induction k
  case zero => exact (Nat.div_one _).symm
  case succ k ih =>
    change (a >>> k).mantissa / 2 = _
    rw [ih, Nat.div_div_eq_div_mul, Nat.pow_succ]

theorem mantissa_eq (a : ExtendedMantissa) : a.mantissa = weight a / 4 := by
  match a with
  | ⟨m, half, sticky⟩ => cases half <;> cases sticky <;> simp [weight] <;> omega

-- Half of the last digit is rounded to the even neighbour.
theorem roundedMantissa_eq (a : ExtendedMantissa) :
    a.roundedMantissa = (weight a + 1 + a.mantissa % 2) / 4 := by
  match a with
  | ⟨m, half, sticky⟩ =>
    cases half <;> cases sticky <;>
      simp [weight, ExtendedMantissa.roundedMantissa, ExtendedMantissa.accuracy,
        Accuracy.roundToNearestEven] <;> omega

theorem roundedMantissa_bounds (a : ExtendedMantissa) :
    a.mantissa ≤ a.roundedMantissa ∧ a.roundedMantissa ≤ a.mantissa + 1 := by
  have := mantissa_eq a
  rw [roundedMantissa_eq]
  omega

theorem roundedMantissa_le (h : weight a ≤ weight b) : a.roundedMantissa ≤ b.roundedMantissa := by
  have ha := mantissa_eq a
  have hb := mantissa_eq b
  by_cases hm : a.mantissa = b.mantissa
  case pos =>
    rw [roundedMantissa_eq, roundedMantissa_eq, hm]
    omega
  case neg =>
    have ⟨_, hupper⟩ := roundedMantissa_bounds a
    have ⟨hlower, _⟩ := roundedMantissa_bounds b
    omega

end Mantissas

/-! ## Grades -/

section Grades

variable {m n : Nat}

theorem log2_le (hm : m ≠ 0) (h : m ≤ n) : m.log2 ≤ n.log2 :=
  (Nat.le_log2 (by omega)).mpr (Nat.le_trans (Nat.log2_self_le hm) h)

theorem shiftLeft_ne_zero (hn : n ≠ 0) (k : Nat) : n <<< k ≠ 0 := by
  rw [Nat.shiftLeft_eq]
  exact Nat.mul_ne_zero hn (Nat.pos_iff_ne_zero.mp (Nat.two_pow_pos k))

theorem log2_shiftLeft (hn : n ≠ 0) (k : Nat) : (n <<< k).log2 = n.log2 + k := by
  have hpos := Nat.two_pow_pos k
  rw [Nat.log2_eq_iff (shiftLeft_ne_zero hn k), Nat.shiftLeft_eq]
  constructor
  case left =>
    rw [Nat.pow_add]
    exact Nat.mul_le_mul_right _ (Nat.log2_self_le hn)
  case right =>
    rw [Nat.add_right_comm, Nat.pow_add]
    exact Nat.mul_lt_mul_of_pos_right Nat.lt_log2_self hpos

-- The leading 53 digits of the number and residual bits for the others.
def extended (n : Nat) : ExtendedMantissa :=
  ExtendedMantissa.ofMantissaAndAccuracy (n <<< (52 - n.log2)) .exact >>> (n.log2 - 52)

def significand (n : Nat) : Nat :=
  (extended n).roundedMantissa

theorem extended_mantissa_bounds (hn : n ≠ 0) :
    2 ^ 52 ≤ (extended n).mantissa ∧ (extended n).mantissa < 2 ^ 53 := by
  have hlog := log2_shiftLeft hn (52 - n.log2)
  rw [show n.log2 + (52 - n.log2) = 52 + (n.log2 - 52) by omega] at hlog
  rw [Nat.log2_eq_iff (shiftLeft_ne_zero hn _)] at hlog
  have hpos := Nat.two_pow_pos (n.log2 - 52)
  rw [extended, mantissa_shift, Nat.le_div_iff_mul_le hpos, Nat.div_lt_iff_lt_mul hpos, ← Nat.pow_add,
    ← Nat.pow_add]
  rw [Nat.add_right_comm] at hlog
  exact hlog

theorem significand_bounds (hn : n ≠ 0) : 2 ^ 52 ≤ significand n ∧ significand n ≤ 2 ^ 53 := by
  have ⟨hlower, hupper⟩ := extended_mantissa_bounds hn
  have ⟨hlower', hupper'⟩ := roundedMantissa_bounds (extended n)
  rw [significand]
  omega

theorem significand_exact (h : n.log2 ≤ 52) : significand n = n * 2 ^ (52 - n.log2) := by
  rw [significand, extended, Nat.sub_eq_zero_of_le h, ← Nat.shiftLeft_eq]
  rfl

theorem significand_lt (hn : n ≠ 0) (h : n.log2 ≤ 52) : significand n < 2 ^ 53 := by
  have ⟨_, hupper⟩ := extended_mantissa_bounds hn
  rw [extended, mantissa_shift, Nat.sub_eq_zero_of_le h, Nat.pow_zero, Nat.div_one] at hupper
  rw [significand_exact h, ← Nat.shiftLeft_eq]
  exact hupper

theorem significand_le (h : m ≤ n) (hlog : m.log2 = n.log2) : significand m ≤ significand n := by
  apply roundedMantissa_le
  rw [extended, extended, hlog]
  apply weight_shift
  have := Nat.mul_le_mul_right (2 ^ (52 - n.log2)) h
  simp only [ExtendedMantissa.ofMantissaAndAccuracy, weight, Nat.shiftLeft_eq]
  omega

-- The exponent and the mantissa of the double nearest to the number, put together as digits.
def grade (n : Nat) : Nat :=
  if n = 0 then 0 else n.log2 * 2 ^ 52 + significand n

theorem grade_le (h : m ≤ n) : grade m ≤ grade n := by
  by_cases hm : m = 0
  case pos => simp [grade, hm]
  case neg =>
    have hn : n ≠ 0 := by omega
    have ⟨_, hupper⟩ := significand_bounds hm
    have ⟨hlower, _⟩ := significand_bounds hn
    have hlog := log2_le hm h
    simp only [grade, hm, hn, if_false]
    by_cases heq : m.log2 = n.log2
    case neg => omega
    case pos =>
      have := significand_le h heq
      omega

-- Numbers of at most 53 digits have grades of their own.
theorem grade_lt (h : m < n) (hn : n ≤ 2 ^ 53) : grade m < grade n := by
  have hn' : n ≠ 0 := by omega
  have ⟨hlower, _⟩ := significand_bounds hn'
  by_cases hm : m = 0
  case pos => simp only [grade, hm, hn', if_true, if_false]; omega
  case neg =>
    have hlog : m.log2 < 53 := (Nat.log2_lt hm).mpr (by omega)
    have hlt := significand_lt hm (by omega)
    have hle := log2_le hm (Nat.le_of_lt h)
    simp only [grade, hm, hn', if_false]
    by_cases heq : m.log2 = n.log2
    case neg => omega
    case pos =>
      have := Nat.mul_lt_mul_of_pos_right h (Nat.two_pow_pos (52 - n.log2))
      rw [significand_exact (by omega), significand_exact (by omega), heq]
      omega

theorem grade_pos (hn : n ≠ 0) : 0 < grade n :=
  Nat.lt_of_lt_of_le (grade_lt (m := 0) (n := 1) (by decide) (by decide)) (grade_le (by omega))

end Grades

/-! ## Rounding -/

section Rounding

variable {m n : Nat} {e : Int}

-- The mantissa and the exponent of a double that is neither among the least ones nor infinite.
structure Normal (m : Nat) (e : Int) : Prop where
  lower    : 2 ^ 52 ≤ m
  upper    : m < 2 ^ 53
  least    : -1074 ≤ e
  greatest : e ≤ 971

theorem targetExponent_eq (h : -1021 ≤ e) : Format.binary64.targetExponent e = e - 53 := by
  change max (e - 53) (-1074) = _
  omega

-- A mantissa of more than 53 digits loses the others.
theorem shiftToTargetExponent_eq (m : Nat) (a : Accuracy) (h : -1021 ≤ m.log2 + 1 + e) :
    shiftToTargetExponent .binary64 m e a =
      (ExtendedMantissa.ofMantissaAndAccuracy m a >>> (m.log2 - 52), e + (m.log2 - 52 : Nat)) := by
  have hshift : (Format.binary64.targetExponent (totalExponent m e) - e).toNat = m.log2 - 52 := by
    rw [totalExponent, targetExponent_eq h]
    omega
  rw [shiftToTargetExponent, shiftToExponent, hshift]

-- Rounding up to a power of two makes the exponent greater, but it does not change the grade.
theorem shiftToTargetExponent_significand (lower : 2 ^ 52 ≤ m) (upper : m ≤ 2 ^ 53) (he : -1074 ≤ e) :
    ∃ a e', shiftToTargetExponent .binary64 m e .exact = (a, e') ∧ 2 ^ 52 ≤ a.mantissa ∧
      a.mantissa < 2 ^ 53 ∧ e' * 2 ^ 52 + a.mantissa = e * 2 ^ 52 + m := by
  have hm : m ≠ 0 := by omega
  have hlog : 52 ≤ m.log2 := (Nat.le_log2 hm).mpr lower
  refine ⟨_, _, shiftToTargetExponent_eq m .exact (by omega), ?_⟩
  by_cases hlt : m < 2 ^ 53
  case pos =>
    have : m.log2 < 53 := (Nat.log2_lt hm).mpr hlt
    rw [mantissa_shift, show m.log2 - 52 = 0 by omega]
    simp [ExtendedMantissa.ofMantissaAndAccuracy]
    omega
  case neg =>
    have heq : m = 2 ^ 53 := by omega
    rw [heq, mantissa_shift, Nat.log2_two_pow]
    simp [ExtendedMantissa.ofMantissaAndAccuracy]
    omega

-- A number of fewer than 53 digits is filled up with zeros.
theorem decreaseExponent_eq (n : Nat) :
    decreaseExponent n 0 (Format.binary64.targetExponent (totalExponent n 0)) =
      (n <<< (52 - n.log2), -((52 - n.log2 : Nat) : Int)) := by
  have hshift : (0 - Format.binary64.targetExponent (totalExponent n 0)).toNat = 52 - n.log2 := by
    rw [totalExponent, targetExponent_eq (by omega)]
    omega
  rw [decreaseExponent, hshift, Int.zero_sub]

theorem shiftToTargetExponent_extended (hn : n ≠ 0) :
    shiftToTargetExponent .binary64 (n <<< (52 - n.log2)) (-((52 - n.log2 : Nat) : Int)) .exact =
      (extended n, (n.log2 : Int) - 52) := by
  have hlog := log2_shiftLeft hn (52 - n.log2)
  have hshift : n.log2 + (52 - n.log2) - 52 = n.log2 - 52 := by omega
  rw [shiftToTargetExponent_eq _ _ (by omega), hlog, hshift, extended, Prod.mk.injEq]
  exact ⟨rfl, by omega⟩

theorem round_eq (s : Sign) (hn : n ≠ 0) (hlt : n < 2 ^ 64) :
    ∃ m e hm, UnpackedFloat.round .binary64 s n 0 = .finite s m e hm ∧ Normal m e ∧
      (e + 52) * 2 ^ 52 + m = grade n := by
  have hlog : n.log2 < 64 := (Nat.log2_lt hn).mpr hlt
  have ⟨hlower, hupper⟩ := significand_bounds hn
  have ⟨a, e, ha, hlower', hupper', hgrade⟩ :=
    shiftToTargetExponent_significand hlower hupper (e := n.log2 - 52) (by omega)
  refine ⟨a.mantissa, e, by omega, ?round, ⟨hlower', hupper', by omega, by omega⟩, ?grade⟩
  case round =>
    rw [significand] at ha
    simp only [UnpackedFloat.round, decreaseExponent_eq, roundWithAccuracy,
      shiftToTargetExponent_extended hn, ha]
    exact dif_neg (by omega)
  case grade =>
    simp only [grade, hn, if_false]
    omega

end Rounding

/-! ## Packing -/

section Packing

variable {m : Nat} {e : Int}

-- The bit before the mantissa is not stored.
theorem toNat_append_ofNat (lower : 2 ^ 52 ≤ m) (upper : m < 2 ^ 53) :
    (1#1 ++ BitVec.ofNat 52 m).toNat = m := by
  rw [BitVec.toNat_append, ← Nat.shiftLeft_add_eq_or_of_lt (BitVec.isLt _), BitVec.toNat_ofNat,
    BitVec.toNat_ofNat]
  omega

theorem pack_normal (s : Sign) (hm : 0 < m) (h : Normal m e) :
    UnpackedFloat.pack .binary64 (.finite s m e hm) =
      packComponents .binary64 s (BitVec.ofNat 11 (e + 1075).toNat) (BitVec.ofNat 52 m) := by
  have ⟨lower, upper, least, greatest⟩ := h
  have hlog : m.log2 = 52 := (Nat.log2_eq_iff (by omega)).mpr ⟨lower, upper⟩
  have hbiased : (e + 1023 + 52).toNat = (e + 1075).toNat := by omega
  change (if 2 ^ 11 ≤ (e + 1023 + 52).toNat + 1 then _ else if m.log2 + 1 = 53 then _ else _) = _
  rw [hbiased, hlog, if_neg (by omega), if_pos rfl, ← hbiased]
  rfl

theorem unpack_pack (s : Sign) (hm : 0 < m) (h : Normal m e) :
    UnpackedFloat.unpack .binary64 (UnpackedFloat.pack .binary64 (.finite s m e hm)) = .finite s m e hm := by
  have ⟨lower, upper, least, greatest⟩ := h
  have hexponent : (BitVec.ofNat 11 (e + 1075).toNat).toNat = (e + 1075).toNat := by
    rw [BitVec.toNat_ofNat, Nat.mod_eq_of_lt (by omega)]
  have hnan : BitVec.ofNat 11 (e + 1075).toNat ≠ -1#11 := by
    rw [ne_eq, ← BitVec.toNat_inj, hexponent]
    simp; omega
  have hleast : BitVec.ofNat 11 (e + 1075).toNat ≠ 0#11 := by
    rw [ne_eq, ← BitVec.toNat_inj, hexponent]
    simp; omega
  have hbias : ((e + 1075).toNat : Int) - (1023 + 52) = e := by omega
  rw [pack_normal s hm h]
  simp only [UnpackedFloat.unpack, unpackExponent_packComponents, unpackMantissa_packComponents,
    unpackSign_packComponents, Sign.ofBitVec_toBitVec]
  rw [if_neg hnan, if_neg hleast]
  simp only [hexponent, toNat_append_ofNat lower upper]
  congr 1

end Packing

/-! ## Integers -/

section Integers

variable {i k : Int}

theorem unpack_toFloat {n : Nat} (hn : n ≠ 0) (hlt : n < 2 ^ 64) :
    ∃ m e hm, Normal m e ∧ (e + 52) * 2 ^ 52 + m = grade n ∧
      n.toUInt64.toFloat.toModel.unpack = .finite .positive m e hm ∧
      (-n.toUInt64.toFloat).toModel.unpack = .finite .negative m e hm := by
  have ⟨m, e, hm, hround, hnormal, hgrade⟩ := round_eq .positive hn hlt
  have hword : n.toUInt64.toNat = n := UInt64.toNat_ofNat_of_lt' hlt
  have hpositive : compare (n : Int) 0 = .gt := Int.compare_eq_gt.mpr (by omega)
  have hunpack : n.toUInt64.toFloat.toModel.unpack = .finite .positive m e hm := by
    change UnpackedFloat.unpack _ (UnpackedFloat.pack _
      (UnpackedFloat.normalize .binary64 (n.toUInt64.toNat : Int) 0 .positive)) = _
    rw [hword, UnpackedFloat.normalize, hpositive]
    simp only [Int.toNat_natCast, hround]
    exact unpack_pack .positive hm hnormal
  refine ⟨m, e, hm, hnormal, hgrade, hunpack, ?_⟩
  change UnpackedFloat.unpack _ (UnpackedFloat.pack _ n.toUInt64.toFloat.toModel.unpack.neg) = _
  rw [hunpack]
  exact unpack_pack .negative hm hnormal

theorem ofInt_of_nonneg (h : 0 ≤ i) : ofInt i = i.natAbs.toUInt64.toFloat := by
  cases i
  case ofNat   => rfl
  case negSucc => omega

theorem ofInt_of_neg (h : i < 0) : ofInt i = -i.natAbs.toUInt64.toFloat := by
  cases i
  case ofNat   => exact absurd h (Int.not_lt.mpr (Int.natCast_nonneg _))
  case negSucc => rfl

-- The grade of the amount with the sign of the integer.
def signedGrade (i : Int) : Int :=
  if i < 0 then -grade i.natAbs else grade i.natAbs

theorem signedGrade_le (h : i ≤ k) : signedGrade i ≤ signedGrade k := by
  simp only [signedGrade]
  split <;> split
  case isTrue.isTrue =>
    have := grade_le (m := k.natAbs) (n := i.natAbs) (by omega)
    omega
  case isTrue.isFalse => omega
  case isFalse.isTrue => omega
  case isFalse.isFalse =>
    have := grade_le (m := i.natAbs) (n := k.natAbs) (by omega)
    omega

theorem signedGrade_lt (h : i < k) (hi : -2 ^ 53 ≤ i) (hk : k ≤ 2 ^ 53) : signedGrade i < signedGrade k := by
  simp only [signedGrade]
  split <;> split
  case isTrue.isTrue =>
    have := grade_lt (m := k.natAbs) (n := i.natAbs) (by omega) (by omega)
    omega
  case isTrue.isFalse =>
    have := grade_lt (m := 0) (n := i.natAbs) (by omega) (by omega)
    omega
  case isFalse.isTrue => omega
  case isFalse.isFalse =>
    have := grade_lt (m := i.natAbs) (n := k.natAbs) (by omega) (by omega)
    omega

-- The rank of the place shows the sign of the integer. Exponent and mantissa are the digits of the grade.
structure Placed (i : Int) (p : Place) : Prop where
  grade : signedGrade i = (52 * p.rank + p.exponent) * 2 ^ 52 + p.mantissa
  side  : p.rank = 0 ∧ signedGrade i = 0 ∧ p.mantissa = 0 ∨
          p.rank = 1 ∧ 0 < signedGrade i ∧ 2 ^ 52 ≤ p.mantissa ∧ p.mantissa < 2 ^ 53 ∨
          p.rank = -1 ∧ signedGrade i < 0 ∧ -2 ^ 53 < p.mantissa ∧ p.mantissa ≤ -2 ^ 52

namespace Placed

theorem zero : Placed 0 ⟨0, 0, 0⟩ :=
  ⟨rfl, .inl ⟨rfl, rfl, rfl⟩⟩

theorem positive (hi : 0 < i) (hm : Normal m e) (h : (e + 52) * 2 ^ 52 + m = Double.grade i.natAbs) :
    Placed i ⟨1, e, m⟩ := by
  have hsign : signedGrade i = Double.grade i.natAbs := if_neg (by omega)
  have hpos := grade_pos (n := i.natAbs) (by omega)
  have ⟨_, _, _, _⟩ := hm
  refine ⟨?grade, .inr (.inl ⟨rfl, by omega, ?lower, ?upper⟩)⟩
  all_goals dsimp only; omega

theorem negative (hi : i < 0) (hm : Normal m e) (h : (e + 52) * 2 ^ 52 + m = Double.grade i.natAbs) :
    Placed i ⟨-1, -e, -m⟩ := by
  have hsign : signedGrade i = -Double.grade i.natAbs := if_pos hi
  have hpos := grade_pos (n := i.natAbs) (by omega)
  have ⟨_, _, _, _⟩ := hm
  refine ⟨?grade, .inr (.inr ⟨rfl, by omega, ?lower, ?upper⟩)⟩
  all_goals dsimp only; omega

end Placed

theorem place?_ofInt (lower : -2 ^ 63 ≤ i) (upper : i < 2 ^ 63) :
    ∃ p, place? (ofInt i) = some p ∧ Placed i p := by
  by_cases hi : i = 0
  case pos =>
    subst hi
    exact ⟨_, rfl, .zero⟩
  case neg =>
    have ⟨m, e, hm, hnormal, hgrade, hpositive, hnegative⟩ :=
      unpack_toFloat (n := i.natAbs) (by omega) (by omega)
    by_cases hneg : i < 0
    case pos => exact ⟨_, by rw [place?, ofInt_of_neg hneg, hnegative]; rfl, .negative hneg hnormal hgrade⟩
    case neg =>
      have hpos : 0 < i := by omega
      exact ⟨_, by rw [place?, ofInt_of_nonneg (by omega), hpositive]; rfl, .positive hpos hnormal hgrade⟩

-- Mantissas of one size count less than exponents.
theorem compare_then_compare {a b c d x y : Int} (hlt : b < d + 2 ^ 52) (hlt' : d < b + 2 ^ 52)
    (h : x - y = (a - c) * 2 ^ 52 + (b - d)) : (compare a c).then (compare b d) = compare x y := by
  cases hac : compare a c
  case lt =>
    have := Int.compare_eq_lt.mp hac
    exact (Int.compare_eq_lt.mpr (by omega)).symm
  case gt =>
    have := Int.compare_eq_gt.mp hac
    exact (Int.compare_eq_gt.mpr (by omega)).symm
  case eq =>
    have := Int.compare_eq_eq.mp hac
    exact Comparing.compare_eq_of_sub_eq (by omega)

theorem Placed.order_eq (hi : Placed i p) (hk : Placed k q) :
    p.order q = compare (signedGrade i) (signedGrade k) := by
  have ⟨hi, hi'⟩ := hi
  have ⟨hk, hk'⟩ := hk
  -- Different ranks are grades of different signs, equal ones leave the digits to compare.
  rw [Place.order]
  cases hr : compare p.rank q.rank
  case lt =>
    have := Int.compare_eq_lt.mp hr
    exact (Int.compare_eq_lt.mpr (by omega)).symm
  case gt =>
    have := Int.compare_eq_gt.mp hr
    exact (Int.compare_eq_gt.mpr (by omega)).symm
  case eq =>
    have := Int.compare_eq_eq.mp hr
    exact compare_then_compare (by omega) (by omega) (by omega)

-- Integers are ordered as their grades when they are compared as doubles.
theorem order?_ofInt (i k : Int64) :
    order? (ofInt i.toInt) (ofInt k.toInt) = some (compare (signedGrade i.toInt) (signedGrade k.toInt)) := by
  have ⟨p, hp, hi⟩ := place?_ofInt i.le_toInt i.toInt_lt
  have ⟨q, hq, hk⟩ := place?_ofInt k.le_toInt k.toInt_lt
  exact order?_eq_some.mpr ⟨p, q, hp, hq, hi.order_eq hk⟩

end Integers

end Double

end Trivalent
