import Mathlib.Data.List.Basic
import Trivalent.Proofs.Action.Parallel
import Trivalent.Proofs.Logic.Predicate
import Trivalent.Standard

/-!
# Coherent comparisons

The six comparisons fit together, whichever builtin way there is to compare the values. A comparison and its
complement give opposite answers or have no answer, and values of a kind that is ordered can change sides.
-/

namespace Trivalent

namespace Comparator

-- How values of a type are compared with others, for the comparators that are builtin.
def builtin? :
    Comparator → Option (DataType → Value → Value → Comparison → Except EvalError (Option Bool))
  | numeric     => some fun _ => Comparing.numeric
  | string      => some fun _ => Comparing.string
  | boolean     => some Comparing.boolean
  | time        => some fun _ => Comparing.time
  | enumeration => some Comparing.enumeration
  | host _      => none

end Comparator

namespace Comparing

/-! ## Complements -/

-- How two values are compared: not at all, by their order, if they have one, or by their equality alone.
inductive Decision (compare : Comparison → Except EvalError (Option Bool)) : Prop
  | meaningless : (∀ c, ∃ err, compare c = .error err) → Decision compare
  | order o     : (∀ c, compare c = .ok (Option.map c.test o)) → Decision compare
  | equality b  : compare .equal = .ok (some b) → compare .notEqual = .ok (some !b) →
                  (∀ c, c ≠ .equal → c ≠ .notEqual → ∃ err, compare c = .error err) → Decision compare

namespace Decision

variable {compare : Comparison → Except EvalError (Option Bool)}

theorem complement (h : Decision compare) (c : Comparison) :
    Parallel (fun a b => b = a.map (!·)) (compare c) (compare c.complement) := by
  cases h
  case meaningless h => exact .of_errors (h _) (h _)
  case order o h =>
    rw [h, h]
    apply Parallel.ok
    cases o <;> simp
  case equality b he hn h =>
    cases c
    case equal    => rw [he, Comparison.complement, hn]; exact .ok rfl
    case notEqual => rw [hn, Comparison.complement, he]; exact .ok (by simp)
    all_goals exact .of_errors (h _ nofun nofun) (h _ (by decide) (by decide))

theorem lessOrEqual (h : Decision compare) (hb : compare .lessOrEqual = .ok (some b)) :
    b = true ↔ compare .less = .ok (some true) ∨ compare .equal = .ok (some true) := by
  cases h
  case meaningless h =>
    have ⟨_, hc⟩ := h .lessOrEqual
    simp [hb] at hc
  case order o h =>
    simp only [h, Except.ok.injEq] at hb ⊢
    cases o
    case none   => contradiction
    case some o => cases o <;> cases hb <;> decide
  case equality h =>
    have ⟨_, hc⟩ := h .lessOrEqual nofun nofun
    simp [hb] at hc

end Decision

theorem numeric_decision (l r : Value) : Decision (numeric l r) := by
  unfold numeric
  split
  case h_1 => exact .order (some _) fun _ => rfl
  case h_5 => exact .meaningless fun _ => ⟨_, rfl⟩
  all_goals exact .order _ fun _ => rfl

theorem string_decision (l r : Value) : Decision (string l r) := by
  unfold string
  split
  case h_1 => exact .order (some _) fun _ => rfl
  case h_2 => exact .meaningless fun _ => ⟨_, rfl⟩

theorem boolean_decision (t : DataType) (l r : Value) : Decision (boolean t l r) := by
  unfold boolean
  split
  case h_1 a b =>
    refine .equality (a == b) rfl rfl fun c he hn => ?_
    cases c <;> first | contradiction | exact ⟨_, rfl⟩
  case h_2 => exact .meaningless fun _ => ⟨_, rfl⟩

theorem time_decision (l r : Value) : Decision (time l r) := by
  unfold time
  split
  case h_3 => exact .meaningless fun _ => ⟨_, rfl⟩
  all_goals exact .order (some _) fun _ => rfl

theorem enumeration_decision (t : DataType) (l r : Value) : Decision (enumeration t l r) := by
  unfold enumeration
  split
  case h_2 => exact .meaningless fun _ => ⟨_, rfl⟩
  case h_1 a b =>
    split
    case h_1 => exact .order (some _) fun _ => rfl
    case h_2 =>
      refine .equality (a == b) rfl rfl fun c he hn => ?_
      cases c <;> first | contradiction | exact ⟨_, rfl⟩

theorem builtin_decision {comparator : Comparator} (h : comparator.builtin? = some f) (t : DataType)
    (l r : Value) : Decision (f t l r) := by
  cases comparator <;> cases h
  case numeric     => exact numeric_decision l r
  case string      => exact string_decision l r
  case boolean     => exact boolean_decision t l r
  case time        => exact time_decision l r
  case enumeration => exact enumeration_decision t l r

/-! ## Constants -/

section Constants

variable {t : DataType} {a b : String}

theorem idxOf?_eq_some_idxOf {constants : List String} (h : a ∈ constants) :
    constants.idxOf? a = some (constants.idxOf a) := by
  have ⟨i, hi⟩ := Option.isSome_iff_exists.mp (List.isSome_idxOf?.mpr h)
  rw [List.idxOf_eq_getD_idxOf?, hi, Option.getD_some]

theorem enumeration_of_mem (ha : a ∈ t.constants) (hb : b ∈ t.constants) (c : Comparison) :
    enumeration t (.string a) (.string b) c =
      .ok (some (c.test (compare (t.constants.idxOf a) (t.constants.idxOf b)))) := by
  simp only [enumeration, idxOf?_eq_some_idxOf ha, idxOf?_eq_some_idxOf hb]

-- Texts that are not both constants are equal or not.
theorem enumeration_of_not_mem (h : ¬(a ∈ t.constants ∧ b ∈ t.constants)) (c : Comparison) :
    enumeration t (.string a) (.string b) c =
      match c with
      | .equal    => .ok (some (a == b))
      | .notEqual => .ok (some (a != b))
      | c         => invalid c (.string a) (.string b) := by
  simp only [enumeration]
  split
  case h_1 ha hb =>
    have ha := List.isSome_idxOf?.mp (Option.isSome_of_eq_some ha)
    have hb := List.isSome_idxOf?.mp (Option.isSome_of_eq_some hb)
    exact absurd ⟨ha, hb⟩ h
  case h_2 => cases c <;> rfl

-- A constant is equal to itself even if it is declared twice.
theorem enumeration_equal (t : DataType) (a b : String) :
    enumeration t (.string a) (.string b) .equal = .ok (some (a == b)) := by
  by_cases h : a ∈ t.constants ∧ b ∈ t.constants
  case neg => rw [enumeration_of_not_mem h]
  case pos =>
    have hi : compare (t.constants.idxOf a) (t.constants.idxOf b) = .eq ↔ a = b := by
      rw [Nat.compare_eq_eq, List.idxOf_inj h.1]
    rw [enumeration_of_mem h.1 h.2]
    congr 2
    rw [Comparison.test, Bool.eq_iff_iff, beq_iff_eq, beq_iff_eq, hi]

theorem enumeration_less_eq_error_iff :
    (∃ err, enumeration t (.string a) (.string b) .less = .error err) ↔
      a ∉ t.constants ∨ b ∉ t.constants := by
  rw [← not_and_or]
  by_cases h : a ∈ t.constants ∧ b ∈ t.constants
  case pos => simp [enumeration_of_mem h.1 h.2, h]
  case neg => simp [enumeration_of_not_mem h, invalid, h]

end Constants

/-! ## Orders -/

-- Values can change sides when they are compared, and being equal and being at most are passed on.
structure Ordered (f : α → α → Comparison → Except EvalError (Option Bool)) : Prop where
  mirror (x y : α) (c : Comparison) : Parallel Eq (f x y c) (f y x c.mirror)
  trans (x y z : α) (c : Comparison) : c = .equal ∨ c = .lessOrEqual →
    f x y c = .ok (some true) → f y z c = .ok (some true) → f x z c = .ok (some true)

section Orders

variable {cmp : α → α → Ordering}

-- Two pairs of integers that differ alike are in the same order.
theorem compare_eq_of_sub_eq {x y z w : Int} (h : x - y = z - w) : compare x y = compare z w := by
  cases hc : compare z w
  case lt => exact Int.compare_eq_lt.mpr (by have := Int.compare_eq_lt.mp hc; omega)
  case eq => exact Int.compare_eq_eq.mpr (by have := Int.compare_eq_eq.mp hc; omega)
  case gt => exact Int.compare_eq_gt.mpr (by have := Int.compare_eq_gt.mp hc; omega)

theorem test_trans [Std.TransCmp cmp] {c : Comparison} (hc : c = .equal ∨ c = .lessOrEqual)
    (hx : c.test (cmp x y)) (hy : c.test (cmp y z)) : c.test (cmp x z) := by
  cases hc
  case inl hc =>
    subst hc
    simp only [Comparison.test, beq_iff_eq] at *
    exact Std.TransCmp.eq_trans hx hy
  case inr hc =>
    subst hc
    have hle (o : Ordering) : Comparison.lessOrEqual.test o = o.isLE := by
      cases o <;> rfl
    simp only [hle] at *
    exact Std.TransCmp.isLE_trans hx hy

theorem Ordered.of_cmp {f : α → α → Comparison → Except EvalError (Option Bool)} [Std.TransCmp cmp]
    (h : ∀ x y c, f x y c = .ok (some (c.test (cmp x y)))) : Ordered f where
  mirror x y c := by
    rw [h, h, Comparison.test_mirror, ← Std.OrientedCmp.eq_swap]
    exact .refl _
  trans x y z c hc hx hy := by
    simp only [h, Except.ok.injEq, Option.some.injEq] at *
    exact test_trans hc hx hy

instance integers_trans : Std.TransCmp fun x y : Int64 => compare x.toInt y.toInt :=
  inferInstanceAs (Std.TransCmp (compareOn Int64.toInt))

instance times_trans : Std.TransCmp TimeOfDay.order :=
  inferInstanceAs (Std.TransCmp (compareOn TimeOfDay.seconds))

instance intervals_trans : Std.TransCmp Interval.order :=
  inferInstanceAs (Std.TransCmp (compareLex (compareOn Interval.calendarMonths)
    (compareLex (compareOn (·.days.toInt)) (compareOn Interval.clockSeconds))))

theorem integers_ordered : Ordered fun x y => numeric (.integer x) (.integer y) :=
  .of_cmp (fun _ _ _ => rfl)

theorem strings_ordered : Ordered fun x y => string (.string x) (.string y) :=
  .of_cmp fun _ _ _ => rfl

theorem times_ordered : Ordered fun x y => time (.time x) (.time y) :=
  .of_cmp fun _ _ _ => rfl

theorem intervals_ordered : Ordered fun x y => time (.interval x) (.interval y) :=
  .of_cmp fun _ _ _ => rfl

-- Texts that are no constants are compared by their equality alone.
theorem constants_ordered (t : DataType) : Ordered fun x y => enumeration t (.string x) (.string y) where
  mirror x y c := by
    by_cases h : x ∈ t.constants ∧ y ∈ t.constants
    case pos =>
      rw [enumeration_of_mem h.1 h.2, enumeration_of_mem h.2 h.1, Comparison.test_mirror,
        ← Std.OrientedCmp.eq_swap]
      exact .refl _
    case neg =>
      rw [enumeration_of_not_mem h, enumeration_of_not_mem (and_comm.not.mp h)]
      cases c
      case equal    => simp [Comparison.mirror, BEq.comm]; exact .ok rfl
      case notEqual => simp [Comparison.mirror, bne, BEq.comm]; exact .ok rfl
      all_goals exact .error
  trans x y z c hc hx hy := by
    cases hc
    case inl hc =>
      subst hc
      simp only [enumeration_equal, Except.ok.injEq, Option.some.injEq, beq_iff_eq] at *
      exact hx.trans hy
    case inr hc =>
      have constants {x y} (h : enumeration t (.string x) (.string y) c = .ok (some true)) :
          x ∈ t.constants ∧ y ∈ t.constants := by
        by_contra hn
        simp [enumeration_of_not_mem hn, hc, invalid] at h
      have hmx := constants hx
      have ⟨_, hmz⟩ := constants hy
      rw [enumeration_of_mem hmx.1 hmx.2] at hx
      rw [enumeration_of_mem hmx.2 hmz] at hy
      rw [enumeration_of_mem hmx.1 hmz]
      simp only [Except.ok.injEq, Option.some.injEq] at *
      exact test_trans (.inr hc) hx hy

end Orders

end Comparing

/-! ## Nodes -/

namespace Evaluation

variable {host : Host} {leftType : DataType}

theorem compare_builtin {comparator : Comparator} (hc : leftType.comparator = some comparator)
    (hf : comparator.builtin? = some f) (host : Host) (rightType : DataType) (l r : Value) (c : Comparison) :
    compare host leftType rightType l r c =
      Action.note (.compare comparator leftType l c rightType r) >>= fun _ =>
        Action.ofExcept (f leftType l r c) := by
  cases comparator <;> cases hf <;> simp only [compare, hc]

-- Unless a host is asked, the complement gives the opposite answer.
theorem compare_complement (h : ∀ name, leftType.comparator ≠ some (.host name)) (host : Host)
    (rightType : DataType) (l r : Value) (c : Comparison) :
    (compare host leftType rightType l r c).Parallel (fun a b => b = a.map (!·))
      (compare host leftType rightType l r c.complement) := by
  cases hc : leftType.comparator
  case none =>
    simp only [compare, hc]
    exact .fail _ _
  case some comparator =>
    have ⟨f, hf⟩ : ∃ f, comparator.builtin? = some f := by
      cases comparator
      case host name => exact absurd hc (h name)
      all_goals exact ⟨_, rfl⟩
    simp only [compare_builtin hc hf]
    exact .noted ((Comparing.builtin_decision hf leftType l r).complement c) _ _

-- Turning the flag of a comparison over is as good as taking the complement.
theorem comparison_complement {left right : Operand} (h : ∀ name, left.type.comparator ≠ some (.host name))
    (host : Host) (c : Comparison) (negated : Bool) :
    (comparison host c left right negated).Parallel Eq
      (comparison host c.complement left right !negated) := by
  refine .after _ fun l => ?_
  split
  case isTrue => exact .refl _
  case isFalse =>
    refine .after _ fun r => ?_
    split
    case isTrue => exact .refl _
    case isFalse =>
      refine (compare_complement h host right.type l r c).map fun a b hb => ?_
      subst hb
      cases a <;> simp

end Evaluation

namespace Expression

theorem evaluate_comparison_complement {left : Expression}
    (h : ∀ name, left.type.comparator ≠ some (.host name)) (host : Host) (roots : Roots) (t : DataType)
    (c : Comparison) (right : Expression) (negated : Bool) :
    ((comparison t c left right negated).evaluate host roots).Parallel Eq
      ((comparison t c.complement left right !negated).evaluate host roots) := by
  have he (c : Comparison) (negated : Bool) :
      (comparison t c left right negated).evaluate host roots =
        Value.ofTruth <$> Evaluation.comparison host c (left.operand host roots) (right.operand host roots)
          negated :=
    Evaluation.finish_ofTruth host roots t _
  rw [he, he]
  exact (Evaluation.comparison_complement h host c negated).map fun _ _ ht => congrArg _ ht

end Expression

namespace Comparing

-- The six comparisons fit together in each of the builtin ways to compare values. A comparison and its
-- complement have opposite answers or none, or they both fail, and what is at most another value is less or
-- equal. The flag of a comparison can therefore be turned over by taking the complement, whatever its operands
-- are. Integers, strings, times, intervals and constants of an enumeration are ordered, constants by the places
-- where they are first declared. A text that is no constant is equal to itself alone and has no order.
theorem comparisons_cohere :
    (∀ comparator f, Comparator.builtin? comparator = some f → ∀ t l r,
      (∀ c, Parallel (fun a b => b = a.map (!·)) (f t l r c) (f t l r c.complement)) ∧
      ∀ b, f t l r .lessOrEqual = .ok (some b) →
        (b = true ↔ f t l r .less = .ok (some true) ∨ f t l r .equal = .ok (some true))) ∧
    (∀ left : Expression, (∀ name, left.type.comparator ≠ some (.host name)) →
      ∀ host roots t c right negated,
        ((Expression.comparison t c left right negated).evaluate host roots).Parallel Eq
          ((Expression.comparison t c.complement left right !negated).evaluate host roots)) ∧
    (Ordered (fun x y => numeric (.integer x) (.integer y)) ∧
      Ordered (fun x y => string (.string x) (.string y)) ∧
      Ordered (fun x y => time (.time x) (.time y)) ∧
      Ordered (fun x y => time (.interval x) (.interval y)) ∧
      ∀ t, Ordered (fun x y => enumeration t (.string x) (.string y))) ∧
    (∀ t x y,
      enumeration t (.string x) (.string y) .equal = .ok (some (x == y)) ∧
      ((∃ err, enumeration t (.string x) (.string y) .less = .error err) ↔
        x ∉ t.constants ∨ y ∉ t.constants) ∧
      (x ∈ t.constants → y ∈ t.constants →
        enumeration t (.string x) (.string y) .less =
          .ok (some (t.constants.idxOf x < t.constants.idxOf y)))) := by
  refine ⟨fun comparator f hf t l r => ?pairs, fun left h host roots t c right negated => ?nodes, ?orders,
    fun t x y => ?constants⟩
  case pairs =>
    have hd := builtin_decision hf t l r
    exact ⟨hd.complement, fun b hb => hd.lessOrEqual hb⟩
  case nodes  => exact Expression.evaluate_comparison_complement h host roots t c right negated
  case orders =>
    exact ⟨integers_ordered, strings_ordered, times_ordered, intervals_ordered, constants_ordered⟩
  case constants =>
    refine ⟨enumeration_equal t x y, enumeration_less_eq_error_iff, fun hx hy => ?_⟩
    rw [enumeration_of_mem hx hy]
    congr 2
    rw [Comparison.test, Bool.eq_iff_iff, beq_iff_eq, Nat.compare_eq_lt, decide_eq_true_iff]

-- RED is declared twice and takes its first place, before GREEN. PINK has no place.
theorem comparisons_cohere_color :
    let color := DataType.enumeration "Color" ["RED", "GREEN", "RED"] (some .enumeration) none
    let left := Expression.literal color (.string "GREEN")
    let right := Expression.literal color (.string "PINK")
    (Comparator.builtin? .enumeration = some enumeration ∧
      (∀ name, left.type.comparator ≠ some (.host name)) ∧
      "GREEN" ∈ color.constants ∧ "RED" ∈ color.constants) ∧
    Parallel (fun a b => b = a.map (!·)) (enumeration color (.string "GREEN") (.string "PINK") .less)
      (enumeration color (.string "GREEN") (.string "PINK") .greaterOrEqual) ∧
    ((Expression.comparison Standard.boolean .equal left right true).evaluate .none .empty).Parallel Eq
      ((Expression.comparison Standard.boolean .notEqual left right false).evaluate .none .empty) ∧
    Parallel Eq (enumeration color (.string "GREEN") (.string "RED") .less)
      (enumeration color (.string "RED") (.string "GREEN") .greater) ∧
    enumeration color (.string "GREEN") (.string "RED") .less = .ok (some false) := by
  intro color left right
  have hh : ∀ name, left.type.comparator ≠ some (.host name) := nofun
  have hg : "GREEN" ∈ color.constants := by decide
  have hr : "RED" ∈ color.constants := by decide
  have ⟨hpairs, hnodes, ⟨_, _, _, _, horders⟩, hconstants⟩ := comparisons_cohere
  refine ⟨⟨rfl, hh, hg, hr⟩, ?pair, ?node, ?mirrored, ?less⟩
  case pair     => exact (hpairs .enumeration _ rfl color _ _).1 .less
  case node     => exact hnodes left hh .none .empty Standard.boolean .equal right true
  case mirrored => exact (horders color).mirror "GREEN" "RED" .less
  case less     => exact (hconstants color "GREEN" "RED").2.2 hg hr

end Comparing

end Trivalent
