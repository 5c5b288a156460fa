import Trivalent.Proofs.Action.Course
import Trivalent.Proofs.Evaluation.Steady
import Trivalent.Proofs.Logic.Series
import Trivalent.Standard

/-!
# Between and member as compounds

Between is the compound of the comparisons with its bounds, and member the one of the comparisons with its
items, if what they compare is steady. An operand that is drawn anew each time shows that it has to be.
-/

namespace Trivalent

open Trivalent.Action (Detached Steady)

namespace Evaluation

/-! ## Series from one store -/

variable (host : Host) (roots : Roots) (u : DataType) {left right right' : Operand} {s : Store}

theorem unlessNull_apply {o : Operand} (h : (o.value s).outcome = .ok v) (hv : v.isNull = false)
    (missing : α) (f : Value → Action α) :
    unlessNull o missing f s = (f v (o.value s).store).after (o.value s).calls := by
  rw [unlessNull, Action.bind_ok h, if_neg (by simp [hv])]

theorem compound_series_apply (h : (comparison host c left right false s).outcome = .ok (some t))
    (identity : Bool) (comparisons : List (Comparison × Operand)) :
    (compound identity (series host u left ((c, right) :: comparisons)) s).outcome =
      if t = identity then
        (compound identity (series host u left comparisons)
          (comparison host c left right false s).store).outcome
      else
        .ok (some t) := by
  rw [compound_series_cons, Action.bind_ok h, unlessDecided]
  split <;> rfl

-- The second of two comparisons starts with the store that the first one leaves behind.
theorem compound_pair_apply (h : (comparison host c left right false s).outcome = .ok (some t))
    (h' : (comparison host c' left right' false
      (comparison host c left right false s).store).outcome = .ok (some t')) (identity : Bool) :
    (compound identity (series host u left [(c, right), (c', right')]) s).outcome =
      .ok (some (if t = identity then t' else t)) := by
  rw [compound_series_apply host u h, compound_series_apply host u h']
  split
  case isTrue =>
    split
    case isTrue ht => rw [ht]; rfl
    case isFalse   => rfl
  case isFalse => rfl

-- A comparison with a literal does to the store what its left operand does.
theorem comparison_literal (hl : (left.value s).outcome = .ok l) (hln : l.isNull = false)
    (hvn : v.isNull = false) (hc : (compare host left.type t l v c).Agrees (pure r)) :
    (comparison host c left ((Expression.literal t v).operand host roots) false s).outcome = .ok r ∧
      (comparison host c left ((Expression.literal t v).operand host roots) false s).store =
        (left.value s).store := by
  have hv (s' : Store) : (((Expression.literal t v).operand host roots).value s').outcome = .ok v :=
    rfl
  have hr : (do return (← compare host left.type t l v c).map (· != false)).Agrees (pure r) := by
    simpa using hc
  rw [comparison, unlessNull_apply hl hln, unlessNull_apply (hv _) hvn]
  exact hr (left.value s).store

end Evaluation

namespace Expression

open Evaluation

variable {host : Host} {roots : Roots} {left : Expression}

theorem evaluate_compound (u : DataType) (c : Connective) (predicates : List Expression) :
    (compound u c predicates false).evaluate host roots =
      Value.ofTruth <$> Evaluation.compound c.identity (operands host roots predicates) := by
  simp only [evaluate_compound_flag, Bool.bne_false, Option.map_id']

theorem operands_comparisons (host : Host) (roots : Roots) (u : DataType) (left : Expression)
    (rights : List (Comparison × Expression)) :
    operands host roots (rights.map fun r => comparison u r.1 left r.2 false) =
      series host u (left.operand host roots) (rights.map fun r => (r.1, r.2.operand host roots)) := by
  simp only [operands_eq_map, series, List.map_map]
  rfl

theorem evaluate_bounds (u : DataType) (c : Connective) (left lower upper : Expression) :
    (compound u c
        [comparison u .greaterOrEqual left lower false, comparison u .lessOrEqual left upper false]
        false).evaluate host roots =
      Value.ofTruth <$> Evaluation.compound c.identity (series host u (left.operand host roots)
        [(.greaterOrEqual, lower.operand host roots), (.lessOrEqual, upper.operand host roots)]) := by
  rw [evaluate_compound]
  exact congrArg _ (congrArg _ (operands_comparisons host roots u left
    [(.greaterOrEqual, lower), (.lessOrEqual, upper)]))

theorem evaluate_between_eq (t : DataType) (left lower upper : Expression) (negated : Bool) :
    (between t left lower upper negated).evaluate host roots =
      Value.ofTruth <$> Evaluation.between host (left.operand host roots) (lower.operand host roots)
        (upper.operand host roots) negated :=
  finish_ofTruth host roots t _

theorem evaluate_equals (u : DataType) (c : Connective) (left : Expression) (items : List Expression) :
    (compound u c (items.map fun i => comparison u .equal left i false) false).evaluate host roots =
      Value.ofTruth <$> Evaluation.compound c.identity (series host u (left.operand host roots)
        ((operands host roots items).map (.equal, ·))) := by
  have hc := operands_comparisons host roots u left (items.map (.equal, ·))
  simp only [List.map_map, Function.comp_def] at hc
  rw [evaluate_compound, hc, operands_eq_map, List.map_map]
  rfl

theorem evaluate_member_eq (t : DataType) (left : Expression) (items : List Expression) (negated : Bool) :
    (member t left items negated).evaluate host roots =
      Value.ofTruth <$> Evaluation.member host (left.operand host roots)
        (operands host roots items) negated :=
  finish_ofTruth host roots t _

/-! ## Operands that are drawn -/

-- A number that is drawn anew each time that it is asked for.
def drawn : Expression :=
  .call Standard.numeric Standard.random []

def number (x : Float) : Expression :=
  .literal Standard.numeric (.numeric x)

-- Whether the number that is drawn is at least `x`.
def drawnAbove (x : Float) : Expression :=
  .comparison Standard.boolean .greaterOrEqual drawn (number x) false

def truthLiteral (b : Bool) : Expression :=
  .literal Standard.boolean (.boolean b)

section Drawn

variable (host : Host) (roots : Roots) {s : Store} {x : Float}

theorem internal_drawn (s : Store) :
    drawn.internal host roots s =
      ⟨.ok (.numeric s.random.next.1), [.invoke Standard.random .empty],
        { s with random := s.random.next.2 }⟩ :=
  rfl

-- A drawn number comes from the random numbers alone.
theorem drawn_detached : Detached (drawn.internal host roots) :=
  fun random => ⟨.ok (.numeric random.next.1), random.next.2, fun properties =>
    have h := internal_drawn host roots ⟨properties, random⟩
    ⟨congrArg Ending.outcome h, congrArg Ending.store h⟩⟩

theorem compare_number (h : Double.order? y x = some o) (c : Comparison) :
    (compare host Standard.numeric Standard.numeric (.numeric y) (.numeric x) c).Agrees
      (pure (some (c.test o))) := by
  intro s
  have hc : (compare host Standard.numeric Standard.numeric (.numeric y) (.numeric x) c s).outcome =
      .ok ((Double.order? y x).map c.test) :=
    rfl
  exact ⟨by rw [hc, h]; rfl, rfl⟩

theorem compare_truth (a b : Bool) :
    (compare host Standard.boolean Standard.boolean (.boolean a) (.boolean b) .equal).Agrees
      (pure (some (a == b))) :=
  fun _ => ⟨rfl, rfl⟩

theorem comparison_drawn (h : Double.order? s.random.next.1 x = some o) (c : Comparison) :
    (Evaluation.comparison host c (drawn.operand host roots) ((number x).operand host roots)
        false s).outcome = .ok (some (c.test o)) ∧
      (Evaluation.comparison host c (drawn.operand host roots) ((number x).operand host roots)
        false s).store = { s with random := s.random.next.2 } :=
  comparison_literal host roots (congrArg Ending.outcome (internal_drawn host roots s)) rfl rfl
    (compare_number host h c)

theorem internal_drawnAbove_eq (x : Float) :
    (drawnAbove x).internal host roots =
      Value.ofTruth <$> Evaluation.comparison host .greaterOrEqual (drawn.operand host roots)
        ((number x).operand host roots) false :=
  value_ofTruth _ _

theorem internal_drawnAbove (h : Double.order? s.random.next.1 x = some o) :
    ((drawnAbove x).internal host roots s).outcome = .ok (.boolean (Comparison.greaterOrEqual.test o)) ∧
      ((drawnAbove x).internal host roots s).store = { s with random := s.random.next.2 } := by
  have ⟨ho, hs⟩ := comparison_drawn host roots h .greaterOrEqual
  rw [internal_drawnAbove_eq, Action.map_apply, ho]
  exact ⟨rfl, hs⟩

theorem drawnAbove_detached (x : Float) : Detached ((drawnAbove x).internal host roots) := by
  rw [internal_drawnAbove_eq]
  refine Detached.map _ ((drawn_detached host roots).bind fun v => ?_)
  split
  case isTrue  => exact .ofSteady (.pure _)
  case isFalse =>
    exact .ofSteady <| unlessNull_steady (meaning_steady host roots (number x) rfl) _ fun w =>
      (compare_steady host ..).bind fun _ => .pure _

theorem comparison_drawnAbove (h : Double.order? s.random.next.1 x = some o) (b : Bool) :
    (Evaluation.comparison host .equal ((drawnAbove x).operand host roots)
        ((truthLiteral b).operand host roots) false s).outcome =
          .ok (some (Comparison.greaterOrEqual.test o == b)) ∧
      (Evaluation.comparison host .equal ((drawnAbove x).operand host roots)
        ((truthLiteral b).operand host roots) false s).store =
          { s with random := s.random.next.2 } := by
  have ⟨ho, hs⟩ := internal_drawnAbove host roots h
  have hc := comparison_literal host roots ho rfl rfl (compare_truth host _ b)
  exact ⟨hc.1, hc.2.trans hs⟩

-- The number that is drawn is not outside of the bounds, wherever it is.
theorem outcome_between_drawn (t : DataType) (h : Double.order? s.random.next.1 x = some .lt) :
    ((between t drawn (number x) (number x) true).evaluate host roots s).outcome =
      .ok (.boolean true) := by
  have hv : ((drawn.operand host roots).value s).outcome = .ok (.numeric s.random.next.1) :=
    congrArg Ending.outcome (internal_drawn host roots s)
  have hc (c : Comparison) (s' : Store) :
      (Evaluation.comparison host c (.fixed Standard.numeric (.ok (.numeric s.random.next.1)))
        ((number x).operand host roots) false s').outcome = .ok (some (c.test .lt)) :=
    (comparison_literal host roots rfl rfl rfl (compare_number host h c)).1
  have hb : (Evaluation.between host (drawn.operand host roots) ((number x).operand host roots)
      ((number x).operand host roots) true s).outcome = .ok (some true) := by
    have ht : (drawn.operand host roots).type = Standard.numeric := rfl
    rw [between_eq_compound host t, unlessNull_apply hv rfl, ht, Ending.outcome_after,
      compound_pair_apply host t (hc _ _) (hc _ _)]
    rfl
  rw [evaluate_between_eq, Action.map_apply, hb]
  rfl

-- Each of the two comparisons has a number drawn.
theorem outcome_bounds_drawn (u : DataType) (h : Double.order? s.random.next.1 x = some .lt)
    (h' : Double.order? s.random.next.2.next.1 x = some .gt) :
    ((compound u .or
      [comparison u .greaterOrEqual drawn (number x) false,
       comparison u .lessOrEqual drawn (number x) false]
      false).evaluate host roots s).outcome = .ok (.boolean false) := by
  have ⟨ho, hs⟩ := comparison_drawn host roots h .greaterOrEqual
  have ho' := (comparison_drawn host roots (s := { s with random := s.random.next.2 }) h'
    .lessOrEqual).1
  rw [← hs] at ho'
  rw [evaluate_bounds, Action.map_apply, compound_pair_apply host u ho ho']
  rfl

-- Whether the drawn number is at least `x` is either true or false.
theorem outcome_member_drawn (t : DataType) (h : Double.order? s.random.next.1 x = some .lt) :
    ((member t (drawnAbove x) [truthLiteral true, truthLiteral false] false).evaluate host roots
      s).outcome = .ok (.boolean true) := by
  have hv : (((drawnAbove x).operand host roots).value s).outcome = .ok (.boolean false) :=
    (internal_drawnAbove host roots h).1
  have hc (b : Bool) (s' : Store) :
      (Evaluation.comparison host .equal (.fixed Standard.boolean (.ok (.boolean false)))
        ((truthLiteral b).operand host roots) false s').outcome = .ok (some (false == b)) :=
    (comparison_literal host roots rfl rfl rfl (compare_truth host false b)).1
  have hm : (Evaluation.member host ((drawnAbove x).operand host roots)
      (operands host roots [truthLiteral true, truthLiteral false]) false s).outcome =
        .ok (some true) := by
    have ht : ((drawnAbove x).operand host roots).type = Standard.boolean := rfl
    have hi : (operands host roots [truthLiteral true, truthLiteral false]).map (Comparison.equal, ·) =
        [(.equal, (truthLiteral true).operand host roots),
         (.equal, (truthLiteral false).operand host roots)] := rfl
    rw [member_eq_compound host t, unlessNull_apply hv rfl, ht, Ending.outcome_after, hi,
      compound_pair_apply host t (hc _ _) (hc _ _)]
    rfl
  rw [evaluate_member_eq, Action.map_apply, hm]
  rfl

-- Each of the two comparisons asks anew.
theorem outcome_equals_drawn (u : DataType) (h : Double.order? s.random.next.1 x = some .lt)
    (h' : Double.order? s.random.next.2.next.1 x = some .gt) :
    ((compound u .or
      [comparison u .equal (drawnAbove x) (truthLiteral true) false,
       comparison u .equal (drawnAbove x) (truthLiteral false) false]
      false).evaluate host roots s).outcome = .ok (.boolean false) := by
  have hc := @evaluate_equals host roots u .or (drawnAbove x)
    [truthLiteral true, truthLiteral false]
  have ⟨ho, hs⟩ := comparison_drawnAbove host roots h true
  have ho' := (comparison_drawnAbove host roots (s := { s with random := s.random.next.2 }) h'
    false).1
  rw [← hs] at ho'
  simp only [List.map_cons, List.map_nil, operands_eq_map] at hc
  rw [hc, Action.map_apply, compound_pair_apply host u ho ho']
  rfl

end Drawn

-- A store whose first number that is drawn is less than one half and whose second one is greater.
def seeded : Store :=
  ⟨[], ⟨3⟩⟩

theorem order_first : Double.order? seeded.random.next.1 0.5 = some .lt := by
  decide +kernel

theorem order_second : Double.order? seeded.random.next.2.next.1 0.5 = some .gt := by
  decide +kernel

/-! ## Between -/

-- Between asks for both comparisons, or for one of them if it is negated. That is not its negation.
theorem evaluate_between (hs : Steady (left.internal host roots)) (t u : DataType)
    (lower upper : Expression) (negated : Bool) :
    ((between t left lower upper negated).evaluate host roots).Agrees
      ((compound u (if negated then .or else .and)
        [comparison u .greaterOrEqual left lower false, comparison u .lessOrEqual left upper false]
        false).evaluate host roots) := by
  have hi : (if negated then Connective.or else .and).identity = !negated := by
    cases negated <;> rfl
  rw [evaluate_between_eq, evaluate_bounds, hi, between_eq_compound host u]
  exact (unlessNull_series_agrees host u _ hs (by simp)).map _

-- `n BETWEEN 1 AND limit`, where `limit` has no value.
theorem evaluate_between_path :
    let roots := Roots.empty.bind "n" Standard.integer (.integer 5)
    let left := path ⟨Standard.integer, "n", []⟩
    let lower := literal Standard.integer (.integer 1)
    let upper := path ⟨Standard.integer, "limit", []⟩
    Steady (left.internal .none roots) ∧
      ((between Standard.boolean left lower upper false).evaluate .none roots).Agrees
        ((compound Standard.boolean .and
          [comparison Standard.boolean .greaterOrEqual left lower false,
           comparison Standard.boolean .lessOrEqual left upper false]
          false).evaluate .none roots) :=
  have hs := internal_steady .none (.bind .empty "n" Standard.integer (.integer 5))
    (e := path ⟨Standard.integer, "n", []⟩) rfl
  ⟨hs, evaluate_between hs Standard.boolean Standard.boolean _ _ false⟩

-- A drawn number is not outside of the bounds if it is taken once, but both comparisons fail if each of
-- them has one drawn.
theorem evaluate_between_drawn :
    Detached (drawn.internal .none .empty) ∧
      ((between Standard.boolean drawn (number 0.5) (number 0.5) true).evaluate .none .empty
        seeded).outcome = .ok (.boolean true) ∧
      ((compound Standard.boolean .or
        [comparison Standard.boolean .greaterOrEqual drawn (number 0.5) false,
         comparison Standard.boolean .lessOrEqual drawn (number 0.5) false]
        false).evaluate .none .empty seeded).outcome = .ok (.boolean false) := by
  refine ⟨drawn_detached .none .empty, ?_, ?_⟩
  · exact outcome_between_drawn .none .empty Standard.boolean order_first
  · exact outcome_bounds_drawn .none .empty Standard.boolean order_first order_second

/-! ## Member -/

-- Member asks for one of the comparisons, or for all of them if it is negated. Without items it has
-- decided as soon as its operand has a value.
theorem evaluate_member (left : Expression) (t u : DataType) (items : List Expression) (negated : Bool) :
    (Steady (left.internal host roots) → items ≠ [] →
        ((member t left items negated).evaluate host roots).Agrees
          ((compound u (if negated then .and else .or)
            (items.map fun i => comparison u .equal left i false) false).evaluate host roots)) ∧
      (member t left [] negated).evaluate host roots =
        (fun v => if v.isNull then .null else .boolean negated) <$> left.internal host roots := by
  refine ⟨fun hs hne => ?several, ?none⟩
  case several =>
    have hi : (if negated then Connective.and else .or).identity = negated := by
      cases negated <;> rfl
    have hne : (operands host roots items).map (Comparison.equal, ·) ≠ [] := by
      simpa [operands_eq_map] using hne
    rw [evaluate_member_eq, evaluate_equals, hi, member_eq_compound host u]
    exact (unlessNull_series_agrees host u _ hs hne).map _
  case none =>
    rw [evaluate_member_eq, Evaluation.member, map_unlessNull, unlessNull, map_eq_pure_bind]
    refine bind_congr fun v => ?_
    split <;> rfl

-- `n NOT IN (limit, 5)`, where `limit` has no value, and `n NOT IN ()`.
theorem evaluate_member_path :
    let roots := Roots.empty.bind "n" Standard.integer (.integer 5)
    let left := path ⟨Standard.integer, "n", []⟩
    let items := [path ⟨Standard.integer, "limit", []⟩, literal Standard.integer (.integer 5)]
    (Steady (left.internal .none roots) ∧ items ≠ []) ∧
      ((member Standard.boolean left items true).evaluate .none roots).Agrees
        ((compound Standard.boolean .and
          (items.map fun i => comparison Standard.boolean .equal left i false)
          false).evaluate .none roots) ∧
      (member Standard.boolean left [] true).evaluate .none roots =
        (fun v => if v.isNull then .null else .boolean true) <$> left.internal .none roots :=
  have hs := internal_steady .none (.bind .empty "n" Standard.integer (.integer 5))
    (e := path ⟨Standard.integer, "n", []⟩) rfl
  have hm := evaluate_member (path ⟨Standard.integer, "n", []⟩) Standard.boolean Standard.boolean
    [path ⟨Standard.integer, "limit", []⟩, literal Standard.integer (.integer 5)] true
  ⟨⟨hs, by simp⟩, hm.1 hs (by simp), hm.2⟩

-- A drawn number is either at least one half or not, but each of the comparisons asks another one.
theorem evaluate_member_drawn :
    Detached ((drawnAbove 0.5).internal .none .empty) ∧
      ((member Standard.boolean (drawnAbove 0.5) [truthLiteral true, truthLiteral false]
        false).evaluate .none .empty seeded).outcome = .ok (.boolean true) ∧
      ((compound Standard.boolean .or
        [comparison Standard.boolean .equal (drawnAbove 0.5) (truthLiteral true) false,
         comparison Standard.boolean .equal (drawnAbove 0.5) (truthLiteral false) false]
        false).evaluate .none .empty seeded).outcome = .ok (.boolean false) := by
  refine ⟨drawnAbove_detached .none .empty 0.5, ?_, ?_⟩
  · exact outcome_member_drawn .none .empty Standard.boolean order_first
  · exact outcome_equals_drawn .none .empty Standard.boolean order_first order_second

end Expression

end Trivalent
