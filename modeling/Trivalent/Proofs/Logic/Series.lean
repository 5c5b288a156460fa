import Trivalent.Proofs.Context
import Trivalent.Proofs.Evaluation.Agreement
import Trivalent.Proofs.Logic.Predicate

/-!
# Comparisons in series

Between and member take one value and compare it with several ones until a comparison decides. They are
compounds of these comparisons, of the kind that their flag asks for. The comparisons of such a compound
take the value each on their own, which comes to the same if it is steady.
-/

namespace Trivalent

open Trivalent.Action (Agrees Steady)

-- An operand that comes to one outcome, whatever the store is.
def Operand.fixed (t : DataType) (outcome : Except EvalError Value) : Operand :=
  ⟨t, Evaluated.plain <$> Action.ofExcept outcome⟩

namespace Evaluation

variable (host : Host) (u : DataType) {left left' : Operand}

@[simp]
theorem value_fixed (t : DataType) (outcome : Except EvalError Value) :
    (Operand.fixed t outcome).value = Action.ofExcept outcome := by
  cases outcome <;> rfl

theorem unlessNull_congr (o : Operand) (missing : α) {f g : Value → Action α}
    (h : ∀ v, v.isNull = false → f v = g v) : unlessNull o missing f = unlessNull o missing g := by
  refine bind_congr fun v => ?_
  cases hv : v.isNull
  case true  => rfl
  case false => exact h v hv

theorem unlessNull_fixed_error (t : DataType) (err : EvalError) (missing : α) (f : Value → Action α) :
    unlessNull (.fixed t (.error err)) missing f = Action.fail err :=
  rfl

theorem unlessNull_fixed_ok (t : DataType) (v : Value) (missing : α) (f : Value → Action α) :
    unlessNull (.fixed t (.ok v)) missing f = if v.isNull then pure missing else f v := by
  simp only [unlessNull, value_fixed]
  rfl

-- The comparisons of one operand with several ones, as predicates.
def series (left : Operand) (comparisons : List (Comparison × Operand)) : List Operand :=
  comparisons.map fun c => ⟨u, Evaluated.ofTruth <$> comparison host c.1 left c.2 false⟩

theorem compound_series_cons (identity : Bool) (left : Operand) (c : Comparison) (right : Operand)
    (comparisons : List (Comparison × Operand)) :
    compound identity (series host u left ((c, right) :: comparisons)) =
      comparison host c left right false >>=
        unlessDecided identity (compound identity (series host u left comparisons)) := by
  simp only [series, List.map_cons, compound_cons, truth_ofTruth]

theorem comparison_fixed (c : Comparison) (t : DataType) (right : Operand) (hv : v.isNull = false) :
    comparison host c (.fixed t (.ok v)) right false =
      unlessNull right none fun w => compare host t right.type v w c := by
  simp only [comparison, unlessNull_fixed_ok, hv]
  refine unlessNull_congr right none fun w _ => ?_
  simp [Operand.fixed]

-- A series that starts with null has come to its end.
theorem comparison_fixed_null (c : Comparison) (t : DataType) (right : Operand) (hv : v.isNull) :
    comparison host c (.fixed t (.ok v)) right false = pure none := by
  simp [comparison, unlessNull_fixed_ok, hv]

-- A series of comparisons of a value goes from one comparison to the next, as between and member do.
theorem compound_series_fixed_cons (identity : Bool) (t : DataType) (hv : v.isNull = false)
    (c : Comparison) (right : Operand) (comparisons : List (Comparison × Operand)) :
    compound identity (series host u (.fixed t (.ok v)) ((c, right) :: comparisons)) =
      unlessNull right none fun w =>
        compare host t right.type v w c >>=
          unlessDecided identity (compound identity (series host u (.fixed t (.ok v)) comparisons)) := by
  rw [compound_series_cons, comparison_fixed host c t right hv]
  exact unlessNull_bind right none _ rfl

theorem between_eq_compound (operand lower upper : Operand) (negated : Bool) :
    between host operand lower upper negated =
      unlessNull operand none fun v =>
        compound (!negated) (series host u (.fixed operand.type (.ok v))
          [(.greaterOrEqual, lower), (.lessOrEqual, upper)]) := by
  refine unlessNull_congr operand none fun v hv => ?_
  rw [compound_series_fixed_cons host u _ _ hv]
  refine unlessNull_congr lower none fun l _ => bind_congr fun above => ?_
  cases above
  case none => rfl
  case some above =>
    rw [unlessDecided, compound_series_fixed_cons host u _ _ hv]
    by_cases ha : above = negated
    case pos => simp [ha]
    case neg =>
      simp only [if_neg ha, if_pos (Bool.eq_not.mpr ha)]
      refine unlessNull_congr upper none fun w _ => bind_congr fun below => ?_
      cases below
      case none => rfl
      case some below => cases below <;> cases negated <;> rfl

theorem memberOf_eq_compound (t : DataType) (hv : v.isNull = false) (items : List Operand)
    (negated : Bool) :
    memberOf host t v negated items =
      compound negated (series host u (.fixed t (.ok v)) (items.map (.equal, ·))) := by
  induction items
  case nil => rfl
  case cons item items hi =>
    rw [List.map_cons, compound_series_fixed_cons host u negated t hv, ← hi]
    refine unlessNull_congr item none fun w _ => bind_congr fun equal => ?_
    cases equal <;> rfl

theorem member_eq_compound (operand : Operand) (items : List Operand) (negated : Bool) :
    member host operand items negated =
      unlessNull operand none fun v =>
        compound negated (series host u (.fixed operand.type (.ok v)) (items.map (.equal, ·))) :=
  unlessNull_congr operand none fun _ hv => memberOf_eq_compound host u operand.type hv items negated

theorem compound_series_agrees (identity : Bool) (h : left.Agrees left')
    (comparisons : List (Comparison × Operand)) :
    (compound identity (series host u left comparisons)).Agrees
      (compound identity (series host u left' comparisons)) := by
  have agrees (c : Comparison × Operand) :
      (Operand.mk u (Evaluated.ofTruth <$> comparison host c.1 left c.2 false)).Agrees
        ⟨u, Evaluated.ofTruth <$> comparison host c.1 left' c.2 false⟩ := by
    refine ⟨rfl, ?_⟩
    rw [value_ofTruth, value_ofTruth]
    exact (comparison_agrees ⟨rfl, rfl⟩ h ⟨rfl, .refl _⟩ c.1 false).map _
  refine compound_agrees ?_ identity
  simp only [series, List.forall₂_map_left_iff, List.forall₂_map_right_iff]
  exact List.forall₂_same.mpr fun c _ => agrees c

-- An operand with one outcome can be taken by each of the comparisons.
theorem unlessNull_fixed_series (identity : Bool) (t : DataType) (outcome : Except EvalError Value)
    {comparisons : List (Comparison × Operand)} (hc : comparisons ≠ []) :
    (unlessNull (.fixed t outcome) none fun v =>
        compound identity (series host u (.fixed t (.ok v)) comparisons)) =
      compound identity (series host u (.fixed t outcome) comparisons) := by
  have ⟨⟨c, right⟩, rest, hr⟩ := List.exists_cons_of_ne_nil hc
  cases outcome
  case error err =>
    rw [hr, compound_series_cons, comparison, unlessNull_fixed_error, unlessNull_fixed_error]
    rfl
  case ok v =>
    rw [unlessNull_fixed_ok]
    cases hv : v.isNull
    case true  => rw [hr, compound_series_cons, comparison_fixed_null host _ _ _ hv]; rfl
    case false => rfl

-- A steady operand comes to the same if it is taken once and if it is taken by each of the comparisons.
theorem unlessNull_series_agrees (identity : Bool) (hs : Steady left.value)
    {comparisons : List (Comparison × Operand)} (hc : comparisons ≠ []) :
    (unlessNull left none fun v =>
        compound identity (series host u (.fixed left.type (.ok v)) comparisons)).Agrees
      (compound identity (series host u left comparisons)) := by
  have ⟨outcome, ho⟩ := Steady.iff_agrees.mp hs
  have hf : left.Agrees (.fixed left.type outcome) := ⟨rfl, by rwa [value_fixed]⟩
  have honce := unlessNull_agrees hf.value none fun v =>
    .refl (compound identity (series host u (.fixed left.type (.ok v)) comparisons))
  rw [unlessNull_fixed_series host u identity left.type outcome hc] at honce
  exact honce.trans (compound_series_agrees host u identity hf comparisons).symm

end Evaluation

end Trivalent
