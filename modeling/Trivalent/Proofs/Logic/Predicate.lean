import Trivalent.Evaluation

/-!
# Predicates

A predicate decides on a truth value, which may be missing, and leaves no adapter pending. All
predicates but those that compare one value with several ones decide without their flag first, and the
flag turns over what was decided.
-/

namespace Trivalent

@[simp]
theorem Value.truth?_ofTruth (t : Option Bool) : (Value.ofTruth t).truth? = .ok t := by
  cases t <;> rfl

-- Whether there is nothing in a collection.
def Value.emptiness? : Value → Except EvalError (Option Bool)
  | null             => .ok none
  | collection items => .ok (some items.isEmpty)
  | v                => .error (.notCollection v.kind)

-- What a predicate decides if its flag is `negated`, given what it decides without one.
def Evaluated.flagged (negated : Bool) (t : Option Bool) : Evaluated :=
  .ofTruth (t.map (· != negated))

namespace Evaluation

variable (host : Host) (roots : Roots)

theorem value_ofTruth (t : DataType) (x : Action (Option Bool)) :
    (Operand.mk t (Evaluated.ofTruth <$> x)).value = Value.ofTruth <$> x := by
  simp only [Operand.value, Functor.map_map]
  rfl

-- The truth of a predicate is what it decides.
theorem truth_ofTruth (t : DataType) (x : Action (Option Bool)) :
    truth ⟨t, Evaluated.ofTruth <$> x⟩ = x := by
  simp only [truth, value_ofTruth, bind_map_left, Value.truth?_ofTruth]
  exact bind_pure x

theorem finish_ofTruth (t : DataType) (x : Action (Option Bool)) :
    finish host roots ⟨t, Evaluated.ofTruth <$> x⟩ = Value.ofTruth <$> x := by
  simp only [finish, map_eq_pure_bind, bind_assoc, pure_bind]
  rfl

theorem map_unlessNull (o : Operand) (missing : α) (f : Value → Action α) (g : α → β) :
    g <$> unlessNull o missing f = unlessNull o (g missing) fun v => g <$> f v := by
  simp only [unlessNull, map_bind]
  refine bind_congr fun v => ?_
  split <;> simp

theorem unlessNull_bind (o : Operand) (missing : α) (f : Value → Action α) {k : α → Action β}
    (hk : k missing = pure last) :
    unlessNull o missing f >>= k = unlessNull o last fun v => f v >>= k := by
  simp only [unlessNull, bind_assoc]
  refine bind_congr fun v => ?_
  split
  case isTrue  => rw [pure_bind, hk]
  case isFalse => rfl

-- What follows a truth in a compound: it is left undecided by the truth `identity` alone.
def unlessDecided (identity : Bool) (rest : Action (Option Bool)) : Option Bool → Action (Option Bool)
  | none   => pure none
  | some t => if t = identity then rest else pure (some t)

theorem compound_cons (identity : Bool) (predicate : Operand) (predicates : List Operand) :
    compound identity (predicate :: predicates) =
      truth predicate >>= unlessDecided identity (compound identity predicates) := by
  refine bind_congr fun t => ?_
  cases t <;> rfl

theorem comparison_flag (o : Comparison) (left right : Operand) (negated : Bool) :
    Evaluated.ofTruth <$> comparison host o left right negated =
      Evaluated.flagged negated <$> comparison host o left right false := by
  simp only [comparison, map_unlessNull, map_bind, map_pure, Evaluated.flagged]
  congr 1; funext l; congr 1; funext r
  refine bind_congr fun result => ?_
  cases result <;> simp

theorem isNull_flag (o : Operand) (negated : Bool) :
    Evaluated.plain <$> isNull o negated =
      Evaluated.flagged negated <$> (fun v => some v.isNull) <$> o.value := by
  simp only [isNull, map_eq_pure_bind, bind_assoc, pure_bind]
  rfl

theorem isEmpty_flag (o : Operand) (negated : Bool) :
    Evaluated.plain <$> isEmpty o negated =
      Evaluated.flagged negated <$> (o.value >>= fun v => Action.ofExcept v.emptiness?) := by
  simp only [isEmpty, map_bind]
  refine bind_congr fun v => ?_
  cases v <;> rfl

end Evaluation

namespace Expression

-- Between and member compare one value with several ones and decide as they go.
def comparesSeveral : Expression → Bool
  | between .. => true
  | member ..  => true
  | _          => false

variable (host : Host) (roots : Roots) {e : Expression}

-- With either flag the predicate decides alike.
theorem exists_decision (hp : e.isPredicate) (hs : e.comparesSeveral = false) :
    ∃ x negated, e.meaning host roots = Evaluated.flagged negated <$> x ∧
      e.negate.meaning host roots = Evaluated.flagged (!negated) <$> x := by
  cases e <;> first | contradiction | skip
  case comparison o l r n =>
    have h := Evaluation.comparison_flag host o (l.operand host roots) (r.operand host roots)
    exact ⟨_, n, h n, h !n⟩
  case isNull e n =>
    have h := Evaluation.isNull_flag (e.operand host roots)
    exact ⟨_, n, h n, h !n⟩
  case isEmpty e n =>
    have h := Evaluation.isEmpty_flag (e.operand host roots)
    exact ⟨_, n, h n, h !n⟩
  case compound c ps n =>
    exact ⟨Evaluation.compound c.identity (operands host roots ps), n, rfl, rfl⟩
  case truth e n =>
    exact ⟨Evaluation.truth (e.operand host roots), n, rfl, rfl⟩

theorem meaning_of_isPredicate (hp : e.isPredicate) :
    ∃ x, e.meaning host roots = Evaluated.ofTruth <$> x := by
  cases hs : e.comparesSeveral
  case false =>
    have ⟨x, n, hx, _⟩ := exists_decision host roots hp hs
    refine ⟨Option.map (· != n) <$> x, ?_⟩
    simp only [hx, Functor.map_map]
    rfl
  case true =>
    cases e <;> first | contradiction | exact ⟨_, rfl⟩

theorem evaluate_compound_flag (t : DataType) (c : Connective) (ps : List Expression) (negated : Bool) :
    (compound t c ps negated).evaluate host roots =
      (fun t => Value.ofTruth (t.map (· != negated))) <$>
        Evaluation.compound c.identity (operands host roots ps) := by
  have hm : (compound t c ps negated).meaning host roots =
      Evaluated.ofTruth <$> Option.map (· != negated) <$>
        Evaluation.compound c.identity (operands host roots ps) := by
    rw [meaning, Functor.map_map]
  rw [evaluate, operand, hm, Evaluation.finish_ofTruth, Functor.map_map]

-- Nothing is pending in a predicate, so that callers see the internal value.
theorem evaluate_of_isPredicate (hp : e.isPredicate) :
    e.evaluate host roots = e.internal host roots := by
  have ⟨x, hx⟩ := meaning_of_isPredicate host roots hp
  simp only [evaluate, internal, operand, hx, Evaluation.finish_ofTruth, Evaluation.value_ofTruth]

end Expression

end Trivalent
