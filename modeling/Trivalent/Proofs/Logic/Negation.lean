import Trivalent.Proofs.Action.Course
import Trivalent.Proofs.Logic.Predicate
import Trivalent.Proofs.Outcome
import Trivalent.Standard

/-!
# Negation

To negate an expression is to negate its value in three-valued logic, unless it compares one value with
several ones. Two negations of a predicate cancel out.
-/

namespace Trivalent

-- The negation of three-valued logic, in which only truth values can be negated.
def Value.not : Value → Except EvalError Value
  | null      => .ok null
  | boolean b => .ok (boolean !b)
  | v         => .error (.notBoolean v.kind)

theorem Value.not_eq_truth? (v : Value) : v.not = v.truth?.map fun t => ofTruth (t.map (!·)) := by
  cases v <;> rfl

theorem Value.not_ofTruth (t : Option Bool) : (ofTruth t).not = .ok (ofTruth (t.map (!·))) := by
  cases t <;> rfl

theorem Evaluated.flagged_not (negated : Bool) (t : Option Bool) :
    flagged (!negated) t = .ofTruth ((t.map (· != negated)).map (!·)) := by
  cases t <;> simp [flagged]

namespace Action

-- What is done to the truths that an action gives can be done to the values that stand for them.
theorem map_ofTruth_bind_not (x : Action (Option Bool)) :
    (Value.ofTruth <$> x >>= fun v => ofExcept v.not) =
      (fun t => Value.ofTruth (t.map (!·))) <$> x := by
  rw [bind_map_left, map_eq_pure_bind]
  simp only [Value.not_ofTruth]
  rfl

theorem ofExcept_map (g : α → β) (o : Except EvalError α) : ofExcept (o.map g) = g <$> ofExcept o := by
  cases o <;> rfl

end Action

namespace Expression

variable (host : Host) (roots : Roots) {e : Expression}

theorem negate_negate (hp : e.isPredicate) : e.negate.negate = e := by
  cases e <;> first | contradiction | simp [negate]

theorem isPredicate_negate (e : Expression) : e.negate.isPredicate := by
  cases e <;> rfl

theorem exists_truth_of_isPredicate (hp : e.isPredicate)
    (h : (e.internal host roots s).outcome = .ok v) : ∃ t, v = .ofTruth t := by
  obtain ⟨x, hx⟩ := meaning_of_isPredicate host roots hp
  simp only [internal, operand, hx, Evaluation.value_ofTruth, Action.map_apply] at h
  obtain ⟨t, _, ht⟩ := map_eq_ok.mp h
  exact ⟨t, ht.symm⟩

-- A predicate turns its flag over, and with it what it has decided.
theorem internal_negate_of_isPredicate (hp : e.isPredicate) (hs : e.comparesSeveral = false) :
    e.negate.internal host roots = e.internal host roots >>= fun v => Action.ofExcept v.not := by
  have ⟨x, n, hx, hn⟩ := exists_decision host roots hp hs
  have hv : e.internal host roots = Value.ofTruth <$> (Option.map (· != n)) <$> x := by
    simp only [internal, operand, hx, Operand.value, Functor.map_map]
    rfl
  have hv' : e.negate.internal host roots =
      (fun t => Value.ofTruth (t.map (!·))) <$> (Option.map (· != n)) <$> x := by
    simp only [internal, operand, hn, Operand.value, Functor.map_map, Evaluated.flagged_not]
    rfl
  rw [hv, hv', Action.map_ofTruth_bind_not]

-- Any other expression is asked for its truth.
theorem internal_negate_of_not_isPredicate (hp : e.isPredicate = false) :
    e.negate.internal host roots = e.internal host roots >>= fun v => Action.ofExcept v.not := by
  have hn : e.negate = .truth e.type e true := by
    cases e <;> first | contradiction | rfl
  simp only [hn, internal, operand, meaning, Operand.value, Evaluation.truth, map_bind,
    Functor.map_map, Value.not_eq_truth?, Action.ofExcept_map, Bool.bne_true]
  rfl

theorem internal_negate (hs : e.comparesSeveral = false) :
    e.negate.internal host roots = e.internal host roots >>= fun v => Action.ofExcept v.not := by
  cases hp : e.isPredicate
  case true  => exact internal_negate_of_isPredicate host roots hp hs
  case false => exact internal_negate_of_not_isPredicate host roots hp

-- What an expression does, its negation does as well: only the value that comes out is negated. Between
-- and member are not of that kind, but even their negations cancel out.
theorem evaluate_negate (e : Expression) :
    (e.comparesSeveral = false → e.negate.evaluate host roots =
        e.internal host roots >>= fun v => Action.ofExcept v.not) ∧
      (e.isPredicate → e.negate.negate = e ∧
        ∀ s v, (e.internal host roots s).outcome = .ok v → ∃ t, v = .ofTruth t) := by
  refine ⟨fun hs => ?negation, fun hp => ⟨negate_negate hp, fun _ _ => ?truth⟩⟩
  case truth => exact exists_truth_of_isPredicate host roots hp
  case negation =>
    rw [evaluate_of_isPredicate host roots e.isPredicate_negate]
    exact internal_negate host roots hs

-- `NOT (5 IS NULL OR p)`, where `p` has no value.
theorem evaluate_negate_or :
    let e := Expression.compound Standard.boolean .or
      [.isNull Standard.boolean (.literal Standard.integer (.integer 5)) false,
       .truth Standard.boolean (.path ⟨Standard.boolean, "p", []⟩) false] true
    (e.comparesSeveral = false ∧ e.isPredicate) ∧
      e.negate.evaluate .none .empty =
        (e.internal .none .empty >>= fun v => Action.ofExcept v.not) ∧
      e.negate.negate = e ∧
        ∀ s v, (e.internal .none .empty s).outcome = .ok v → ∃ t, v = .ofTruth t :=
  ⟨⟨rfl, rfl⟩, (evaluate_negate .none .empty _).1 rfl, (evaluate_negate .none .empty _).2 rfl⟩

end Expression

end Trivalent
