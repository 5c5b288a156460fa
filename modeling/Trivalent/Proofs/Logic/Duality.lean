import Mathlib.Data.List.Forall2
import Trivalent.Proofs.Context
import Trivalent.Proofs.Logic.Negation

/-!
# Duality

De Morgan's laws. To negate a compound is to negate its predicates and to take the other connective. This
comes to the same truth or error with the same calls and changes of the store, as both ask the predicates in
the same order and end at the same one.
-/

namespace Trivalent

def Connective.dual : Connective → Connective
  | and => or
  | or  => and

theorem Connective.identity_dual (c : Connective) : c.dual.identity = !c.identity := by
  cases c <;> rfl

namespace Evaluation

-- A predicate is negated if the truth that it gives is.
def Negates (p q : Operand) : Prop :=
  truth q = Option.map (!·) <$> truth p

variable {ps qs : List Operand}

theorem unlessDecided_not (identity : Bool) (rest : Action (Option Bool)) (t : Option Bool) :
    unlessDecided (!identity) (Option.map (!·) <$> rest) (t.map (!·)) =
      Option.map (!·) <$> unlessDecided identity rest t := by
  cases t
  case none   => simp [unlessDecided]
  case some t =>
    simp only [unlessDecided, Option.map_some]
    split
    case isTrue ht  => rw [if_pos (Bool.not_inj ht)]
    case isFalse ht =>
      rw [if_neg fun h => ht (congrArg _ h)]
      simp

theorem compound_negates (h : List.Forall₂ Negates ps qs) (identity : Bool) :
    compound (!identity) qs = Option.map (!·) <$> compound identity ps := by
  induction h
  case nil => simp [compound]
  case cons p q ps qs hp _ hi =>
    calc compound (!identity) (q :: qs)
      _ = Option.map (!·) <$> truth p >>= unlessDecided (!identity) (compound (!identity) qs) := by
        rw [compound_cons, hp]
      _ = truth p >>= fun t => Option.map (!·) <$> unlessDecided identity (compound identity ps) t := by
        rw [bind_map_left, hi]
        exact bind_congr fun t => unlessDecided_not identity _ t
      _ = Option.map (!·) <$> compound identity (p :: ps) := by
        rw [compound_cons, map_bind]

end Evaluation

namespace Expression

open Evaluation (Negates)

variable (host : Host) (roots : Roots) {p : Expression} {ps : List Expression}

theorem negates_negate (hs : p.comparesSeveral = false) :
    Negates (p.operand host roots) (p.negate.operand host roots) := by
  have hv : (p.negate.operand host roots).value =
      (p.operand host roots).value >>= fun v => Action.ofExcept v.not :=
    internal_negate host roots hs
  rw [Negates, Evaluation.truth, Evaluation.truth, hv, bind_assoc, map_bind]
  refine bind_congr fun v => ?_
  rw [Value.not_eq_truth?, Action.ofExcept_map, bind_map_left, map_eq_pure_bind]
  simp only [Value.truth?_ofTruth]
  rfl

-- De Morgan's laws, for conjunctions and disjunctions with any flag.
theorem evaluate_negate_compound (hs : ∀ p ∈ ps, p.comparesSeveral = false) (t u : DataType)
    (c : Connective) (negated : Bool) :
    (compound t c ps negated).negate.evaluate host roots =
      (compound u c.dual (ps.map negate) negated).evaluate host roots := by
  have hn : List.Forall₂ Negates (operands host roots ps) (operands host roots (ps.map negate)) := by
    simp only [operands_eq_map, List.map_map, List.forall₂_map_left_iff, List.forall₂_map_right_iff]
    exact List.forall₂_same.mpr fun p hp => negates_negate host roots (hs p hp)
  rw [negate, evaluate_compound_flag, evaluate_compound_flag, Connective.identity_dual,
    Evaluation.compound_negates hn, Functor.map_map]
  congr 1
  funext t
  cases t <;> simp

-- `NOT (5 IS NOT NULL AND p AND 5)`, where `p` is true. Either side fails, as 5 has no truth.
theorem evaluate_negate_compound_number :
    let roots := Roots.empty.bind "p" Standard.boolean (.boolean true)
    let five := literal Standard.integer (.integer 5)
    let ps := [isNull Standard.boolean five true, path ⟨Standard.boolean, "p", []⟩, five]
    (∀ p ∈ ps, p.comparesSeveral = false) ∧
      (compound Standard.boolean .and ps false).negate.evaluate .none roots =
        (compound Standard.boolean .or (ps.map negate) false).evaluate .none roots ∧
      ∀ s, ((compound Standard.boolean .or (ps.map negate) false).evaluate .none roots s).outcome =
        .error (.notBoolean .integer) := by
  intro roots five ps
  have hs : ∀ p ∈ ps, p.comparesSeveral = false := by
    simp [ps, five, comparesSeveral]
  exact ⟨hs, evaluate_negate_compound .none roots hs Standard.boolean Standard.boolean .and false,
    fun _ => rfl⟩

end Expression

end Trivalent
