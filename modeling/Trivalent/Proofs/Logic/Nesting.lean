import Trivalent.Proofs.Context
import Trivalent.Proofs.Logic.Predicate

/-!
# Nested compounds

A compound in a compound of the same connective asks its predicates in the order in which the outer one
would ask them, and ends where the outer one would end. Its parentheses can be left out.
-/

namespace Trivalent

namespace Evaluation

variable {identity : Bool} {p : Operand}

-- What undecided predicates leave to the ones after them is a compound again.
theorem unlessDecided_bind (identity : Bool) (x rest : Action (Option Bool)) (t : Option Bool) :
    unlessDecided identity x t >>= unlessDecided identity rest =
      unlessDecided identity (x >>= unlessDecided identity rest) t := by
  cases t
  case none => rfl
  case some t =>
    simp only [unlessDecided]
    split
    case isTrue     => rfl
    case isFalse ht => simp [unlessDecided, ht]

-- The induction is on the predicates that are asked first.
theorem compound_append (identity : Bool) (ps qs : List Operand) :
    compound identity (ps ++ qs) = compound identity ps >>= unlessDecided identity (compound identity qs) := by
  induction ps
  case nil => simp [compound, unlessDecided]
  case cons p ps hi =>
    calc compound identity (p :: ps ++ qs)
      _ = truth p >>= unlessDecided identity
            (compound identity ps >>= unlessDecided identity (compound identity qs)) := by
        rw [List.cons_append, compound_cons, hi]
      _ = truth p >>= fun t => unlessDecided identity (compound identity ps) t >>=
            unlessDecided identity (compound identity qs) := by
        simp only [unlessDecided_bind]
      _ = compound identity (p :: ps) >>= unlessDecided identity (compound identity qs) := by
        rw [compound_cons, bind_assoc]

-- A predicate whose truth is that of a compound can give way to the predicates of this compound.
theorem compound_nested (hp : truth p = compound identity ys) (xs zs : List Operand) :
    compound identity (xs ++ p :: zs) = compound identity (xs ++ ys ++ zs) := by
  have hz : compound identity (p :: zs) = compound identity (ys ++ zs) := by
    rw [compound_cons, hp, compound_append]
  rw [List.append_assoc, compound_append, compound_append identity xs, hz]

end Evaluation

namespace Expression

variable (host : Host) (roots : Roots)

theorem truth_compound (t : DataType) (c : Connective) (ps : List Expression) :
    Evaluation.truth ((compound t c ps false).operand host roots) =
      Evaluation.compound c.identity (operands host roots ps) := by
  have hm : (compound t c ps false).meaning host roots =
      Evaluated.ofTruth <$> Evaluation.compound c.identity (operands host roots ps) := by
    simp only [meaning, Bool.bne_false, Option.map_id']
  rw [operand, hm, Evaluation.truth_ofTruth]

-- Conjunctions in conjunctions and disjunctions in disjunctions flatten at any place, with the same
-- outcome, calls and store. Without predicates they can be left out altogether.
theorem evaluate_compound_nested (t u : DataType) (c : Connective) (xs ys zs : List Expression)
    (negated : Bool) :
    (compound t c (xs ++ compound u c ys false :: zs) negated).evaluate host roots =
        (compound t c (xs ++ ys ++ zs) negated).evaluate host roots ∧
      (compound t c (xs ++ compound u c [] false :: zs) negated).evaluate host roots =
        (compound t c (xs ++ zs) negated).evaluate host roots := by
  have flattens (ys : List Expression) :
      (compound t c (xs ++ compound u c ys false :: zs) negated).evaluate host roots =
        (compound t c (xs ++ ys ++ zs) negated).evaluate host roots := by
    have hn := Evaluation.compound_nested (truth_compound host roots u c ys) (operands host roots xs)
      (operands host roots zs)
    simp only [operands_eq_map] at hn
    simp only [evaluate_compound_flag, operands_eq_map, List.map_append, List.map_cons, hn]
  refine ⟨flattens ys, ?_⟩
  simpa using flattens []

end Expression

end Trivalent
