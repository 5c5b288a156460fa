import Mathlib.Data.Nat.Bits
import Mathlib.Logic.Function.Iterate
import Trivalent.Document.Resolution
import Trivalent.Proofs.Logic.Negation
import Trivalent.Proofs.Typing.Soundness

/-!
# Negations of documents

A predicate is negated by its flag or by documents around it. Both ways count modulo two, and around a document
that is no predicate the first negation asks for its truth.
-/

namespace Trivalent

namespace Expression

variable {e : Expression}

-- Combines the flag of a predicate with another flag. Other expressions have no flag.
def turn (b : Bool) : Expression → Expression
  | comparison t o l r n => comparison t o l r (n ^^ b)
  | between t e l u n    => between t e l u (n ^^ b)
  | member t e is n      => member t e is (n ^^ b)
  | isNull t e n         => isNull t e (n ^^ b)
  | isEmpty t e n        => isEmpty t e (n ^^ b)
  | compound t c ps n    => compound t c ps (n ^^ b)
  | truth t e n          => truth t e (n ^^ b)
  | e                    => e

theorem turn_false (e : Expression) : e.turn false = e := by
  cases e <;> simp [turn]

theorem turn_turn (e : Expression) (a b : Bool) : (e.turn a).turn b = e.turn (a ^^ b) := by
  cases e <;> simp [turn]

@[simp]
theorem isPredicate_turn (e : Expression) (b : Bool) : (e.turn b).isPredicate = e.isPredicate := by
  cases e <;> rfl

theorem negate_eq_turn (hp : e.isPredicate) : e.negate = e.turn true := by
  cases e <;> first | contradiction | simp [negate, turn]

theorem negateIf_eq_turn (hp : e.isPredicate) (n : Bool) : e.negateIf n = e.turn n := by
  cases n
  case false => exact e.turn_false.symm
  case true  => exact negate_eq_turn hp

end Expression

open Expression Resolution

-- Turning a flag leaves a predicate a predicate.
theorem isPredicate_of_map_turn {x : Except ResolutionError Expression} (h : ∀ e, x = .ok e → e.isPredicate)
    (b : Bool) : ∀ e, x.map (turn b) = .ok e → e.isPredicate := by
  intro _ he
  have ⟨e, hx, ht⟩ := map_eq_ok.mp he
  rw [← ht, isPredicate_turn]
  exact h e hx

-- The first result is a predicate or an error, the second one is the predicate with the other flag or the
-- same error.
structure Opposed (x y : Except ResolutionError Expression) : Prop where
  predicate : ∀ e, x = .ok e → e.isPredicate
  turned    : y = x.map (turn true)

namespace Opposed

theorem pure {e : Expression} (hp : e.isPredicate) (n : Bool) :
    Opposed (Pure.pure (e.negateIf n)) (Pure.pure (e.negateIf !n)) := by
  simp only [negateIf_eq_turn hp]
  refine ⟨?predicate, ?turned⟩
  case predicate =>
    rintro _ ⟨⟩
    rwa [isPredicate_turn]
  case turned =>
    simp only [Pure.pure, Except.pure, Except.map, turn_turn, Bool.xor_true]

-- What both results need beforehand may fail, with one error for both of them.
theorem bind {f g : α → Except ResolutionError Expression} (h : ∀ a, Opposed (f a) (g a)) :
    Opposed (x >>= f) (x >>= g) := by
  cases x
  case error => exact ⟨nofun, rfl⟩
  case ok a  => exact h a

end Opposed

namespace Document

variable (registry : Registry) (roots : Roots) {d : Document}

-- The documents that have a flag of their own.
def isPredicate : Document → Bool
  | comparison .. => true
  | between ..    => true
  | member ..     => true
  | isNull ..     => true
  | isEmpty ..    => true
  | compound ..   => true
  | truth ..      => true
  | _             => false

-- Turns the flag of a document over.
def flip : Document → Document
  | comparison o l r n => comparison o l r !n
  | between e l u n    => between e l u !n
  | member e is n      => member e is !n
  | isNull e n         => isNull e !n
  | isEmpty e n        => isEmpty e !n
  | compound c ps n    => compound c ps !n
  | truth e n          => truth e !n
  | d                  => d

-- The flag is looked at last, when all the parts of the predicate have been resolved.
theorem resolve_flip (hd : d.isPredicate) :
    Opposed (d.resolve registry roots) (d.flip.resolve registry roots) := by
  cases d <;> first | contradiction | simp only [flip, resolve]
  case comparison => exact .bind fun _ => .bind fun _ => .bind fun _ => .bind fun _ => .pure rfl _
  case between    => exact .bind fun _ => .bind fun _ => .bind fun _ => .bind fun _ => .pure rfl _
  case member     => exact .bind fun _ => .bind fun _ => .bind fun _ => .pure rfl _
  case isNull     => exact .bind fun _ => .bind fun _ => .pure rfl _
  case isEmpty    => exact .bind fun _ => .bind fun _ => .pure rfl _
  case compound   => exact .bind fun _ => .bind fun _ => .pure rfl _
  case truth      => exact .bind fun _ => .bind fun _ => .pure rfl _

-- A document around another one turns the flag of what it resolves to.
theorem resolve_not (h : ∀ e, d.resolve registry roots = .ok e → e.isPredicate) :
    Opposed (d.resolve registry roots) ((not d).resolve registry roots) := by
  refine ⟨h, ?_⟩
  rw [resolve]
  cases hd : d.resolve registry roots
  case error => rfl
  case ok e  =>
    have hp := h e hd
    change negation registry e = .ok (e.turn true)
    rw [negation, if_pos hp, negate_eq_turn hp]

-- Several ones turn it as often as there are of them.
theorem resolve_iterate_not (h : ∀ e, d.resolve registry roots = .ok e → e.isPredicate) (n : Nat) :
    (not^[n] d).resolve registry roots = (d.resolve registry roots).map (turn n.bodd) := by
  induction n
  case zero =>
    cases hd : d.resolve registry roots
    case error => exact hd
    case ok e  => simpa [Except.map, turn_false] using hd
  case succ n hi =>
    have hn : ∀ e, (not^[n] d).resolve registry roots = .ok e → e.isPredicate :=
      hi ▸ isPredicate_of_map_turn h n.bodd
    rw [Function.iterate_succ_apply', (resolve_not registry roots hn).turned, hi, Nat.bodd_succ]
    cases d.resolve registry roots
    case error => rfl
    case ok    => simp only [Except.map, turn_turn, Bool.xor_true]

-- The first document around an expression that is no predicate asks for its truth.
theorem resolve_not_of_not_isPredicate (hb : registry.type? "BOOLEAN" = some t)
    (hd : d.resolve registry roots = .ok e) (hp : e.isPredicate = false) :
    (not d).resolve registry roots = .ok (.truth t e true) := by
  have ht : boolean registry = .ok t := requireType_of_type? hb
  rw [resolve, hd]
  change negation registry e = _
  simp only [negation, hp, ht]
  rfl

-- Negations of a document count modulo two, and the flag of a predicate counts as one of them. It takes one
-- negation to make a predicate of another expression.
theorem resolve_nots (d : Document) (n : Nat) :
    (d.isPredicate →
      (∀ e, d.resolve registry roots = .ok e → e.isPredicate) ∧
      (not^[n] d).resolve registry roots = (d.resolve registry roots).map (turn n.bodd) ∧
      (not^[n] d.flip).resolve registry roots = (not^[n + 1] d).resolve registry roots) ∧
    (∀ t e, registry.type? "BOOLEAN" = some t → d.resolve registry roots = .ok e → e.isPredicate = false →
      0 < n → (not^[n] d).resolve registry roots = .ok (.truth t e n.bodd)) := by
  refine ⟨fun hd => ?predicate, fun t e hb hd hp hn => ?other⟩
  case predicate =>
    have hp := (resolve_flip registry roots hd).predicate
    have hf := (resolve_flip registry roots hd).turned
    have hp' : ∀ e, d.flip.resolve registry roots = .ok e → e.isPredicate :=
      hf ▸ isPredicate_of_map_turn hp true
    refine ⟨hp, resolve_iterate_not registry roots hp n, ?_⟩
    rw [resolve_iterate_not registry roots hp', resolve_iterate_not registry roots hp, hf, Nat.bodd_succ]
    cases d.resolve registry roots
    case error => rfl
    case ok    => simp only [Except.map, turn_turn, Bool.true_xor]
  case other =>
    have ⟨n, hn⟩ := Nat.exists_eq_add_one.mpr hn
    have hnot := resolve_not_of_not_isPredicate registry roots hb hd hp
    have hpred : ∀ e, (not d).resolve registry roots = .ok e → e.isPredicate := by
      rw [hnot]
      rintro _ ⟨⟩
      rfl
    rw [hn, Function.iterate_succ_apply, resolve_iterate_not registry roots hpred, hnot, Nat.bodd_succ]
    simp only [Except.map, turn, Bool.true_xor]

-- Three negations of the price not being below four, and two of the price itself.
theorem resolve_nots_price :
    let d := comparison "<" (path "item" ["price"]) (literal (.number (.integer 4)) none) true
    let price := Expression.path ⟨Standard.integer, "item", [Priced.price]⟩
    (d.isPredicate ∧
      (not^[3] d).resolve Priced.registry Priced.roots =
        (d.resolve Priced.registry Priced.roots).map (turn true) ∧
      (not^[3] d.flip).resolve Priced.registry Priced.roots =
        (not^[4] d).resolve Priced.registry Priced.roots) ∧
    (not^[2] (path "item" ["price"])).resolve Priced.registry Priced.roots =
      .ok (.truth Standard.boolean price false) := by
  have h := resolve_nots Priced.registry Priced.roots
    (comparison "<" (path "item" ["price"]) (literal (.number (.integer 4)) none) true) 3
  refine ⟨⟨rfl, (h.1 rfl).2⟩, ?_⟩
  exact (resolve_nots Priced.registry Priced.roots (path "item" ["price"]) 2).2 _ _
    (by with_unfolding_all rfl) (by with_unfolding_all rfl) rfl Nat.two_pos

end Document

end Trivalent
