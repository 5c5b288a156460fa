import Mathlib.Data.List.Forall2
import Trivalent.Proofs.Action.Course
import Trivalent.Proofs.Context
import Trivalent.Proofs.Logic.Predicate
import Trivalent.Standard

/-!
# Compounds and Kleene's logic

A compound asks its predicates from left to right and ends with the first one that does not leave it
undecided. What it decides is what Kleene's connectives make of the truths of all its predicates, which do
not ask for an order. Only nulls depend on the order: one that comes first hides a truth that decides.
-/

namespace Trivalent

/-! ## Connectives -/

namespace Kleene

def and : Option Bool → Option Bool → Option Bool
  | some false, _         => some false
  | _, some false         => some false
  | some true, some true  => some true
  | _, _                  => none

def or : Option Bool → Option Bool → Option Bool
  | some true, _          => some true
  | _, some true          => some true
  | some false, some false => some false
  | _, _                  => none

end Kleene

namespace Connective

def kleene : Connective → Option Bool → Option Bool → Option Bool
  | and => Kleene.and
  | or  => Kleene.or

-- Kleene's conjunction or disjunction of several truths.
def combined (c : Connective) (ts : List (Option Bool)) : Option Bool :=
  ts.foldr c.kleene (some c.identity)

-- The truth at which a compound ends that asks for one after the other.
def decided (c : Connective) : List (Option Bool) → Option Bool
  | []           => some c.identity
  | none :: _    => none
  | some t :: ts => if t = c.identity then decided c ts else some t

variable {c : Connective} {ts : List (Option Bool)}

theorem kleene_identity (c : Connective) (t : Option Bool) : c.kleene (some c.identity) t = t := by
  cases c <;> rcases t with _ | _ | _ <;> rfl

theorem kleene_of_ne_identity (hb : b ≠ c.identity) (t : Option Bool) :
    c.kleene (some b) t = some b := by
  cases c <;> cases b <;> first | contradiction | rfl

theorem combined_of_decided (h : c.decided ts = some b) : c.combined ts = some b := by
  induction ts
  case nil => exact h
  case cons first ts hi =>
    change c.kleene first (c.combined ts) = some b
    cases first
    case none => contradiction
    case some t =>
      rw [decided] at h
      split at h
      case isTrue ht =>
        rw [ht, kleene_identity]
        exact hi h
      case isFalse ht =>
        rw [kleene_of_ne_identity ht]
        exact h

theorem decided_eq_none_iff :
    c.decided ts = none ↔
      ∃ before after, ts = before ++ none :: after ∧ ∀ t ∈ before, t = some c.identity := by
  induction ts
  case nil => simp [decided]
  case cons first ts hi =>
    cases first
    case none => exact ⟨fun _ => ⟨[], ts, rfl, nofun⟩, fun _ => rfl⟩
    case some t =>
      rw [decided]
      split
      case isTrue ht =>
        rw [hi]
        constructor
        · intro ⟨before, after, hts, hb⟩
          exact ⟨some t :: before, after, congrArg _ hts, List.forall_mem_cons.mpr ⟨congrArg _ ht, hb⟩⟩
        · intro ⟨before, after, hts, hb⟩
          cases before <;> cases hts
          exact ⟨_, after, rfl, (List.forall_mem_cons.mp hb).2⟩
      case isFalse ht =>
        refine ⟨nofun, fun ⟨before, after, hts, hb⟩ => ?_⟩
        cases before <;> cases hts
        exact absurd (Option.some.inj ((List.forall_mem_cons.mp hb).1)) ht

end Connective

/-! ## Runs -/

namespace Evaluation

-- The predicates leave a compound undecided one after the other. They are asked from the store `s` on,
-- make some calls and leave the store `s'` behind.
inductive Undecided (identity : Bool) : List Operand → Store → List Call → Store → Prop
  | nil  : Undecided identity [] s [] s
  | cons : (p.value s).outcome = .ok (.boolean identity) →
           Undecided identity ps (p.value s).store calls s' →
           Undecided identity (p :: ps) s ((p.value s).calls ++ calls) s'

-- What comes of a predicate that ends a compound with the given flag. A failure is passed on, and so is
-- null.
def settled (negated : Bool) : Except EvalError Value → Except EvalError Value
  | .ok .null        => .ok .null
  | .ok (.boolean b) => .ok (.boolean (b != negated))
  | .ok v            => .error (.notBoolean v.kind)
  | .error err       => .error err

variable {identity : Bool} {p : Operand} {ps : List Operand} {s : Store}

theorem truth_apply (p : Operand) (s : Store) :
    truth p s = ⟨(p.value s).outcome >>= Value.truth?, (p.value s).calls, (p.value s).store⟩ := by
  rw [truth]
  cases h : (p.value s).outcome
  case error err => exact Action.bind_error h _
  case ok v =>
    rw [Action.bind_ok h]
    cases ht : v.truth? <;> simp [bind, Except.bind, ht, Ending.after, Action.ofExcept, Action.fail,
      Action.pure]

-- The induction is on the predicates that leave the compound undecided. The others go on where these end.
theorem compound_of_undecided (h : Undecided identity ps s calls s') (rest : List Operand) :
    compound identity (ps ++ rest) s = (compound identity rest s').after calls := by
  induction h
  case nil => rfl
  case cons ps calls s' p s ho _ hi =>
    have ht : (truth p s).outcome = .ok (some identity) := by
      rw [truth_apply, ho]
      rfl
    calc compound identity (p :: ps ++ rest) s
      _ = (unlessDecided identity (compound identity (ps ++ rest)) (some identity)
            (truth p s).store).after (truth p s).calls := by
        rw [List.cons_append, compound_cons, Action.bind_ok ht]
      _ = (compound identity (ps ++ rest) (p.value s).store).after (p.value s).calls := by
        rw [unlessDecided, if_pos rfl, truth_apply]
      _ = ((compound identity rest s').after calls).after (p.value s).calls := by
        rw [hi]
      _ = (compound identity rest s').after ((p.value s).calls ++ calls) :=
        Action.after_after ..

-- A predicate that does not leave a compound undecided ends it, whatever predicates come after it.
theorem compound_of_decisive (h : (p.value s).outcome ≠ .ok (.boolean identity)) (negated : Bool)
    (rest : List Operand) :
    ((fun t => Value.ofTruth (t.map (· != negated))) <$> compound identity (p :: rest)) s =
      ⟨settled negated (p.value s).outcome, (p.value s).calls, (p.value s).store⟩ := by
  have ht := truth_apply p s
  rw [Action.map_apply, compound_cons]
  cases ho : (p.value s).outcome
  case error err =>
    rw [ho] at ht
    rw [Action.bind_error (congrArg Ending.outcome ht), ht]
    rfl
  case ok v =>
    rw [ho] at ht h
    cases v
    case null =>
      rw [Action.bind_ok (congrArg Ending.outcome ht), ht]
      simp [unlessDecided, Ending.after, Action.pure_def, Action.pure, Except.map, settled, Value.ofTruth]
    case boolean b =>
      have hb : b ≠ identity := fun hb => h (by rw [hb])
      rw [Action.bind_ok (congrArg Ending.outcome ht), ht]
      simp [unlessDecided, hb, Ending.after, Action.pure_def, Action.pure, Except.map, settled,
        Value.ofTruth]
    all_goals
      rw [Action.bind_error (congrArg Ending.outcome ht), ht]
      rfl

-- Predicates that have a truth or null, each from the same store, and leave the store as it is.
theorem compound_of_truths {c : Connective} {ts : List (Option Bool)}
    (h : List.Forall₂ (fun p t => (p.value s).outcome = .ok (.ofTruth t) ∧ (p.value s).store = s) ps ts) :
    (compound c.identity ps s).outcome = .ok (c.decided ts) := by
  induction h
  case nil => rfl
  case cons p t ps ts hp _ hi =>
    have ht : (truth p s).outcome = .ok t := by
      rw [truth_apply, hp.1]
      exact Value.truth?_ofTruth t
    have hs : (truth p s).store = s := by
      rw [truth_apply, hp.2]
    rw [compound_cons, Action.bind_ok ht, hs]
    cases t
    case none => rfl
    case some t =>
      rw [unlessDecided, Connective.decided]
      split
      case isTrue  => exact hi
      case isFalse => rfl

end Evaluation

namespace Expression

open Evaluation (Undecided settled)

variable (host : Host) (roots : Roots)

-- Either no predicate ends the compound or there is a first one that does.
theorem exists_undecided (identity : Bool) (ps : List Expression) (s : Store) :
    (∃ calls s', Undecided identity (operands host roots ps) s calls s') ∨
      ∃ before p after calls s', ps = before ++ p :: after ∧
        Undecided identity (operands host roots before) s calls s' ∧
        (p.internal host roots s').outcome ≠ .ok (.boolean identity) := by
  induction ps generalizing s
  case nil => exact .inl ⟨[], s, .nil⟩
  case cons p ps hi =>
    by_cases hp : (p.internal host roots s).outcome = .ok (.boolean identity)
    case neg => exact .inr ⟨[], p, ps, [], s, rfl, .nil, hp⟩
    case pos =>
      cases hi (p.internal host roots s).store
      case inl h =>
        obtain ⟨calls, s', h⟩ := h
        exact .inl ⟨_, s', .cons hp h⟩
      case inr h =>
        obtain ⟨before, q, after, calls, s', hps, h, hq⟩ := h
        exact .inr ⟨p :: before, q, after, _, s', congrArg _ hps, .cons hp h, hq⟩

theorem evaluate_of_undecided {c : Connective}
    (h : Undecided c.identity (operands host roots ps) s calls s') (t : DataType) (negated : Bool) :
    (compound t c ps negated).evaluate host roots s =
      ⟨.ok (.boolean (c.identity != negated)), calls, s'⟩ := by
  have hc := Evaluation.compound_of_undecided h []
  rw [List.append_nil] at hc
  rw [evaluate_compound_flag, Action.map_apply, hc]
  simp [Evaluation.compound, Ending.after, Action.pure_def, Action.pure, Except.map, Value.ofTruth]

theorem evaluate_of_decisive {c : Connective}
    (h : Undecided c.identity (operands host roots before) s calls s')
    (hp : (p.internal host roots s').outcome ≠ .ok (.boolean c.identity)) (t : DataType) (negated : Bool)
    (after : List Expression) :
    (compound t c (before ++ p :: after) negated).evaluate host roots s =
      Ending.after calls ⟨settled negated (p.internal host roots s').outcome,
        (p.internal host roots s').calls, (p.internal host roots s').store⟩ := by
  have hd := Evaluation.compound_of_decisive hp negated (operands host roots after)
  rw [evaluate_compound_flag, operands_eq_map, List.map_append, List.map_cons, ← operands_eq_map,
    ← operands_eq_map, map_eq_pure_bind,
    Action.bind_eq_after (Evaluation.compound_of_undecided h _), ← map_eq_pure_bind]
  exact congrArg _ hd

-- A compound asks its predicates from left to right up to the first one that fails, that has no truth, that
-- is null, or whose truth decides. Whatever comes after it is never asked. If the predicates have truths or
-- are null on their own, a truth of the compound is the one of Kleene's logic, and the compound is null if
-- and only if a null comes before all predicates that decide.
theorem evaluate_compound_kleene (t : DataType) (c : Connective) (ps : List Expression) (negated : Bool)
    (s : Store) :
    ((∃ calls s', Undecided c.identity (operands host roots ps) s calls s' ∧
        (compound t c ps negated).evaluate host roots s =
          ⟨.ok (.boolean (c.identity != negated)), calls, s'⟩) ∨
      ∃ before p after calls s', ps = before ++ p :: after ∧
        Undecided c.identity (operands host roots before) s calls s' ∧
        (p.internal host roots s').outcome ≠ .ok (.boolean c.identity) ∧
        ∀ others, (compound t c (before ++ p :: others) negated).evaluate host roots s =
          Ending.after calls ⟨settled negated (p.internal host roots s').outcome,
            (p.internal host roots s').calls, (p.internal host roots s').store⟩) ∧
      (∀ ts, List.Forall₂ (fun p t => (p.internal host roots s).outcome = .ok (.ofTruth t) ∧
            (p.internal host roots s).store = s) ps ts →
        let outcome := ((compound t c ps negated).evaluate host roots s).outcome
        (∃ r, outcome = .ok (.ofTruth r)) ∧
          (∀ b, outcome = .ok (.boolean b) → some b = (c.combined ts).map (· != negated)) ∧
          (outcome = .ok .null ↔
            ∃ before after, ts = before ++ none :: after ∧ ∀ t ∈ before, t = some c.identity)) ∧
      (compound t .and [] negated).evaluate host roots = pure (.boolean (true != negated)) ∧
      (compound t .or [] negated).evaluate host roots = pure (.boolean (false != negated)) := by
  refine ⟨?run, fun ts h => ?truths, ?and, ?or⟩
  case run =>
    refine (exists_undecided host roots c.identity ps s).imp ?_ ?_
    · intro ⟨calls, s', h⟩
      exact ⟨calls, s', h, evaluate_of_undecided host roots h t negated⟩
    · intro ⟨before, p, after, calls, s', hps, h, hp⟩
      exact ⟨before, p, after, calls, s', hps, h, hp, evaluate_of_decisive host roots h hp t negated⟩
  case truths =>
    have ho : ((compound t c ps negated).evaluate host roots s).outcome =
        .ok (.ofTruth ((c.decided ts).map (· != negated))) := by
      have h' : List.Forall₂ (fun p t => (p.value s).outcome = .ok (.ofTruth t) ∧ (p.value s).store = s)
          (operands host roots ps) ts := by
        rw [operands_eq_map]
        exact List.forall₂_map_left_iff.mpr h
      rw [evaluate_compound_flag, Action.map_apply, Evaluation.compound_of_truths h']
      rfl
    refine ⟨⟨_, ho⟩, fun b hb => ?_, ?_⟩
    · rw [ho] at hb
      cases hd : c.decided ts <;> rw [hd] at hb <;> cases hb
      rw [Connective.combined_of_decided hd]
      rfl
    · rw [ho, ← Connective.decided_eq_none_iff]
      cases c.decided ts <;> simp [Value.ofTruth]
  case and => exact evaluate_compound_flag host roots t .and [] negated
  case or  => exact evaluate_compound_flag host roots t .or [] negated

-- `TRUE AND p AND FALSE`, where `p` has no value. The null comes first, though the conjunction is false.
theorem evaluate_compound_kleene_null :
    let ps := [literal Standard.boolean (.boolean true), path ⟨Standard.boolean, "p", []⟩,
      literal Standard.boolean (.boolean false)]
    let ts := [some true, none, some false]
    let s : Store := ⟨[], ⟨0⟩⟩
    List.Forall₂ (fun p t => (p.internal .none .empty s).outcome = .ok (.ofTruth t) ∧
        (p.internal .none .empty s).store = s) ps ts ∧
      ((compound Standard.boolean .and ps false).evaluate .none .empty s).outcome = .ok .null ∧
      Connective.and.combined ts = some false := by
  intro ps ts s
  have h : List.Forall₂ (fun p t => (p.internal .none .empty s).outcome = .ok (.ofTruth t) ∧
      (p.internal .none .empty s).store = s) ps ts :=
    .cons ⟨rfl, rfl⟩ (.cons ⟨rfl, rfl⟩ (.cons ⟨rfl, rfl⟩ .nil))
  have hnull := (evaluate_compound_kleene .none .empty Standard.boolean .and ps false s).2.1 ts h
  refine ⟨h, hnull.2.2.mpr ⟨[some true], [some false], rfl, ?_⟩, rfl⟩
  simp [Connective.identity]

end Expression

end Trivalent
