import Trivalent.Proofs.Action.Related
import Trivalent.Proofs.Context
import Trivalent.Proofs.Evaluation.Agreement
import Trivalent.Proofs.Evaluation.Pending

/-!
# Other adapters

The attributes on the paths of an expression and the results of its functions are given other adapters, with
which a host turns values into their internal form as before, while it may turn them into their model form
in any other way. Up to the adapters that are pending, this changes nothing of what comes of the expression.
-/

namespace Trivalent

open Trivalent.Action (Agrees Relates)

/-! ## Functions that evaluate nothing -/

-- The script has no body evaluated.
inductive Script.SelfContained : Script → Prop
  | done  : SelfContained (.done outcome)
  | read  : (∀ v, (next v).SelfContained) → SelfContained (.read key next)
  | write : next.SelfContained → SelfContained (.write key value next)

theorem Script.SelfContained.run_eq {script : Script} (h : script.SelfContained)
    (bodies bodies' : List (Action Value)) : script.run bodies = script.run bodies' := by
  induction h
  case done          => rfl
  case read hi       => exact bind_congr hi
  case write hi      => exact bind_congr fun _ => hi

-- Builtin invokers have nothing to evaluate.
def Function.SelfContained (host : Host) (roots : Roots) (f : Function) : Prop :=
  ∀ name bodies, f.invoker = some (.host name bodies) →
    ∀ arguments, (host.invoke name roots f arguments).SelfContained

/-! ## Adapters in their places -/

-- Other adapters for the places of the given ones, which are on attributes and on the results of functions.
structure Readapting where
  field  : Attribute → Adapter → Adapter
  result : Function → Adapter → Adapter

section

variable (σ : Readapting)

def Attribute.readapt (field : Attribute) : Attribute :=
  { field with adapter := field.adapter.map (σ.field field) }

@[simp]
theorem Attribute.readapt_accessor (field : Attribute) : (field.readapt σ).accessor = field.accessor :=
  rfl

def Path.readapt (p : Path) : Path :=
  { p with attributes := p.attributes.map (·.readapt σ) }

-- Parameters keep their adapters.
def Function.readapt (f : Function) : Function :=
  { f with adapter := f.adapter.map (σ.result f) }

@[simp]
theorem Function.readapt_invoker (f : Function) : (f.readapt σ).invoker = f.invoker :=
  rfl

end

namespace Expression

mutual

def readapt (σ : Readapting) : Expression → Expression
  | literal t v          => literal t v
  | collection t is      => collection t (readaptAll σ is)
  | path p               => path (p.readapt σ)
  | signed t e n         => signed t (e.readapt σ) n
  | arithmetic t o l r   => arithmetic t o (l.readapt σ) (r.readapt σ)
  | call t f as          => call t (f.readapt σ) (readaptArguments σ as)
  | comparison t o l r n => comparison t o (l.readapt σ) (r.readapt σ) n
  | between t e l u n    => between t (e.readapt σ) (l.readapt σ) (u.readapt σ) n
  | member t e is n      => member t (e.readapt σ) (readaptAll σ is) n
  | isNull t e n         => isNull t (e.readapt σ) n
  | isEmpty t e n        => isEmpty t (e.readapt σ) n
  | compound t c ps n    => compound t c (readaptAll σ ps) n
  | truth t e n          => truth t (e.readapt σ) n

def readaptAll (σ : Readapting) : List Expression → List Expression
  | []      => []
  | e :: es => e.readapt σ :: readaptAll σ es

def readaptArguments (σ : Readapting) :
    List (Parameter × Expression) → List (Parameter × Expression)
  | []           => []
  | (p, e) :: as => (p, e.readapt σ) :: readaptArguments σ as

end

mutual

-- What `P` says of the functions that are called in an expression and of the parameters that they are
-- called with.
def EveryCall (P : Function → List Parameter → Prop) : Expression → Prop
  | literal ..           => True
  | collection _ is      => EveryCallOfAll P is
  | path _               => True
  | signed _ e _         => e.EveryCall P
  | arithmetic _ _ l r   => l.EveryCall P ∧ r.EveryCall P
  | call _ f as          => P f (as.map (·.1)) ∧ EveryCallOfArguments P as
  | comparison _ _ l r _ => l.EveryCall P ∧ r.EveryCall P
  | between _ e l u _    => e.EveryCall P ∧ l.EveryCall P ∧ u.EveryCall P
  | member _ e is _      => e.EveryCall P ∧ EveryCallOfAll P is
  | isNull _ e _         => e.EveryCall P
  | isEmpty _ e _        => e.EveryCall P
  | compound _ _ ps _    => EveryCallOfAll P ps
  | truth _ e _          => e.EveryCall P

def EveryCallOfAll (P : Function → List Parameter → Prop) : List Expression → Prop
  | []      => True
  | e :: es => e.EveryCall P ∧ EveryCallOfAll P es

def EveryCallOfArguments (P : Function → List Parameter → Prop) :
    List (Parameter × Expression) → Prop
  | []           => True
  | (_, e) :: as => e.EveryCall P ∧ EveryCallOfArguments P as

end

theorem type_readapt (σ : Readapting) (e : Expression) : (e.readapt σ).type = e.type := by
  cases e <;> rw [readapt] <;> rfl

theorem isBoundary_readapt (σ : Readapting) (e : Expression) :
    (e.readapt σ).isBoundary = e.isBoundary := by
  cases e <;> rw [readapt] <;> rfl

end Expression

/-! ## Hosts that know the other adapters -/

-- The adapters turn values into one internal form.
def Host.Converts (host host' : Host) (a a' : Adapter) : Prop :=
  host.toInternal a.name = host'.toInternal a'.name

-- `host'` does with the adapters that `σ` gives what `host` does with those in their places, but for the
-- conversion of values into their model form.
structure Host.Readapts (σ : Readapting) (host host' : Host) : Prop extends host.ComputesLike host' where
  access : ∀ name field, host.access name field = host'.access name (field.readapt σ)
  field  : ∀ field, ∀ a ∈ field.adapter, host.Converts host' a (σ.field field a)
  result : ∀ f, ∀ a ∈ f.adapter, host.Converts host' a (σ.result f a)
  invoke : ∀ name roots f, host.invoke name roots f = host'.invoke name roots (f.readapt σ)

-- The function evaluates nothing, and the adapters of the parameters are what they were.
def Host.Keeps (host host' : Host) (roots : Roots) (f : Function) (parameters : List Parameter) : Prop :=
  f.SelfContained host roots ∧
    ∀ p ∈ parameters, ∀ a ∈ p.adapter, host.toModel a.name = host'.toModel a.name

-- One value is left behind, beside adapters that turn values into one internal form.
structure Evaluated.Matches (host host' : Host) (e e' : Evaluated) : Prop where
  value   : e.value = e'.value
  pending : Option.Rel (host.Converts host') e.pending e'.pending

-- The operands do the same, but for the adapters that they leave pending.
structure Operand.Matches (host host' : Host) (o o' : Operand) : Prop where
  type   : o.type = o'.type
  action : o.action.Relates (Evaluated.Matches host host') o'.action

theorem Operand.Matches.agrees {o o' : Operand} (h : o.Matches host host' o') : o.Agrees o' where
  type  := h.type
  value := h.action.agrees_map fun _ _ hm => hm.value

namespace Evaluation

variable {σ : Readapting} {host host' : Host} {roots : Roots} {o o' : Operand} {a a' : Adapter}
  {as as' : List (Parameter × Operand)}

-- Nothing is left pending.
theorem map_matches {x x' : Action α} {g : α → Evaluated} (h : x.Agrees x')
    (hg : ∀ a, (g a).pending = none) : (g <$> x).Relates (Evaluated.Matches host host') (g <$> x') := by
  refine h.relates_map fun c => ⟨rfl, ?_⟩
  rw [hg]
  exact .none

theorem plain_matches (v : Value) :
    (pure (.plain v) : Action Evaluated).Relates (Evaluated.Matches host host') (pure (.plain v)) :=
  .pure ⟨rfl, .none⟩

theorem toInternal_agrees (h : host.Converts host' a a') (t : DataType) (v : Value) :
    (toInternal host roots a t v).Agrees (toInternal host' roots a' t v) := by
  simp only [toInternal, Host.Converts] at h ⊢
  rw [h]
  exact (Agrees.note _ _).bind fun _ => .refl _

theorem access_agrees (hh : Host.Readapts σ host host') (field : Attribute) (v : Value) :
    (access host field v).Agrees (access host' (field.readapt σ) v) := by
  simp only [access, Attribute.readapt_accessor]
  split
  case h_1 => exact .refl _
  case h_2 =>
    refine (Agrees.note _ _).bind fun _ => ?_
    split
    case h_1 => exact .refl _
    case h_2 =>
      rw [hh.access]
      exact .refl _

theorem step_agrees (hh : Host.Readapts σ host host') (field : Attribute) (v : Value) :
    (step host roots field v).Agrees (step host' roots (field.readapt σ) v) := by
  refine (access_agrees hh field v).bind fun w => ?_
  simp only [Attribute.readapt]
  cases ha : field.adapter
  case none   => exact .refl _
  case some a => exact toInternal_agrees (hh.field field a ha) _ w

theorem pending_readapt {pending : Option Adapter} {g : Adapter → Adapter}
    (h : ∀ a ∈ pending, host.Converts host' a (g a)) :
    Option.Rel (host.Converts host') pending (pending.map g) := by
  cases pending
  case none   => exact .none
  case some a => exact .some (h a rfl)

-- The induction is on the attributes that are left.
theorem walk_readapt (hh : Host.Readapts σ host host') (fields : List Attribute) (v : Value) :
    (walk host roots v fields).Relates (Evaluated.Matches host host')
      (walk host' roots v (fields.map (·.readapt σ))) := by
  induction fields generalizing v
  case nil => exact plain_matches v
  case cons field fields hi =>
    by_cases hn : v = .null
    case pos =>
      subst hn
      simp only [walk_null]
      exact plain_matches _
    case neg =>
      cases fields
      case nil =>
        simp only [List.map, walk_singleton, Value.isNull_iff, hn, if_false]
        exact (step_agrees hh field v).relates_bind fun _ => .pure ⟨rfl, pending_readapt (hh.field field)⟩
      case cons next fields =>
        simp only [List.map, walk_cons_of_ne_nil _ _ (List.cons_ne_nil _ _), Value.isNull_iff, hn, if_false]
        exact (step_agrees hh field v).relates_bind hi

theorem argument_agrees (h : o.Matches host host' o') {p : Parameter}
    (hp : ∀ a ∈ p.adapter, host.toModel a.name = host'.toModel a.name) :
    (argument host roots p o).Agrees (argument host' roots p o') := by
  rw [argument_eq, argument_eq]
  refine h.action.agrees_bind fun e e' ⟨hv, ha⟩ => .bind ?internal fun v => ?model
  case internal =>
    rw [hv]
    generalize e.pending = pending, e'.pending = pending' at ha
    cases ha
    case none   => exact .refl _
    case some h => exact toInternal_agrees h _ _
  case model =>
    cases ha : p.adapter
    case none   => exact .refl _
    case some a =>
      simp only [toModel, hp a ha]
      exact .refl _

-- The induction is on the arguments that are left.
theorem arguments_agrees
    (h : List.Forall₂ (fun a a' => a.1 = a'.1 ∧ a.2.Matches host host' a'.2) as as')
    (hp : ∀ p ∈ as.map (·.1), ∀ a ∈ p.adapter, host.toModel a.name = host'.toModel a.name)
    (given : Arguments) : (arguments host roots given as).Agrees (arguments host' roots given as') := by
  induction h generalizing given
  case nil => exact .refl _
  case cons a a' as as' ha _ hi =>
    obtain ⟨p, o⟩ := a
    obtain ⟨p', o'⟩ := a'
    obtain ⟨rfl, ho⟩ := ha
    simp only [List.map_cons, List.forall_mem_cons] at hp
    exact (argument_agrees ho hp.1).bind fun v => hi hp.2 _

theorem run_agrees (hh : Host.Readapts σ host host') {f : Function} (hf : f.SelfContained host roots)
    {invoker : Invoker} (hi : f.invoker = some invoker) (bodies bodies' : List (Action Value))
    (values : Arguments) :
    (Invoking.run host roots f invoker bodies values).Agrees
      (Invoking.run host' roots (f.readapt σ) invoker bodies' values) := by
  cases invoker
  case length         => exact .refl _
  case locate         => exact .refl _
  case random         => exact .refl _
  case host name owned =>
    rw [Invoking.run, Invoking.run, ← hh.invoke, (hf name owned hi values).run_eq bodies bodies']
    exact .refl _

theorem call_readapt (hh : Host.Readapts σ host host') {f : Function}
    (hf : host.Keeps host' roots f (as.map (·.1)))
    (ha : List.Forall₂ (fun a a' => a.1 = a'.1 ∧ a.2.Matches host host' a'.2) as as')
    (bodies bodies' : List (Action Value)) :
    (call host roots f as bodies).Relates (Evaluated.Matches host host')
      (call host' roots (f.readapt σ) as' bodies') := by
  simp only [call, Function.readapt_invoker]
  cases hi : f.invoker
  case none => exact .fail _
  case some invoker =>
    refine (arguments_agrees ha hf.2 _).relates_bind fun values => ?_
    refine (Agrees.note _ _).relates_bind fun _ => ?_
    refine (run_agrees hh hf.1 hi bodies bodies' values).relates_bind fun _ => ?_
    exact .pure ⟨rfl, pending_readapt (hh.result f)⟩

end Evaluation

namespace Expression

variable {σ : Readapting} {host host' : Host} {roots : Roots}

open Evaluation

theorem operand_matches {e : Expression}
    (h : (e.meaning host roots).Relates (Evaluated.Matches host host') ((e.readapt σ).meaning host' roots)) :
    (Operand.mk e.type (e.meaning host roots)).Matches host host'
      ⟨(e.readapt σ).type, (e.readapt σ).meaning host' roots⟩ :=
  ⟨(type_readapt σ e).symm, h⟩

theorem operand_agrees {e : Expression}
    (h : (e.meaning host roots).Relates (Evaluated.Matches host host') ((e.readapt σ).meaning host' roots)) :
    (Operand.mk e.type (e.meaning host roots)).Agrees
      ⟨(e.readapt σ).type, (e.readapt σ).meaning host' roots⟩ :=
  (operand_matches h).agrees

-- Along the tree, what is pending is converted by the adapters that replace it, while what nodes do with the
-- values of their operands stays the same.
mutual

theorem meaning_readapt (hh : Host.Readapts σ host host') (e : Expression)
    (h : e.EveryCall (host.Keeps host' roots)) :
    (e.meaning host roots).Relates (Evaluated.Matches host host') ((e.readapt σ).meaning host' roots) := by
  have hc := hh.toComputesLike
  cases e <;> simp only [EveryCall] at h <;> rw [readapt, meaning, meaning]
  case literal t v => exact plain_matches v
  case collection is =>
    have hi := items_agrees (operands_agrees hh is h)
    simp only [bind_pure_comp]
    exact map_matches hi fun _ => rfl
  case path p => exact walk_readapt hh p.attributes _
  case signed t e n =>
    have he := operand_agrees (meaning_readapt hh e h)
    exact map_matches (signed_agrees hc he t n) fun _ => rfl
  case arithmetic t o l r =>
    have hl := operand_agrees (meaning_readapt hh l h.1)
    have hr := operand_agrees (meaning_readapt hh r h.2)
    exact map_matches (arithmetic_agrees hc hl hr t o) fun _ => rfl
  case call t f as =>
    have hf : host.Keeps host' roots f ((argumentOperands host roots as).map (·.1)) := by
      simpa [argumentOperands_eq_map, Function.comp_def] using h.1
    exact call_readapt hh hf (argumentOperands_readapt hh as h.2) _ _
  case comparison o l r n =>
    have hl := operand_agrees (meaning_readapt hh l h.1)
    have hr := operand_agrees (meaning_readapt hh r h.2)
    exact map_matches (comparison_agrees hc hl hr o n) fun _ => rfl
  case between e l u n =>
    have he := operand_agrees (meaning_readapt hh e h.1)
    have hl := operand_agrees (meaning_readapt hh l h.2.1)
    have hu := operand_agrees (meaning_readapt hh u h.2.2)
    exact map_matches (between_agrees hc he hl hu n) fun _ => rfl
  case member e is n =>
    have he := operand_agrees (meaning_readapt hh e h.1)
    have hi := operands_agrees hh is h.2
    exact map_matches (member_agrees hc he hi n) fun _ => rfl
  case isNull e n =>
    have he := operand_agrees (meaning_readapt hh e h)
    exact map_matches (isNull_agrees he n) fun _ => rfl
  case isEmpty e n =>
    have he := operand_agrees (meaning_readapt hh e h)
    exact map_matches (isEmpty_agrees he n) fun _ => rfl
  case compound c ps n =>
    have hp := operands_agrees hh ps h
    exact map_matches (compound_agrees hp c.identity) fun _ => rfl
  case truth e n =>
    have he := operand_agrees (meaning_readapt hh e h)
    exact map_matches (truth_agrees he) fun _ => rfl

theorem operands_agrees (hh : Host.Readapts σ host host') (es : List Expression)
    (h : EveryCallOfAll (host.Keeps host' roots) es) :
    List.Forall₂ Operand.Agrees (operands host roots es) (operands host' roots (readaptAll σ es)) := by
  match es, h with
  | [], _      => exact .nil
  | e :: es, h => exact .cons (operand_agrees (meaning_readapt hh e h.1)) (operands_agrees hh es h.2)

theorem argumentOperands_readapt (hh : Host.Readapts σ host host') (as : List (Parameter × Expression))
    (h : EveryCallOfArguments (host.Keeps host' roots) as) :
    List.Forall₂ (fun a a' => a.1 = a'.1 ∧ a.2.Matches host host' a'.2) (argumentOperands host roots as)
      (argumentOperands host' roots (readaptArguments σ as)) := by
  match as, h with
  | [], _ => exact .nil
  | (_, e) :: as, h =>
    have he := operand_matches (meaning_readapt hh e h.1)
    exact .cons ⟨rfl, he⟩ (argumentOperands_readapt hh as h.2)

end

theorem internal_readapt (hh : Host.Readapts σ host host') {e : Expression}
    (h : e.EveryCall (host.Keeps host' roots)) :
    (e.internal host roots).Agrees ((e.readapt σ).internal host' roots) :=
  (operand_agrees (meaning_readapt hh e h)).value

-- Nodes that are neither paths nor calls leave no adapter pending.
theorem evaluate_readapt (hh : Host.Readapts σ host host') {e : Expression} (hb : e.isBoundary = false)
    (h : e.EveryCall (host.Keeps host' roots)) :
    (e.evaluate host roots).Agrees ((e.readapt σ).evaluate host' roots) := by
  rw [evaluate_of_not_isBoundary hb, evaluate_of_not_isBoundary (isBoundary_readapt σ e ▸ hb)]
  exact internal_readapt hh h

end Expression

end Trivalent
