import Trivalent.Proofs.Evaluation.Boundary
import Trivalent.Proofs.Evaluation.Congruence

/-!
# What an expression mentions

An expression names roots in its paths and functions in its calls. If neither these functions nor the adapters
on its way consult the context, then the outcome of the expression depends on the objects of these roots alone.
A constant mentions nothing: it is a computation that comes to the same in every context.
-/

namespace Trivalent

open Trivalent.Action (Concurs Computes)

/-! ## Capabilities that consult no context -/

-- The conversions by the adapter come to one outcome, whatever the roots and the properties are.
structure Host.Oblivious (host : Host) (a : Adapter) : Prop where
  toInternal : ∀ roots roots' t v ps ps',
               (host.toInternal a.name roots t v ps).1 = (host.toInternal a.name roots' t v ps').1
  toModel    : ∀ roots roots' t v ps ps',
               (host.toModel a.name roots t v ps).1 = (host.toModel a.name roots' t v ps').1

-- The function comes to one outcome for one list of arguments. A function that draws random numbers does not.
def Function.Oblivious (host : Host) (f : Function) : Prop :=
  ∀ invoker, f.invoker = some invoker → ∀ roots roots' values,
    (Invoking.run host roots f invoker (Expression.bodies host roots f) values).Concurs
      (Invoking.run host roots' f invoker (Expression.bodies host roots' f) values)

theorem Function.oblivious_of_builtin {host : Host} {f : Function}
    (h : f.invoker = some .length ∨ f.invoker = some .locate) : f.Oblivious host := by
  intro invoker hi roots roots' values
  cases h
  case inl h => cases h.symm.trans hi; exact .ofExcept _
  case inr h => cases h.symm.trans hi; exact .ofExcept _

-- The invoker of the host asks for nothing.
theorem Function.oblivious_of_done {host : Host} {f : Function} {invoker : String}
    {outcome : Arguments → Except EvalError Value} (hi : f.invoker = some (.host invoker bodies))
    (h : ∀ roots values, host.invoke invoker roots f values = .done (outcome values)) :
    f.Oblivious host := by
  intro invoker hi' roots roots' values
  cases hi.symm.trans hi'
  simp only [Invoking.run, h]
  exact .ofExcept _

/-! ## What is mentioned -/

namespace Expression

def root? : Expression → Option String
  | path p => some p.root
  | _      => none

def function? : Expression → Option Function
  | call _ f _ => some f
  | _          => none

-- The adapters along a path, or those of the parameters and the result of a call.
def ownAdapters : Expression → List Adapter
  | path p      => p.attributes.filterMap (·.adapter)
  | call _ f as => as.filterMap (·.1.adapter) ++ f.adapter.toList
  | _           => []

def rootNames (e : Expression) : List String :=
  e.nodes.filterMap root?

def functions (e : Expression) : List Function :=
  e.nodes.filterMap function?

def adapters (e : Expression) : List Adapter :=
  e.nodes.flatMap ownAdapters

variable {e : Expression}

theorem Leaves.mem_ownAdapters (h : Leaves host roots s a e) : a ∈ e.ownAdapters := by
  cases h
  case path hp _ _ ha => exact List.mem_filterMap.mpr ⟨_, by simp [hp], ha⟩
  case call ha        => simp [ownAdapters, ha]

theorem areConstant_eq_all (es : List Expression) : areConstant es = es.all isConstant := by
  induction es
  case nil         => rfl
  case cons _ _ hi => rw [areConstant, hi, List.all_cons]

theorem isConstant_iff (e : Expression) : e.isConstant ↔ ∀ n ∈ e.nodes, n.isBoundary = false := by
  apply forall_mem_nodes_of_children (P := fun e => e.isConstant)
  intro e
  cases e <;> simp [children, isConstant, isBoundary, areConstant_eq_all, and_assoc]

end Expression

/-! ## Nodes -/

namespace Evaluation

variable {host : Host} {roots roots' : Roots} {o o' : Operand} {a : Adapter}

-- The operands concur, and the adapters that they leave pending consult no context.
structure Settled (host : Host) (o o' : Operand) : Prop where
  type    : o.type = o'.type
  concurs : o.action.Concurs o'.action
  pending : ∀ s e, (o.action s).outcome = .ok e → ∀ a ∈ e.pending, host.Oblivious a

theorem toInternal_concurs (h : host.Oblivious a) (t : DataType) (v : Value) :
    (toInternal host roots a t v).Concurs (toInternal host roots' a t v) :=
  (Concurs.note _ _).bind fun _ _ _ => .onProperties (h.toInternal roots roots' t v)

theorem toModel_concurs (h : host.Oblivious a) (t : DataType) (v : Value) :
    (toModel host roots a t v).Concurs (toModel host roots' a t v) :=
  (Concurs.note _ _).bind fun _ _ _ => .onProperties (h.toModel roots roots' t v)

theorem access_concurs (field : Attribute) (v : Value) :
    (access host field v).Concurs (access host field v) := by
  rw [access]
  split
  case h_1 => exact .fail _
  case h_2 => exact (Concurs.note _ _).bind fun _ _ _ => by split <;> exact .ofExcept _

theorem step_concurs {field : Attribute} (h : ∀ a ∈ field.adapter, host.Oblivious a) (v : Value) :
    (step host roots field v).Concurs (step host roots' field v) := by
  apply (access_concurs field v).bind
  intro s w _
  cases ha : field.adapter
  case none   => exact .pure _
  case some a => exact toInternal_concurs (h a ha) _ w

-- The induction is on the attributes that are left.
theorem walk_concurs {fields : List Attribute} (h : ∀ f ∈ fields, ∀ a ∈ f.adapter, host.Oblivious a)
    (v : Value) : (walk host roots v fields).Concurs (walk host roots' v fields) := by
  induction fields generalizing v
  case nil => exact .pure _
  case cons field fields hi =>
    rw [List.forall_mem_cons] at h
    have hs : (step host roots field v).Concurs (step host roots' field v) := step_concurs h.1 v
    cases fields <;> simp only [walk] <;> split
    case nil.isTrue   => exact .pure _
    case nil.isFalse  => exact hs.bind fun _ _ _ => .pure _
    case cons.isTrue  => exact .pure _
    case cons.isFalse => exact hs.bind fun _ w _ => hi h.2 w

theorem finish_concurs (h : Settled host o o') :
    (finish host roots o).Concurs (finish host roots' o') := by
  apply h.concurs.bind
  intro s e he
  cases ha : e.pending
  case none   => exact .pure _
  case some a => exact h.type ▸ toModel_concurs (h.pending s e he a ha) _ _

theorem argument_concurs {p : Parameter} (hp : ∀ a ∈ p.adapter, host.Oblivious a)
    (h : Settled host o o') : (argument host roots p o).Concurs (argument host roots' p o') := by
  rw [argument_eq, argument_eq]
  apply h.concurs.bind
  intro s e he
  apply Concurs.bind
  case h =>
    cases ha : e.pending
    case none   => exact .pure _
    case some a => exact toInternal_concurs (h.pending s e he a ha) _ _
  case hf =>
    intro s v _
    cases ha : p.adapter
    case none   => exact .pure _
    case some a => exact toModel_concurs (hp a ha) _ _

-- The induction is on the arguments that are left.
theorem arguments_concurs {as : List (Parameter × Expression)}
    (hp : ∀ a ∈ as, ∀ b ∈ a.1.adapter, host.Oblivious b)
    (h : ∀ a ∈ as, Settled host (a.2.operand host roots) (a.2.operand host roots')) (given : Arguments) :
    (arguments host roots given (Expression.argumentOperands host roots as)).Concurs
      (arguments host roots' given (Expression.argumentOperands host roots' as)) := by
  induction as generalizing given
  case nil => exact .pure _
  case cons a as hi =>
    have ⟨p, e⟩ := a
    rw [List.forall_mem_cons] at hp h
    exact (argument_concurs hp.1 h.1).bind fun _ v _ => hi hp.2 h.2 _

theorem call_concurs {f : Function} {as : List (Parameter × Expression)} (hf : f.Oblivious host)
    (hp : ∀ a ∈ as, ∀ b ∈ a.1.adapter, host.Oblivious b)
    (h : ∀ a ∈ as, Settled host (a.2.operand host roots) (a.2.operand host roots')) :
    (call host roots f (Expression.argumentOperands host roots as) (Expression.bodies host roots f)).Concurs
      (call host roots' f (Expression.argumentOperands host roots' as)
        (Expression.bodies host roots' f)) := by
  rw [call, call]
  split
  case h_1 => exact .fail _
  case h_2 invoker hi =>
    apply (arguments_concurs hp h _).bind
    intro s values _
    apply (Concurs.note _ _).bind
    intro s _ _
    exact (hf invoker hi roots roots' values).bind fun _ _ _ => .pure _

end Evaluation

/-! ## Trees -/

-- The parcel beside another root.
def Weighed.crowded : Roots :=
  roots.bind "van" Standard.integer (.integer 7)

theorem Weighed.oblivious (a : Adapter) : host.Oblivious a where
  toInternal _ _ _ v _ _ := by cases v <;> rfl
  toModel _ _ _ v _ _    := by cases v <;> rfl

def Weighed.three : Expression :=
  .arithmetic Standard.integer .plus (.literal Standard.integer (.integer 1))
    (.literal Standard.integer (.integer 2))

namespace Expression

open Evaluation

variable {host host' : Host} {roots roots' : Roots} {e : Expression}

theorem settled (ha : ∀ a ∈ e.ownAdapters, host.Oblivious a)
    (h : (e.meaning host roots).Concurs (e.meaning host roots')) :
    Settled host (e.operand host roots) (e.operand host roots') where
  type    := rfl
  concurs := h
  pending _ _ hv a hp := ha a ((meaning_pending_iff hv).mp hp).mem_ownAdapters

theorem meaning_concurs (ha : ∀ a ∈ e.adapters, host.Oblivious a) (hf : ∀ f ∈ e.functions, f.Oblivious host)
    (hr : ∀ name ∈ e.rootNames, roots.object name = roots'.object name) :
    (e.meaning host roots).Concurs (e.meaning host roots') := by
  have own {n} (hn : n ∈ e.nodes) : ∀ a ∈ n.ownAdapters, host.Oblivious a :=
    fun a hm => ha a (List.mem_flatMap_of_mem hn hm)
  apply meaning_related Concurs.congruence ⟨rfl, rfl⟩
  intro n hn hb hc
  cases n <;> first | contradiction | rw [meaning, meaning]
  case path p =>
    have hroot := hr p.root (List.mem_filterMap.mpr ⟨_, hn, rfl⟩)
    rw [Evaluation.path, Evaluation.path, hroot]
    exact walk_concurs (fun f hf a ha => own hn a (List.mem_filterMap.mpr ⟨f, hf, ha⟩)) _
  case call t f as =>
    apply call_concurs
    case hf => exact hf f (List.mem_filterMap.mpr ⟨_, hn, rfl⟩)
    case hp =>
      exact fun a hm b hb => own hn b (List.mem_append_left _ (List.mem_filterMap.mpr ⟨a, hm, hb⟩))
    case h =>
      intro a hm
      have hchild : a.2 ∈ (call t f as).children := List.mem_map_of_mem hm
      have hnode : a.2 ∈ e.nodes :=
        mem_nodes_trans hn (mem_nodes_of_mem_children hchild (mem_nodes_self _))
      exact settled (own hnode) (hc a.2 hchild)

theorem evaluate_concurs (ha : ∀ a ∈ e.adapters, host.Oblivious a) (hf : ∀ f ∈ e.functions, f.Oblivious host)
    (hr : ∀ name ∈ e.rootNames, roots.object name = roots'.object name) :
    (e.evaluate host roots).Concurs (e.evaluate host roots') :=
  finish_concurs <| settled (fun a hm => ha a (List.mem_flatMap_of_mem (mem_nodes_self e) hm))
    (meaning_concurs ha hf hr)

-- A constant does one computation in all contexts.
theorem evaluate_constant (h : e.isConstant) (hh : host.ComputesLike host') (roots roots' : Roots) :
    e.evaluate host roots = e.evaluate host' roots' ∧ Computes (e.evaluate host roots) := by
  have hb : ∀ n ∈ e.nodes, n.isBoundary = false := (isConstant_iff e).mp h
  have he := hb e (mem_nodes_self e)
  rw [evaluate_of_not_isBoundary he, evaluate_of_not_isBoundary he]
  apply Computes.congruence.map
  apply meaning_related Computes.congruence hh
  intro n hn hb'
  simp [hb n hn] at hb'

-- The outcome depends on the objects of the roots that are mentioned alone, if no capability that is mentioned
-- consults the context. A constant has the same outcome with all hosts that compute alike, in all contexts. It
-- leaves the store as it is and calls nothing but comparators and calculators.
theorem evaluate_mentioned (host : Host) (e : Expression) :
    ((∀ a ∈ e.adapters, host.Oblivious a) → (∀ f ∈ e.functions, f.Oblivious host) →
      ∀ roots roots', (∀ name ∈ e.rootNames, roots.object name = roots'.object name) →
        ∀ s s', (e.evaluate host roots s).outcome = (e.evaluate host roots' s').outcome) ∧
    (e.isConstant → ∃ outcome calls, (∀ c ∈ calls, c.isComputation) ∧
      ∀ host', host.ComputesLike host' → ∀ roots s, e.evaluate host' roots s = ⟨outcome, calls, s⟩) := by
  constructor
  case left => exact fun ha hf _ _ hr => evaluate_concurs ha hf hr
  case right =>
    intro h
    have ⟨_, outcome, calls, hc, he⟩ := evaluate_constant h (⟨rfl, rfl⟩ : host.ComputesLike host) .empty .empty
    refine ⟨outcome, calls, hc, fun host' hh roots s => ?_⟩
    have ⟨hs, _⟩ := evaluate_constant h hh .empty roots
    rw [← hs, he]

-- The sum is the same beside another root and other properties, and three is three without any root.
theorem evaluate_mentioned_weighed :
    ((∀ a ∈ Weighed.sum.adapters, Weighed.host.Oblivious a) ∧
      (∀ f ∈ Weighed.sum.functions, f.Oblivious Weighed.host) ∧
      Weighed.sum.rootNames = ["parcel", "parcel"] ∧
      Weighed.roots.object "parcel" = Weighed.crowded.object "parcel" ∧
      ∀ s s', (Weighed.sum.evaluate Weighed.host Weighed.roots s).outcome =
        (Weighed.sum.evaluate Weighed.host Weighed.crowded s').outcome) ∧
    Weighed.three.isConstant ∧ ∃ outcome calls, (∀ c ∈ calls, c.isComputation) ∧
      Weighed.host.ComputesLike Weighed.host ∧
      ∀ roots s, Weighed.three.evaluate Weighed.host roots s = ⟨outcome, calls, s⟩ := by
  have ⟨hsum, _⟩ := evaluate_mentioned Weighed.host Weighed.sum
  have ⟨_, hthree⟩ := evaluate_mentioned Weighed.host Weighed.three
  have hf : ∀ f ∈ Weighed.sum.functions, f.Oblivious Weighed.host := by
    intro f hf
    cases List.mem_singleton.mp hf
    exact Function.oblivious_of_done rfl fun _ _ => rfl
  have hr : ∀ name ∈ Weighed.sum.rootNames, Weighed.roots.object name = Weighed.crowded.object name := by
    intro name hn
    cases List.mem_pair.mp hn <;> subst name <;> rfl
  have ⟨outcome, calls, hc, he⟩ := hthree rfl
  exact ⟨⟨fun a _ => Weighed.oblivious a, hf, rfl, rfl, hsum (fun a _ => Weighed.oblivious a) hf _ _ hr⟩,
    rfl, outcome, calls, hc, ⟨rfl, rfl⟩, he _ ⟨rfl, rfl⟩⟩

end Expression

end Trivalent
