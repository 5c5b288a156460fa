import Trivalent.Proofs.Evaluation.Ending
import Trivalent.Proofs.Registry.Equipped
import Trivalent.Proofs.Typing.WellFormed

/-!
# Capabilities of configured types

A configuration gives its types the capabilities that they promise. Whatever a document says, every error of its
evaluation is raised by a node that can raise it, and no evaluation ever misses an accessor or an invoker or asks
the host for anything.
-/

namespace Trivalent

open Trivalent.Action (Ends)

-- The operator has no meaning for its operands or for their type.
def EvalError.IsMismatch : EvalError → Prop
  | invalidOperands .. => True
  | unsupported ..     => True
  | _                  => False

/-! ## Builtin capabilities -/

namespace Comparing

variable (t : DataType) (l r : Value) (c : Comparison)

theorem numeric_fails : Meets (fun _ => True) EvalError.IsMismatch (numeric l r c) := by
  simp only [numeric]
  split <;> first | exact .ok trivial | exact .error trivial

theorem string_fails : Meets (fun _ => True) EvalError.IsMismatch (string l r c) := by
  simp only [string]
  split <;> first | exact .ok trivial | exact .error trivial

theorem boolean_fails : Meets (fun _ => True) EvalError.IsMismatch (boolean t l r c) := by
  simp only [boolean]
  split
  case h_1 => cases c <;> first | exact .ok trivial | exact .error trivial
  case h_2 => exact .error trivial

theorem time_fails : Meets (fun _ => True) EvalError.IsMismatch (time l r c) := by
  simp only [time]
  split <;> first | exact .ok trivial | exact .error trivial

theorem enumeration_fails : Meets (fun _ => True) EvalError.IsMismatch (enumeration t l r c) := by
  simp only [enumeration]
  split
  case h_1 =>
    split
    case h_1 => exact .ok trivial
    case h_2 => cases c <;> first | exact .ok trivial | exact .error trivial
  case h_2 => exact .error trivial

end Comparing

namespace Calculating

variable (t : DataType) (l r : Value) (o : Operation)

theorem integer_fails (l r : Int64) :
    Meets (fun _ => True) (fun err => err.IsMismatch ∨ err.IsArithmetic) (integer t l r o) := by
  by_cases ho : o = .complement
  case pos => exact ho ▸ .error (.inl trivial)
  case neg => exact (integer_meets t l r o).mono (fun _ _ => trivial) fun _ h => .inr (h ho)

theorem float_fails (l r : Float) :
    Meets (fun _ => True) (fun err => err.IsMismatch ∨ err.IsArithmetic) (float t l r o) := by
  by_cases ho : o = .complement
  case pos => exact ho ▸ .error (.inl trivial)
  case neg => exact (float_meets t l r o).mono (fun _ _ => trivial) fun _ h => .inr (h ho)

theorem numeric_fails :
    Meets (fun _ => True) (fun err => err.IsMismatch ∨ err.IsArithmetic) (numeric t l r o) := by
  simp only [numeric]
  split
  case h_1 => split <;> first | exact float_fails .. | exact integer_fails ..
  case h_5 => exact .error (.inl trivial)
  all_goals exact float_fails ..

theorem string_fails :
    Meets (fun _ => True) (fun err => err.IsMismatch ∨ err.IsArithmetic) (string t l r o) := by
  cases o
  case plus => exact .ok trivial
  all_goals exact .error (.inl trivial)

theorem time_fails :
    Meets (fun _ => True) (fun err => err.IsMismatch ∨ err.IsArithmetic) (time t l r o) := by
  have hc (a : Option Interval) :
      Meets (fun _ => True) (fun err => err.IsMismatch ∨ err.IsArithmetic) (checkedInterval o l r a) :=
    (checkedInterval_meets o l r a).mono (fun _ _ => trivial) fun _ => .inr
  simp only [time]
  split
  case h_1 | h_2 | h_3 => exact hc _
  case h_4 | h_5 | h_6 => exact .ok trivial
  all_goals exact .error (.inl trivial)

end Calculating

namespace Invoking

variable (host : Host) (roots : Roots) {f : Function} {i : Invoker}

theorem length_fails (f : Function) (a : Arguments) :
    Meets (fun _ => True) (fun err => ∃ p kind, err = .invalidArgument f.name p kind) (length f a) := by
  simp only [length]
  split <;> first | exact .ok trivial | exact .error ⟨_, _, rfl⟩

theorem locate_fails (f : Function) (a : Arguments) :
    Meets (fun _ => True) (fun err => ∃ p kind, err = .invalidArgument f.name p kind) (locate f a) := by
  simp only [locate]
  repeat' split
  all_goals first | exact .ok trivial | exact .error ⟨_, _, rfl⟩

theorem run_fails (hf : f ∈ Standard.functions) (hi : f.invoker = some i) (bodies : List (Action Value))
    (a : Arguments) :
    (run host roots f i bodies a).Ends (fun _ => True)
      fun err => ∃ p kind, err = .invalidArgument f.name p kind := by
  rcases Standard.mem_functions.mp hf with rfl | rfl | rfl <;> cases hi
  case inl     => exact .ofExcept (length_fails _ a)
  case inr.inl => exact .ofExcept (locate_fails _ a)
  case inr.inr =>
    have hr : Action.random.Ends (fun _ => True) fun err =>
        ∃ p kind, err = .invalidArgument Standard.random.name p kind := fun _ => .ok trivial
    exact hr.map fun _ _ => trivial

end Invoking

/-! ## Errors of nodes -/

-- What a comparison may raise. It misses a comparator for incomparable types only.
inductive EvalError.OfComparison (r : Registry) : EvalError → Prop
  | missing  : r.Has t → t.IsIncomparable → OfComparison r (.missingComparator t.name)
  | mismatch : err.IsMismatch → OfComparison r err

-- What a calculation may raise. It misses a calculator for incalculable types only.
inductive EvalError.OfCalculation (r : Registry) : EvalError → Prop
  | missing    : r.Has t → t.IsIncalculable → OfCalculation r (.missingCalculator t.name)
  | mismatch   : err.IsMismatch → OfCalculation r err
  | arithmetic : err.IsArithmetic → OfCalculation r err

-- What a node may raise beside the errors of its children.
def Expression.Raises (r : Registry) (roots : Roots) (err : EvalError) : Expression → Prop
  | path p        => (∃ a ∈ p.attributes, ∃ kind, err = .invalidObject a.text kind) ∧ ¬roots.Conform
  | signed ..     => err.OfCalculation r
  | arithmetic .. => err.OfCalculation r
  | call _ f _    => ∃ p kind, err = .invalidArgument f.name p kind
  | comparison .. => err.OfComparison r
  | between ..    => err.OfComparison r
  | member ..     => err.OfComparison r
  | isEmpty ..    => ∃ kind, err = .notCollection kind
  | compound ..   => ∃ kind, err = .notBoolean kind
  | truth ..      => ∃ kind, err = .notBoolean kind
  | _             => False

namespace Evaluation

variable (host : Host) (roots : Roots) {r : Registry} {t : DataType}

theorem compare_raises (hr : r.Equipped) (ht : r.Has t) (u : DataType) (v w : Value) (c : Comparison) :
    (compare host t u v w c).Ends (fun _ => True) (EvalError.OfComparison r) := by
  rcases (hr _ _ ht).comparator with ⟨hn, hk⟩ | ⟨comparator, hs, hb⟩
  case inl =>
    simp only [compare, hn]
    exact .fail (.missing ht hk)
  case inr =>
    simp only [compare, hs]
    refine .noted _ (Meets.widen (E := EvalError.IsMismatch) ?_ fun _ => .mismatch)
    cases comparator
    case numeric     => exact Comparing.numeric_fails v w c
    case string      => exact Comparing.string_fails v w c
    case boolean     => exact Comparing.boolean_fails t v w c
    case time        => exact Comparing.time_fails v w c
    case enumeration => exact Comparing.enumeration_fails t v w c
    case host name   => exact absurd rfl (hb name)

theorem calculate_raises (hr : r.Equipped) (ht : r.Has t) (lt rt : DataType) (v w : Value) (o : Operation) :
    (calculate host t lt rt v w o).Ends (fun _ => True) (EvalError.OfCalculation r) := by
  rcases (hr _ _ ht).calculator with ⟨hn, hk⟩ | ⟨calculator, hs, hb⟩
  case inl =>
    simp only [calculate, hn]
    exact .fail (.missing ht hk)
  case inr =>
    simp only [calculate, hs]
    refine .noted _ (Meets.widen (E := fun err => err.IsMismatch ∨ err.IsArithmetic) ?_
      fun _ h => h.elim .mismatch .arithmetic)
    cases calculator
    case numeric   => exact Calculating.numeric_fails t v w o
    case string    => exact Calculating.string_fails t v w o
    case time      => exact Calculating.time_fails t v w o
    case host name => exact absurd rfl (hb name)

-- A step from a value that conforms to its type comes to one that conforms to the type of the attribute.
theorem step_raises (ht : t.Equipped) (ha : t.attribute? a.name = some a) (hn : v ≠ .null) :
    (step host roots a v).Ends (fun w => Conforms t v → Conforms a.type w)
      fun err => (∃ kind, err = .invalidObject a.text kind) ∧ ¬Conforms t v := by
  obtain ⟨⟨_, hs⟩, hacc, hada, _⟩ := ht.of_attribute? ha
  simp only [step, access, hacc, hada]
  refine Ends.bind (.noted _ ?_) fun w hw => .pure hw
  cases v
  case object fields =>
    refine .ok fun hc => ?_
    obtain ⟨_, hf, hc⟩ := hc.object hn hs
    cases hf
    cases hw : Dictionary.find? fields a.name
    case none   => exact .null
    case some w => exact hc a.name a w ha hw
  all_goals
    refine .error ⟨⟨_, rfl⟩, fun hc => ?_⟩
    simpa using hc.object hn hs

-- The walk fails at an attribute that it cannot read, which none is if it starts from a value that conforms.
theorem walk_raises (hc : Path.Chain t as last) (ht : t.Equipped) (v : Value) :
    (walk host roots v as).Ends (·.pending = none)
      fun err => (∃ a ∈ as, ∃ kind, err = .invalidObject a.text kind) ∧ ¬Conforms t v := by
  induction hc generalizing v
  case nil => exact .pure rfl
  case cons ha _ hi =>
    have ⟨_, _, hada, hta⟩ := ht.of_attribute? ha
    rw [walk_cons host roots hada]
    split
    case isTrue     => exact .pure rfl
    case isFalse hn =>
      have hs := step_raises host roots ht ha (by simpa using hn)
      refine (hs.widen ?first).bind fun w hw => ?further
      case first => exact fun _ ⟨he, hnc⟩ => ⟨⟨_, .head _, he⟩, hnc⟩
      case further =>
        refine (hi hta w).widen ?_
        exact fun _ ⟨⟨b, hb, he⟩, hnc⟩ => ⟨⟨b, .tail _ hb, he⟩, fun hv => hnc (hw hv)⟩

end Evaluation

namespace Expression

open Evaluation

variable (host : Host) {roots : Roots} {r : Registry} {e : Expression} {E : EvalError → Prop}

-- A call of a builtin function.
theorem call_raises {f : Function} {as : List (Parameter × Expression)} (hf : f ∈ Standard.functions)
    (hb : f.Binds as) (ha : ∀ a ∈ as, (a.2.meaning host roots).Ends (·.pending = none) E)
    (he : ∀ err, (call t f as).Raises r roots err → E err) :
    ((call t f as).meaning host roots).Ends (·.pending = none) E := by
  have ⟨i, hi⟩ := Standard.exists_invoker hf
  have hvalues : (arguments host roots .empty (argumentOperands host roots as)).Ends (fun _ => True) E := by
    rw [argumentOperands_eq_map]
    refine .arguments (P := fun _ _ => True) (List.forall_mem_map.mpr fun a hm => ?_)
      (fun _ _ _ _ _ _ => trivial) trivial
    have hp := (Standard.parameter_basic hf (hb.parameters a hm)).2
    exact .argument hp ((ha a hm).mono (fun _ h => ⟨h, trivial⟩) fun _ h => h)
  have hrun (values : Arguments) (_ : True) :=
    (Invoking.run_fails host roots hf hi (bodies host roots f) values).widen he
  rw [meaning]
  exact (Ends.call hi hvalues hrun).mono (fun _ h => h.1.trans (Standard.adapter_eq_none hf)) fun _ h => h

-- One case for each node. The errors of its children and those that it may raise satisfy `E`.
theorem meaning_raises (hr : r.Equipped) (hf : r.functions = Registry.standard.functions)
    (hroots : roots.Bound r) (h : e.Forms r roots)
    (hc : ∀ c ∈ e.children, (c.meaning host roots).Ends (·.pending = none) E)
    (he : ∀ err, e.Raises r roots err → E err) :
    (e.meaning host roots).Ends (·.pending = none) E := by
  have ⟨hw, hforms⟩ := forms_iff.mp h
  have child : ∀ c ∈ e.children, (c.operand host roots).value.Ends (fun _ => True) E :=
    fun c hm => (hc c hm).map fun _ _ => trivial
  have compared (x : Expression) (hx : r.Has x.type) (he : ∀ err, err.OfComparison r → E err)
      (u : DataType) (v w : Value) (c : Comparison) :
      (compare host x.type u v w c).Ends (fun _ => True) E :=
    (compare_raises host hr hx u v w c).widen he
  have calculated (t : DataType) (ht : r.Has t) (he : ∀ err, err.OfCalculation r → E err)
      (l u : DataType) (v w : Value) (o : Operation) :
      (calculate host t l u v w o).Ends (fun _ => True) E :=
    (calculate_raises host hr ht l u v w o).widen he
  cases e <;> simp only [children, List.forall_mem_cons] at child hforms
  case literal =>
    rw [meaning]
    exact .pure rfl
  case collection t is =>
    rw [meaning, operands_eq_map]
    exact Ends.bind (.items (P := fun _ _ => True) (List.forall_mem_map.mpr child)) fun _ _ => .pure rfl
  case path p =>
    have ⟨t, ht, _, hp⟩ := hw.path p rfl
    have hwalk := walk_raises host roots hp (hr _ _ (hroots _ t ht).1) (roots.object p.root)
    rw [meaning]
    exact hwalk.widen fun err h => he err ⟨h.1, fun hconform => h.2 (hconform.object ht)⟩
  case signed t x n =>
    rw [meaning]
    exact (child.1.signed trivial (fun v _ _ => calculated t hw.type he t t v v _) n).map fun _ _ => rfl
  case arithmetic t o x y =>
    rw [meaning]
    have hresult := child.1.arithmetic (Q := fun _ => True) child.2.1 trivial fun v w _ _ _ _ =>
      calculated t hw.type he _ _ v w o.operation
    exact hresult.map fun _ _ => rfl
  case call t f as =>
    have ⟨hfun, _, hb⟩ := hw.call t f as rfl
    rw [Registry.function?, hf] at hfun
    have hc : ∀ a ∈ as, (a.2.meaning host roots).Ends (·.pending = none) E := List.forall_mem_map.mp hc
    exact call_raises host (Registry.mem_standard_functions hfun).2 hb hc he
  case comparison t c x y n =>
    rw [meaning]
    have hcomparison := child.1.comparison child.2.1
      (fun v w _ _ _ _ => compared x hforms.1.has he y.type v w c) n
    exact hcomparison.map fun _ _ => rfl
  case between t x l u n =>
    rw [meaning]
    have hbetween := child.1.between child.2.1 child.2.2.1
      (fun v w _ _ _ _ => compared x hforms.1.has he l.type v w .greaterOrEqual)
      (fun v w _ _ _ _ => compared x hforms.1.has he u.type v w .lessOrEqual) n
    exact hbetween.map fun _ _ => rfl
  case member t x is n =>
    rw [meaning, operands_eq_map]
    have hmember := child.1.member (R := fun _ _ => True) (List.forall_mem_map.mpr child.2)
      (fun v _ _ i _ w _ _ => compared x hforms.1.has he i.type v w .equal) n
    exact hmember.map fun _ _ => rfl
  case isNull t x n =>
    rw [meaning]
    exact Ends.map (Q := fun _ => True) (child.1.bind fun _ _ => .pure trivial) fun _ _ => rfl
  case isEmpty t x n =>
    rw [meaning]
    have hempty := child.1.isEmpty (Q := fun _ => True) trivial (fun _ => trivial) (fun v _ _ _ => he _ ⟨_, rfl⟩) n
    exact hempty.map fun _ _ => rfl
  case compound t c ps n =>
    rw [meaning, operands_eq_map]
    refine Ends.map (.compound (List.forall_mem_map.mpr fun p hm => ?_) _) fun _ _ => rfl
    exact (child p hm).truth fun v _ _ _ => he _ ⟨_, rfl⟩
  case truth t x n =>
    rw [meaning]
    exact (child.1.truth fun v _ _ _ => he _ ⟨_, rfl⟩).map fun _ _ => rfl

-- Every error is raised by a node.
theorem evaluate_raises (hr : r.Equipped) (hf : r.functions = Registry.standard.functions)
    (hroots : roots.Bound r) (h : e.Forms r roots) :
    (e.evaluate host roots).Ends (fun _ => True) fun err => ∃ n ∈ e.nodes, n.Raises r roots err := by
  suffices hm : (e.meaning host roots).Ends (·.pending = none) fun err => ∃ n ∈ e.nodes, n.Raises r roots err from
    .finish (hm.mono (fun _ h => ⟨h, trivial⟩) fun _ h => h)
  induction e using children_induction
  case node e hi =>
    refine meaning_raises host hr hf hroots h (fun c hc => ?child) fun err he => ⟨e, mem_nodes_self e, he⟩
    refine (hi c hc ((forms_iff.mp h).2 c hc)).widen ?_
    exact fun err ⟨n, hn, he⟩ => ⟨n, mem_nodes_of_mem_children hc hn, he⟩

end Expression

namespace EvalError

-- What has to be so for an error of the evaluation of `e`. The host is asked for nothing, so that only overflows
-- have a message of their own. Errors of operands, of arguments and of arithmetic are no matter of capabilities.
def Explained (r : Registry) (roots : Roots) (e : Expression) : EvalError → Prop
  | missingAccessor _      => False
  | missingInvoker _       => False
  | conversion ..          => False
  | host _                 => False
  | missingComparator name => ∃ t, r.Has t ∧ t.name = name ∧ t.IsIncomparable
  | missingCalculator name => ∃ t, r.Has t ∧ t.name = name ∧ t.IsIncalculable
  | notCollection _        => ∃ t x n, .isEmpty t x n ∈ e.nodes
  | notBoolean _           => (∃ t c ps n, .compound t c ps n ∈ e.nodes) ∨ ∃ t x n, .truth t x n ∈ e.nodes
  | invalidObject ..       => ¬roots.Conform
  | _                      => True

variable {r : Registry} {roots : Roots} {e n : Expression} {err : EvalError}

theorem IsMismatch.explained (h : err.IsMismatch) : err.Explained r roots e := by
  cases err <;> first | exact trivial | exact h.elim

theorem IsArithmetic.explained (h : err.IsArithmetic) : err.Explained r roots e := by
  cases err <;> first | exact trivial | exact h.elim

theorem OfComparison.explained (h : err.OfComparison r) : err.Explained r roots e := by
  cases h
  case missing ht hk => exact ⟨_, ht, rfl, hk⟩
  case mismatch h    => exact h.explained

theorem OfCalculation.explained (h : err.OfCalculation r) : err.Explained r roots e := by
  cases h
  case missing ht hk => exact ⟨_, ht, rfl, hk⟩
  case mismatch h    => exact h.explained
  case arithmetic h  => exact h.explained

theorem explained_of_raises (hn : n ∈ e.nodes) (h : n.Raises r roots err) : err.Explained r roots e := by
  cases n <;> simp only [Expression.Raises] at h
  case path =>
    obtain ⟨⟨_, _, _, rfl⟩, hc⟩ := h
    exact hc
  case signed | arithmetic             => exact h.explained
  case comparison | between | member   => exact h.explained
  case call =>
    obtain ⟨_, _, rfl⟩ := h
    trivial
  case isEmpty =>
    obtain ⟨_, rfl⟩ := h
    exact ⟨_, _, _, hn⟩
  case compound =>
    obtain ⟨_, rfl⟩ := h
    exact .inl ⟨_, _, _, _, hn⟩
  case truth =>
    obtain ⟨_, rfl⟩ := h
    exact .inr ⟨_, _, _, hn⟩

end EvalError

namespace Document

-- If a configuration has a registry and roots, then the evaluation of whatever document only lacks a capability
-- that the types of the configuration do not promise.
theorem evaluate_explained {c : Configuration} {r : Registry} {roots : Roots} {d : Document} {e : Expression}
    (h : c.registry = .ok r) (hb : c.bind r = .ok roots) (hd : d.resolve r roots = .ok e) (host : Host)
    (s : Store) (he : (e.evaluate host roots s).outcome = .error err) : err.Explained r roots e := by
  have hp := c.prepared h hb
  have hs := Expression.evaluate_raises host (c.registry_equipped h) (c.registry_built h).functions hp.roots
    (resolve_forms hp hd) s
  rw [he] at hs
  have ⟨_, hn, hraises⟩ := hs.failure
  exact EvalError.explained_of_raises hn hraises

-- Items cannot be compared.
theorem evaluate_explained_price :
    Priced.configuration.registry = .ok Priced.registry ∧
      Priced.configuration.bind Priced.registry = .ok Priced.roots ∧
      ∃ e, (comparison "=" (path "item" []) (path "item" []) false).resolve Priced.registry Priced.roots =
          .ok e ∧
        (e.evaluate .none Priced.roots ⟨[], ⟨0⟩⟩).outcome = .error (.missingComparator "Item") ∧
        (EvalError.missingComparator "Item").Explained Priced.registry Priced.roots e := by
  let d := comparison "=" (path "item" []) (path "item" []) false
  let item := Expression.path ⟨Priced.item, "item", []⟩
  let e := Expression.comparison Standard.boolean .equal item item false
  have hd : d.resolve Priced.registry Priced.roots = .ok e := by with_unfolding_all rfl
  have he : (e.evaluate .none Priced.roots ⟨[], ⟨0⟩⟩).outcome = .error (.missingComparator "Item") := by
    with_unfolding_all rfl
  exact ⟨Priced.declares, Priced.binds, e, hd, he, evaluate_explained Priced.declares Priced.binds hd .none _ he⟩

end Document

end Trivalent
