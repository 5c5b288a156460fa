import Trivalent.Proofs.Evaluation.Ending
import Trivalent.Proofs.Typing.Functions

/-!
# Nodes over conforming operands

What each node delivers if its operands deliver values that conform to their types. The errors of the
operands are passed on, and the errors of the node itself are those of operations, of operands that are
asked for their truth, and of operands that are no collections.
-/

namespace Trivalent

theorem Conforms.ofTruth (t : Option Bool) : Conforms Standard.boolean (.ofTruth t) := by
  cases t
  case none => exact .null
  case some => exact .basic rfl rfl

-- The operand leaves no adapter pending and has a value that conforms to its type, or it fails with an
-- error that satisfies `E`.
def Operand.Delivers (o : Operand) (E : EvalError → Prop) : Prop :=
  o.action.Ends (fun e => e.pending = none ∧ Conforms o.type e.value) E

namespace Operand.Delivers

variable {o : Operand} {E E' : EvalError → Prop}

theorem mono (h : o.Delivers E) (he : ∀ err, E err → E' err) : o.Delivers E' :=
  Action.Ends.mono h (fun _ h => h) he

theorem value (h : o.Delivers E) : o.value.Ends (Conforms o.type) E :=
  Action.Ends.map h fun _ h => h.2

end Operand.Delivers

namespace Evaluation

open Trivalent.Action (Ends)

variable {registry : Registry} (host : Host) {roots : Roots} {t : DataType} {o l r u : Operand}
variable {E : EvalError → Prop}

theorem signed_ends (hr : registry.Configured) (ht : registry.Has o.type) (h : o.Delivers E)
    (he : ∀ err, (o.type.isSigned → err.IsArithmetic) → E err) (negative : Bool) :
    (signed host o.type o negative).Ends (Conforms o.type) E := by
  refine h.value.signed .null (fun v hv hn => ?_) negative
  exact (negate_ends host hr ht hv hn).widen he

theorem arithmetic_ends {op : Arithmetic} (hr : registry.Configured) (hl : registry.Has l.type)
    (hr' : registry.Has r.type) (ht : ArithmeticType l.type r.type t) (hdl : l.Delivers E)
    (hdr : r.Delivers E) (he : ∀ err, (op.admits l.type r.type → err.IsArithmetic) → E err) :
    (arithmetic host t op l r).Ends (Conforms t) E := by
  refine hdl.value.arithmetic hdr.value .null fun v w hv hvn hw hwn => ?_
  exact (calculate_ends host hr hl hr' ht hv hvn hw hwn).widen he

theorem comparison_ends {c : Comparison} (hr : registry.Configured) (hl : registry.Has l.type)
    (hr' : registry.Has r.type) (hdl : l.Delivers E) (hdr : r.Delivers E)
    (he : ∀ err, ¬c.admits l.type r.type → E err) (negated : Bool) :
    (comparison host c l r negated).Ends (fun _ => True) E := by
  refine hdl.value.comparison hdr.value (fun v w hv hvn hw hwn => ?_) negated
  exact (compare_ends host hr hl hr' hv hvn hw hwn).widen he

theorem between_ends (hr : registry.Configured) (ho : registry.Has o.type)
    (hl : registry.Has l.type) (hu : registry.Has u.type) (hdo : o.Delivers E) (hdl : l.Delivers E)
    (hdu : u.Delivers E)
    (hel : ∀ err, ¬Comparison.greaterOrEqual.admits o.type l.type → E err)
    (heu : ∀ err, ¬Comparison.lessOrEqual.admits o.type u.type → E err) (negated : Bool) :
    (between host o l u negated).Ends (fun _ => True) E := by
  refine hdo.value.between hdl.value hdu.value (fun v w hv hvn hw hwn => ?_)
    (fun v w hv hvn hw hwn => ?_) negated
  case refine_1 => exact (compare_ends host hr ho hl hv hvn hw hwn).widen hel
  case refine_2 => exact (compare_ends host hr ho hu hv hvn hw hwn).widen heu

theorem member_ends {items : List Operand} (hr : registry.Configured) (ho : registry.Has o.type)
    (hi : ∀ i ∈ items, registry.Has i.type ∧ i.Delivers E) (hd : o.Delivers E)
    (he : ∀ i ∈ items, ∀ err, ¬Comparison.equal.admits o.type i.type → E err) (negated : Bool) :
    (member host o items negated).Ends (fun _ => True) E := by
  refine hd.value.member (fun i hm => (hi i hm).2.value) (fun v hv hvn i hm w hw hwn => ?_) negated
  exact (compare_ends host hr ho (hi i hm).1 hv hvn hw hwn).widen (he i hm)

theorem isNull_ends (h : o.Delivers E) (negated : Bool) :
    (isNull o negated).Ends (Conforms Standard.boolean) E :=
  h.value.bind fun _ _ => .pure (.basic rfl rfl)

theorem isEmpty_ends (h : o.Delivers E) (he : ∀ err, o.type.kind ≠ .collection → E err)
    (negated : Bool) :
    (isEmpty o negated).Ends (Conforms Standard.boolean) E := by
  refine h.value.isEmpty .null (fun _ => .basic rfl rfl) (fun v hv hn hc => he _ fun hk => ?_) negated
  have ⟨items, hi⟩ := hv.items hn hk
  exact hc items hi

theorem truth_ends (hr : registry.Configured) (ht : registry.Has o.type) (h : o.Delivers E)
    (he : ∀ err, o.type.name ≠ "BOOLEAN" → E err) : (truth o).Ends (fun _ => True) E := by
  refine h.value.truth fun v hv hn hb => he _ fun hname => ?_
  have hvb := hv.basicName_of_name hn ht hr Standard.boolean_mem hname
  cases v <;> simp_all [Value.basicName?, Standard.boolean, DataType.basic]

theorem compound_ends {ps : List Operand} (hr : registry.Configured) (identity : Bool)
    (hp : ∀ p ∈ ps, registry.Has p.type ∧ p.Delivers E)
    (he : ∀ p ∈ ps, ∀ err, p.type.name ≠ "BOOLEAN" → E err) :
    (compound identity ps).Ends (fun _ => True) E :=
  .compound (fun p hm => truth_ends hr (hp p hm).1 (hp p hm).2 (he p hm)) identity

theorem items_ends {is : List Operand} (h : ∀ i ∈ is, i.Delivers E) :
    (items is).Ends (fun _ => True) E :=
  .items fun i hm => (h i hm).value

-- Arguments that are accepted, which `W` says, are values that fit.
theorem arguments_ends {W : Prop} {f : Function} {given : Arguments}
    {as : List (Parameter × Operand)} (hr : registry.Configured) (hf : f ∈ Standard.functions)
    (ha : ∀ a ∈ as, a.1 ∈ f.parameters ∧ registry.Has a.2.type ∧ a.2.Delivers E)
    (hw : W → ∀ a ∈ as, a.1.accepts a.2.type) (hg : W → given.Fit f) :
    (arguments host roots given as).Ends (fun values => W → values.Fit f) E := by
  refine .arguments (P := fun a => Conforms a.2.type) (fun a hm => ?argument)
    (fun a hm given v hg hv h => ?fit) hg
  case argument =>
    have ⟨hp, _, hd⟩ := ha a hm
    exact .argument (Standard.parameter_basic hf hp).2 hd
  case fit =>
    have ⟨hp, ht, _⟩ := ha a hm
    exact (hg h).insert hf hp (a.1.takes hr (Standard.parameter_basic hf hp).1 ht (hw h a hm) hv)

theorem call_ends {W : Prop} {f : Function} {as : List (Parameter × Operand)}
    (hr : registry.Configured) (hf : f ∈ Standard.functions) (ht : f.result = some t)
    (ha : ∀ a ∈ as, a.1 ∈ f.parameters ∧ registry.Has a.2.type ∧ a.2.Delivers E)
    (hw : W → ∀ a ∈ as, a.1.accepts a.2.type) (he : ∀ err, ¬W → E err)
    (bodies : List (Action Value)) :
    (call host roots f as bodies).Ends (fun e => e.pending = none ∧ Conforms t e.value) E := by
  have ⟨i, hi⟩ := Standard.exists_invoker hf
  have harguments : (arguments host roots .empty as).Ends (fun values => W → values.Fit f) E :=
    arguments_ends host hr hf ha hw fun _ => Arguments.fit_empty f
  refine Standard.adapter_eq_none hf ▸ Ends.call hi harguments fun values hv => ?_
  have hrun := Invoking.run_ends host roots hf hi ht bodies values
  exact hrun.widen fun err h => he err fun hw => h (hv hw)

theorem finish_ends (h : o.Delivers E) : (finish host roots o).Ends (Conforms o.type) E :=
  .finish h

end Evaluation

end Trivalent
