import Trivalent.Evaluation
import Trivalent.Proofs.Outcome

/-!
# How nodes end

What is known of the values and the errors of operands, and of what a capability does with such values, tells
how a node over these operands ends. The errors of the operands are passed on.
-/

namespace Trivalent.Action.Ends

open Evaluation

variable {host : Host} {roots : Roots} {t : DataType} {o l r u : Operand}
variable {P P' P'' Q : Value → Prop} {E : EvalError → Prop}

theorem unlessNull {missing : α} {f : Value → Action α} {Q : α → Prop} (h : o.value.Ends P E)
    (hm : Q missing) (hf : ∀ v, P v → v ≠ .null → (f v).Ends Q E) :
    (Evaluation.unlessNull o missing f).Ends Q E := by
  refine h.bind fun v hv => ?_
  split
  case isTrue     => exact .pure hm
  case isFalse hn => exact hf v hv (by simpa using hn)

theorem signed (h : o.value.Ends P E) (hnull : P .null)
    (hc : ∀ v, P v → v ≠ .null → (calculate host t t t v v .unaryMinus).Ends P E) (negative : Bool) :
    (Evaluation.signed host t o negative).Ends P E := by
  refine h.unlessNull hnull fun v hv hn => ?_
  split
  case isTrue  => exact hc v hv hn
  case isFalse => exact .pure hv

theorem arithmetic {op : Arithmetic} (hl : l.value.Ends P E) (hr : r.value.Ends P' E) (hnull : Q .null)
    (hc : ∀ v w, P v → v ≠ .null → P' w → w ≠ .null →
      (calculate host t l.type r.type v w op.operation).Ends Q E) :
    (Evaluation.arithmetic host t op l r).Ends Q E :=
  hl.unlessNull hnull fun v hv hvn => hr.unlessNull hnull fun w hw hwn => hc v w hv hvn hw hwn

theorem comparison {c : Comparison} (hl : l.value.Ends P E) (hr : r.value.Ends P' E)
    (hc : ∀ v w, P v → v ≠ .null → P' w → w ≠ .null →
      (compare host l.type r.type v w c).Ends (fun _ => True) E) (negated : Bool) :
    (Evaluation.comparison host c l r negated).Ends (fun _ => True) E := by
  refine hl.unlessNull trivial fun v hv hvn => ?_
  refine hr.unlessNull trivial fun w hw hwn => ?_
  exact (hc v w hv hvn hw hwn).bind fun _ _ => .pure trivial

theorem between (ho : o.value.Ends P E) (hl : l.value.Ends P' E) (hu : u.value.Ends P'' E)
    (hcl : ∀ v w, P v → v ≠ .null → P' w → w ≠ .null →
      (compare host o.type l.type v w .greaterOrEqual).Ends (fun _ => True) E)
    (hcu : ∀ v w, P v → v ≠ .null → P'' w → w ≠ .null →
      (compare host o.type u.type v w .lessOrEqual).Ends (fun _ => True) E) (negated : Bool) :
    (Evaluation.between host o l u negated).Ends (fun _ => True) E := by
  refine ho.unlessNull trivial fun v hv hvn => ?_
  refine hl.unlessNull trivial fun w hw hwn => ?_
  refine (hcl v w hv hvn hw hwn).bind fun above _ => ?_
  split
  case h_1 => exact .pure trivial
  case h_2 =>
    split
    case isTrue  => exact .pure trivial
    case isFalse =>
      refine hu.unlessNull trivial fun x hx hxn => ?_
      refine (hcu v x hv hvn hx hxn).bind fun below _ => ?_
      split <;> exact .pure trivial

-- The induction is over the items that are left.
theorem memberOf {v : Value} {items : List Operand} {P : Operand → Value → Prop}
    (hi : ∀ i ∈ items, i.value.Ends (P i) E)
    (hc : ∀ i ∈ items, ∀ w, P i w → w ≠ .null → (compare host t i.type v w .equal).Ends (fun _ => True) E)
    (negated : Bool) :
    (Evaluation.memberOf host t v negated items).Ends (fun _ => True) E := by
  induction items
  case nil => exact .pure trivial
  case cons item items hrest =>
    rw [List.forall_mem_cons] at hi hc
    refine hi.1.unlessNull trivial fun w hw hwn => ?_
    refine (hc.1 w hw hwn).bind fun equal _ => ?_
    split
    case h_1 => exact .pure trivial
    case h_2 =>
      split
      case isTrue  => exact hrest hi.2 hc.2
      case isFalse => exact .pure trivial

theorem member {items : List Operand} {R : Operand → Value → Prop} (ho : o.value.Ends P E)
    (hi : ∀ i ∈ items, i.value.Ends (R i) E)
    (hc : ∀ v, P v → v ≠ .null → ∀ i ∈ items, ∀ w, R i w → w ≠ .null →
      (compare host o.type i.type v w .equal).Ends (fun _ => True) E) (negated : Bool) :
    (Evaluation.member host o items negated).Ends (fun _ => True) E :=
  ho.unlessNull trivial fun v hv hvn => .memberOf hi (hc v hv hvn) negated

theorem isEmpty (h : o.value.Ends P E) (hnull : Q .null) (hb : ∀ b, Q (.boolean b))
    (he : ∀ v, P v → v ≠ .null → (∀ items, v ≠ .collection items) → E (.notCollection v.kind))
    (negated : Bool) : (Evaluation.isEmpty o negated).Ends Q E := by
  refine h.bind fun v hv => ?_
  split
  case h_1       => exact .pure hnull
  case h_2       => exact .pure (hb _)
  case h_3 hn hc => exact .fail (he v hv hn hc)

theorem truth (h : o.value.Ends P E)
    (he : ∀ v, P v → v ≠ .null → (∀ b, v ≠ .boolean b) → E (.notBoolean v.kind)) :
    (Evaluation.truth o).Ends (fun _ => True) E := by
  refine h.bind fun v hv => .ofExcept ?_
  simp only [Value.truth?]
  split
  case h_1       => exact .ok trivial
  case h_2       => exact .ok trivial
  case h_3 hn hb => exact .error (he v hv hn hb)

-- The induction is over the predicates that are left.
theorem compound {ps : List Operand} (hp : ∀ p ∈ ps, (Evaluation.truth p).Ends (fun _ => True) E)
    (identity : Bool) : (Evaluation.compound identity ps).Ends (fun _ => True) E := by
  induction ps
  case nil => exact .pure trivial
  case cons p ps hrest =>
    rw [List.forall_mem_cons] at hp
    refine hp.1.bind fun t _ => ?_
    split
    case h_1 => exact .pure trivial
    case h_2 =>
      split
      case isTrue  => exact hrest hp.2
      case isFalse => exact .pure trivial

theorem items {is : List Operand} {P : Operand → Value → Prop} (h : ∀ i ∈ is, i.value.Ends (P i) E) :
    (Evaluation.items is).Ends (fun _ => True) E := by
  induction is
  case nil => exact .pure trivial
  case cons i is hi =>
    rw [List.forall_mem_cons] at h
    exact h.1.bind fun _ _ => (hi h.2).bind fun _ _ => .pure trivial

-- Without adapters an argument is the value of its operand, and so is what leaves the evaluation.
theorem argument {p : Parameter} (hp : p.adapter = none)
    (h : o.action.Ends (fun e => e.pending = none ∧ P e.value) E) :
    (Evaluation.argument host roots p o).Ends P E := by
  refine h.bind fun e he => ?_
  rw [he.1, hp]
  exact Ends.bind (.pure he.2) fun _ hv => .pure hv

theorem finish (h : o.action.Ends (fun e => e.pending = none ∧ P e.value) E) :
    (Evaluation.finish host roots o).Ends P E := by
  refine h.bind fun e he => ?_
  rw [he.1]
  exact .pure he.2

-- What holds of the arguments that are given already, every further argument has to keep.
theorem arguments {I : Arguments → Prop} {P : Parameter × Operand → Value → Prop}
    {as : List (Parameter × Operand)} (ha : ∀ a ∈ as, (Evaluation.argument host roots a.1 a.2).Ends (P a) E)
    (hi : ∀ a ∈ as, ∀ given v, I given → P a v → I (given.insert a.1 v)) (hg : I given) :
    (Evaluation.arguments host roots given as).Ends I E := by
  induction as generalizing given
  case nil => exact .pure hg
  case cons a as hrest =>
    rw [List.forall_mem_cons] at ha hi
    exact ha.1.bind fun v hv => hrest ha.2 hi.2 (hi.1 given v hg hv)

theorem call {I : Arguments → Prop} {f : Function} {as : List (Parameter × Operand)}
    {bodies : List (Action Value)} (hf : f.invoker = some i)
    (ha : (Evaluation.arguments host roots .empty as).Ends I E)
    (hi : ∀ values, I values → (Invoking.run host roots f i bodies values).Ends Q E) :
    (Evaluation.call host roots f as bodies).Ends (fun e => e.pending = f.adapter ∧ Q e.value) E := by
  simp only [Evaluation.call, hf]
  refine ha.bind fun values hv => (Ends.note _).bind fun _ _ => ?_
  exact (hi values hv).bind fun v hq => .pure ⟨rfl, hq⟩

end Trivalent.Action.Ends
