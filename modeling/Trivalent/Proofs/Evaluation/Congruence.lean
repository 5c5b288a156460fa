import Mathlib.Data.List.Forall2
import Trivalent.Proofs.Action.Congruence
import Trivalent.Proofs.Context
import Trivalent.Proofs.Evaluation.Pending
import Trivalent.Proofs.Expression.Nodes

/-!
# Congruences of expressions

Nodes take the values of their operands and ask the host to compare them and to calculate with them. Under
a congruence, an expression that is evaluated twice is therefore related to itself as soon as its paths and
its calls are.
-/

namespace Trivalent

open Trivalent.Action (Congruence)

-- The hosts compare and calculate alike.
structure Host.ComputesLike (host host' : Host) : Prop where
  compare   : host.compare = host'.compare
  calculate : host.calculate = host'.calculate

-- The operands have one declared type, and their values are related.
structure Operand.Related (R : ∀ {α : Type}, Action α → Action α → Prop) (o o' : Operand) : Prop where
  type  : o.type = o'.type
  value : R o.value o'.value

namespace Evaluation

variable {R : ∀ {α : Type}, Action α → Action α → Prop} {host host' : Host}
  {o o' l l' r r' u u' : Operand} {os os' : List Operand}

/-! ## Nodes -/

theorem compare_eq (h : host.ComputesLike host') : compare host = compare host' := by
  funext leftType rightType left right c
  simp only [compare, h.compare]

theorem calculate_eq (h : host.ComputesLike host') : calculate host = calculate host' := by
  funext target leftType rightType left right op
  simp only [calculate, h.calculate]

theorem compare_related (hR : Congruence R) (host : Host) (leftType rightType : DataType)
    (left right : Value) (c : Comparison) :
    R (compare host leftType rightType left right c) (compare host leftType rightType left right c) := by
  rw [compare]
  split
  case h_1 => exact hR.fail _
  case h_2 => exact hR.bind (hR.note rfl) fun _ => hR.ofExcept _

theorem calculate_related (hR : Congruence R) (host : Host) (t leftType rightType : DataType)
    (left right : Value) (op : Operation) :
    R (calculate host t leftType rightType left right op)
      (calculate host t leftType rightType left right op) := by
  rw [calculate]
  split
  case h_1 => exact hR.fail _
  case h_2 => exact hR.bind (hR.note rfl) fun _ => hR.ofExcept _

theorem unlessNull_related (hR : Congruence R) (h : R o.value o'.value) (missing : α)
    {f f' : Value → Action α} (hf : ∀ v, R (f v) (f' v)) :
    R (unlessNull o missing f) (unlessNull o' missing f') := by
  apply hR.bind h
  intro v
  split
  case isTrue  => exact hR.pure _
  case isFalse => exact hf v

theorem signed_related (hR : Congruence R) (hh : host.ComputesLike host') (h : o.Related R o')
    (t : DataType) (negative : Bool) : R (signed host t o negative) (signed host' t o' negative) := by
  simp only [signed, calculate_eq hh]
  apply unlessNull_related hR h.value
  intro v
  split
  case isTrue  => exact calculate_related hR ..
  case isFalse => exact hR.pure _

theorem arithmetic_related (hR : Congruence R) (hh : host.ComputesLike host') (hl : l.Related R l')
    (hr : r.Related R r') (t : DataType) (op : Arithmetic) :
    R (arithmetic host t op l r) (arithmetic host' t op l' r') := by
  simp only [arithmetic, calculate_eq hh, hl.type, hr.type]
  exact unlessNull_related hR hl.value _ fun _ => unlessNull_related hR hr.value _ fun _ =>
    calculate_related hR ..

theorem comparison_related (hR : Congruence R) (hh : host.ComputesLike host') (hl : l.Related R l')
    (hr : r.Related R r') (c : Comparison) (negated : Bool) :
    R (comparison host c l r negated) (comparison host' c l' r' negated) := by
  simp only [comparison, compare_eq hh, hl.type, hr.type]
  exact unlessNull_related hR hl.value _ fun _ => unlessNull_related hR hr.value _ fun _ =>
    hR.bind (compare_related hR ..) fun _ => hR.pure _

theorem between_related (hR : Congruence R) (hh : host.ComputesLike host') (ho : o.Related R o')
    (hl : l.Related R l') (hu : u.Related R u') (negated : Bool) :
    R (between host o l u negated) (between host' o' l' u' negated) := by
  simp only [between, compare_eq hh, ho.type, hl.type, hu.type]
  apply unlessNull_related hR ho.value; intro v
  apply unlessNull_related hR hl.value; intro w
  apply hR.bind (compare_related hR ..); intro above
  split
  case h_1 => exact hR.pure _
  case h_2 =>
    split
    case isTrue => exact hR.pure _
    case isFalse =>
      apply unlessNull_related hR hu.value; intro w
      apply hR.bind (compare_related hR ..); intro below
      split <;> exact hR.pure _

-- The induction is on the items that are left.
theorem memberOf_related (hR : Congruence R) (hh : host.ComputesLike host')
    (h : List.Forall₂ (Operand.Related R) os os') (t : DataType) (v : Value) (negated : Bool) :
    R (memberOf host t v negated os) (memberOf host' t v negated os') := by
  induction h
  case nil => exact hR.pure _
  case cons i _ hi =>
    simp only [memberOf, compare_eq hh, i.type]
    apply unlessNull_related hR i.value; intro w
    apply hR.bind (compare_related hR ..); intro equal
    split
    case h_1 => exact hR.pure _
    case h_2 =>
      split
      case isTrue  => exact hi
      case isFalse => exact hR.pure _

theorem member_related (hR : Congruence R) (hh : host.ComputesLike host') (ho : o.Related R o')
    (h : List.Forall₂ (Operand.Related R) os os') (negated : Bool) :
    R (member host o os negated) (member host' o' os' negated) := by
  simp only [member, ho.type]
  exact unlessNull_related hR ho.value _ fun v => memberOf_related hR hh h _ v negated

theorem isNull_related (hR : Congruence R) (h : o.Related R o') (negated : Bool) :
    R (isNull o negated) (isNull o' negated) :=
  hR.bind h.value fun _ => hR.pure _

theorem isEmpty_related (hR : Congruence R) (h : o.Related R o') (negated : Bool) :
    R (isEmpty o negated) (isEmpty o' negated) := by
  apply hR.bind h.value
  intro v
  split
  case h_1 => exact hR.pure _
  case h_2 => exact hR.pure _
  case h_3 => exact hR.fail _

theorem truth_related (hR : Congruence R) (h : o.Related R o') : R (truth o) (truth o') :=
  hR.bind h.value fun _ => hR.ofExcept _

-- The induction is on the predicates that are left.
theorem compound_related (hR : Congruence R) (h : List.Forall₂ (Operand.Related R) os os')
    (identity : Bool) : R (compound identity os) (compound identity os') := by
  induction h
  case nil => exact hR.pure _
  case cons p _ hi =>
    apply hR.bind (truth_related hR p)
    intro t
    split
    case h_1 => exact hR.pure _
    case h_2 =>
      split
      case isTrue  => exact hi
      case isFalse => exact hR.pure _

theorem items_related (hR : Congruence R) (h : List.Forall₂ (Operand.Related R) os os') :
    R (items os) (items os') := by
  induction h
  case nil          => exact hR.pure _
  case cons i _ hi => exact hR.bind i.value fun _ => hR.bind hi fun _ => hR.pure _

end Evaluation

/-! ## Trees -/

namespace Expression

open Evaluation

variable {R : ∀ {α : Type}, Action α → Action α → Prop} {host host' : Host} {roots roots' : Roots}
  {e : Expression}

theorem operand_related (hR : Congruence R) (h : R (e.meaning host roots) (e.meaning host' roots')) :
    (Operand.mk e.type (e.meaning host roots)).Related R ⟨e.type, e.meaning host' roots'⟩ where
  type  := rfl
  value := hR.map _ h

theorem operands_related (hR : Congruence R) {es : List Expression}
    (h : ∀ e ∈ es, R (e.meaning host roots) (e.meaning host' roots')) :
    List.Forall₂ (Operand.Related R) (operands host roots es) (operands host' roots' es) := by
  simp only [operands_eq_map, List.forall₂_map_left_iff, List.forall₂_map_right_iff]
  exact List.forall₂_same.mpr fun e he => operand_related hR (h e he)

-- The paths and the calls are related if the children of the calls are. All other nodes compute with what
-- their children evaluate to.
theorem meaning_related (hR : Congruence R) (hh : host.ComputesLike host') (e : Expression)
    (h : ∀ n ∈ e.nodes, n.isBoundary →
      (∀ c ∈ n.children, R (c.meaning host roots) (c.meaning host' roots')) →
        R (n.meaning host roots) (n.meaning host' roots')) :
    R (e.meaning host roots) (e.meaning host' roots') := by
  induction e using children_induction
  case node e hi =>
    have ⟨he, hbelow⟩ := forall_mem_nodes.mp h
    have hc : ∀ c ∈ e.children, R (c.meaning host roots) (c.meaning host' roots') :=
      fun c hc => hi c hc (hbelow c hc)
    cases e <;> simp only [children, List.forall_mem_cons] at hc
    case path | call => exact he rfl hc
    all_goals rw [meaning, meaning]
    case literal => exact hR.pure _
    case collection => exact hR.bind (items_related hR (operands_related hR hc)) fun _ => hR.pure _
    case signed t e n => exact hR.map _ (signed_related hR hh (operand_related hR hc.1) t n)
    case arithmetic t o l r =>
      obtain ⟨hl, hr, _⟩ := hc
      exact hR.map _ (arithmetic_related hR hh (operand_related hR hl) (operand_related hR hr) t o)
    case comparison t o l r n =>
      obtain ⟨hl, hr, _⟩ := hc
      exact hR.map _ (comparison_related hR hh (operand_related hR hl) (operand_related hR hr) o n)
    case between t e l u n =>
      obtain ⟨he, hl, hu, _⟩ := hc
      exact hR.map _ (between_related hR hh (operand_related hR he) (operand_related hR hl)
        (operand_related hR hu) n)
    case member t e is n =>
      exact hR.map _ (member_related hR hh (operand_related hR hc.1) (operands_related hR hc.2) n)
    case isNull t e n => exact hR.map _ (isNull_related hR (operand_related hR hc.1) n)
    case isEmpty t e n => exact hR.map _ (isEmpty_related hR (operand_related hR hc.1) n)
    case compound t c ps n => exact hR.map _ (compound_related hR (operands_related hR hc) c.identity)
    case truth t e n => exact hR.map _ (truth_related hR (operand_related hR hc.1))

end Expression

end Trivalent
