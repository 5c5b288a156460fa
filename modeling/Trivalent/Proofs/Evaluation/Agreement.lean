import Trivalent.Proofs.Evaluation.Congruence

/-!
# Agreement of nodes

If two nodes are alike, if the values of their operands agree, and if their hosts compare and calculate alike,
then they agree as well.
-/

namespace Trivalent

-- The operands have one declared type, and their values agree.
structure Operand.Agrees (o o' : Operand) : Prop where
  type  : o.type = o'.type
  value : o.value.Agrees o'.value

theorem Operand.Agrees.related {o o' : Operand} (h : o.Agrees o') : o.Related Action.Agrees o' :=
  ⟨h.type, h.value⟩

namespace Evaluation

open Trivalent.Action (Agrees)

variable {host host' : Host} {o o' l l' r r' u u' : Operand} {os os' : List Operand}

theorem unlessNull_agrees {f f' : Value → Action α} (h : o.value.Agrees o'.value) (missing : α)
    (hf : ∀ v, (f v).Agrees (f' v)) : (unlessNull o missing f).Agrees (unlessNull o' missing f') :=
  unlessNull_related Agrees.congruence h missing hf

theorem signed_agrees (hh : host.ComputesLike host') (h : o.Agrees o') (t : DataType)
    (negative : Bool) : (signed host t o negative).Agrees (signed host' t o' negative) :=
  signed_related Agrees.congruence hh h.related t negative

theorem arithmetic_agrees (hh : host.ComputesLike host') (hl : l.Agrees l') (hr : r.Agrees r')
    (t : DataType) (op : Arithmetic) :
    (arithmetic host t op l r).Agrees (arithmetic host' t op l' r') :=
  arithmetic_related Agrees.congruence hh hl.related hr.related t op

theorem comparison_agrees (hh : host.ComputesLike host') (hl : l.Agrees l') (hr : r.Agrees r')
    (c : Comparison) (negated : Bool) :
    (comparison host c l r negated).Agrees (comparison host' c l' r' negated) :=
  comparison_related Agrees.congruence hh hl.related hr.related c negated

theorem between_agrees (hh : host.ComputesLike host') (ho : o.Agrees o') (hl : l.Agrees l')
    (hu : u.Agrees u') (negated : Bool) :
    (between host o l u negated).Agrees (between host' o' l' u' negated) :=
  between_related Agrees.congruence hh ho.related hl.related hu.related negated

theorem member_agrees (hh : host.ComputesLike host') (ho : o.Agrees o')
    (h : List.Forall₂ Operand.Agrees os os') (negated : Bool) :
    (member host o os negated).Agrees (member host' o' os' negated) :=
  member_related Agrees.congruence hh ho.related (h.imp fun _ _ => Operand.Agrees.related) negated

theorem isNull_agrees (h : o.Agrees o') (negated : Bool) :
    (isNull o negated).Agrees (isNull o' negated) :=
  isNull_related Agrees.congruence h.related negated

theorem isEmpty_agrees (h : o.Agrees o') (negated : Bool) :
    (isEmpty o negated).Agrees (isEmpty o' negated) :=
  isEmpty_related Agrees.congruence h.related negated

theorem truth_agrees (h : o.Agrees o') : (truth o).Agrees (truth o') :=
  truth_related Agrees.congruence h.related

theorem compound_agrees (h : List.Forall₂ Operand.Agrees os os') (identity : Bool) :
    (compound identity os).Agrees (compound identity os') :=
  compound_related Agrees.congruence (h.imp fun _ _ => Operand.Agrees.related) identity

theorem items_agrees (h : List.Forall₂ Operand.Agrees os os') : (items os).Agrees (items os') :=
  items_related Agrees.congruence (h.imp fun _ _ => Operand.Agrees.related)

end Evaluation

end Trivalent
