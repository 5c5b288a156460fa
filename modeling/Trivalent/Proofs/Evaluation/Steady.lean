import Trivalent.Proofs.Evaluation.Congruence

/-!
# Steady expressions

Only functions and adapters can get at the store. An expression without them has one outcome, whatever
the store is, and leaves the store as it is.
-/

namespace Trivalent

open Trivalent.Action (Steady)

namespace Evaluation

variable (host : Host) {roots : Roots} {o : Operand}

theorem access_steady (field : Attribute) (object : Value) : Steady (access host field object) := by
  rw [access]
  split
  case h_1 => exact .fail _
  case h_2 => exact (Steady.note _).bind fun _ => by split <;> exact .ofExcept _

theorem compare_steady (leftType rightType : DataType) (left right : Value) (c : Comparison) :
    Steady (compare host leftType rightType left right c) :=
  (compare_related Steady.congruence host ..).2

theorem unlessNull_steady (h : Steady o.action) (missing : α) {f : Value → Action α}
    (hf : ∀ v, Steady (f v)) : Steady (unlessNull o missing f) :=
  (unlessNull_related Steady.congruence ⟨rfl, h.map _⟩ missing fun v => ⟨rfl, hf v⟩).2

theorem step_steady (ha : a.adapter = none) (v : Value) : Steady (step host roots a v) := by
  rw [step, ha]
  exact (access_steady host a v).bind fun _ => .pure _

theorem walk_steady {as : List Attribute} (h : ∀ a ∈ as, a.adapter = none) (v : Value) :
    Steady (walk host roots v as) := by
  induction as generalizing v
  case nil => exact .pure _
  case cons a as hi =>
    simp only [List.mem_cons, forall_eq_or_imp] at h
    have hs : Steady (step host roots a v) := step_steady host h.1 v
    cases as <;> simp only [walk] <;> split
    case nil.isTrue   => exact .pure _
    case nil.isFalse  => exact hs.bind fun _ => .pure _
    case cons.isTrue  => exact .pure _
    case cons.isFalse => exact hs.bind fun w => hi h.2 w

end Evaluation

namespace Expression

mutual

-- Nothing is called in the expression, and its paths lead along no adapter.
def isPassive : Expression → Bool
  | literal ..           => true
  | collection _ is      => arePassive is
  | path p               => p.attributes.all (·.adapter.isNone)
  | signed _ e _         => e.isPassive
  | arithmetic _ _ l r   => l.isPassive && r.isPassive
  | call ..              => false
  | comparison _ _ l r _ => l.isPassive && r.isPassive
  | between _ e l u _    => e.isPassive && l.isPassive && u.isPassive
  | member _ e is _      => e.isPassive && arePassive is
  | isNull _ e _         => e.isPassive
  | isEmpty _ e _        => e.isPassive
  | compound _ _ ps _    => arePassive ps
  | truth _ e _          => e.isPassive

def arePassive : List Expression → Bool
  | []      => true
  | e :: es => e.isPassive && arePassive es

end

theorem arePassive_eq_all (es : List Expression) : arePassive es = es.all isPassive := by
  induction es
  case nil         => rfl
  case cons _ _ hi => rw [arePassive, hi, List.all_cons]

-- The nodes that bring values in are paths without adapters.
theorem isPassive_iff (e : Expression) :
    e.isPassive ↔ ∀ n ∈ e.nodes, n.isBoundary → ∃ p, n = path p ∧ ∀ a ∈ p.attributes, a.adapter = none := by
  apply forall_mem_nodes_of_children (P := fun e => e.isPassive)
  intro e
  cases e <;> simp [children, isPassive, isBoundary, arePassive_eq_all, and_assoc]

variable (host : Host) (roots : Roots)

open Evaluation

theorem meaning_steady (e : Expression) (h : e.isPassive) : Steady (e.meaning host roots) := by
  have ⟨_, hs⟩ : e.meaning host roots = e.meaning host roots ∧ Steady (e.meaning host roots) := by
    apply meaning_related Steady.congruence ⟨rfl, rfl⟩
    intro n hn hb _
    have ⟨p, hp, ha⟩ := (isPassive_iff e).mp h n hn hb
    subst hp
    rw [meaning]
    exact ⟨rfl, walk_steady host ha _⟩
  exact hs

-- Whatever a passive expression evaluates to, it evaluates to each time.
theorem internal_steady {e : Expression} (h : e.isPassive) : Steady (e.internal host roots) :=
  (meaning_steady host roots e h).map _

end Expression

end Trivalent
