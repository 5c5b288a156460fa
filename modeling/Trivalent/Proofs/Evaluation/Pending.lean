import Trivalent.Proofs.Action.Course
import Trivalent.Proofs.Evaluation.Walk
import Trivalent.Proofs.Outcome

/-!
# Pending adapters

Paths and calls are the nodes that leave an adapter pending. What is known of the adapter before a node is
run decides what becomes of its value: the caller converts it, an argument converts it, and all other nodes
take it as it is.
-/

namespace Trivalent

open Trivalent.Action (Ends)

namespace Evaluation

variable {host : Host} {roots : Roots} {o : Operand} {s : Store}

-- The conversions of an argument, one after the other.
theorem argument_eq (p : Parameter) (o : Operand) :
    argument host roots p o =
      o.action >>= fun e =>
        (match e.pending with
          | some a => toInternal host roots a p.type e.value
          | none   => pure e.value) >>= fun v =>
            match p.adapter with
            | some a => toModel host roots a p.type v
            | none   => pure v := by
  refine bind_congr fun e => ?_
  cases e.pending <;> rfl

theorem call_pending (f : Function) (as : List (Parameter × Operand)) (bodies : List (Action Value)) :
    (call host roots f as bodies).Ends (·.pending = f.adapter) fun _ => True := by
  rw [call]
  split
  case h_1 => exact .fail trivial
  case h_2 i =>
    refine (Ends.any _).bind fun values _ => (Ends.note _).bind fun _ _ => ?_
    exact (Ends.any _).bind fun v _ => .pure rfl

-- What goes on with an operand goes on with its value if the adapter is known that will be pending.
theorem action_bind_apply (h : ∀ e, (o.action s).outcome = .ok e → e.pending = q)
    (k : Evaluated → Action α) : (o.action >>= k) s = (o.value >>= fun v => k ⟨v, q⟩) s := by
  have hv : (o.value s) = ⟨(o.action s).outcome.map (·.value), (o.action s).calls, (o.action s).store⟩ :=
    Action.map_apply _ _ _
  cases ho : (o.action s).outcome
  case error err =>
    rw [Action.bind_error ho, Action.bind_error (by rw [hv, ho]; rfl), hv]
  case ok e =>
    have he : e = ⟨e.value, q⟩ := by rw [← h e ho]
    rw [Action.bind_ok ho, Action.bind_ok (a := e.value) (by rw [hv, ho]; rfl), hv, ← he]

end Evaluation

namespace Expression

open Evaluation

-- Paths and calls bring values in from outside.
def isBoundary : Expression → Bool
  | path _  => true
  | call .. => true
  | _       => false

-- If the expression has a value from `s`, it leaves the adapter pending. A path has to come to its last
-- attribute for that, which it does if the attributes before lead to something other than null.
inductive Leaves (host : Host) (roots : Roots) (s : Store) (a : Adapter) : Expression → Prop
  | path : p.attributes = before ++ [last] →
      (walk host roots (roots.object p.root) before s).outcome = .ok e → e.value ≠ .null →
      last.adapter = some a → Leaves host roots s a (.path p)
  | call : f.adapter = some a → Leaves host roots s a (.call t f as)

variable {host : Host} {roots : Roots} {e : Expression} {s : Store} {a : Adapter}

theorem Leaves.isBoundary (h : Leaves host roots s a e) : e.isBoundary := by
  cases h <;> rfl

theorem meaning_pending_none (h : e.isBoundary = false) (host : Host) (roots : Roots) :
    (e.meaning host roots).Ends (·.pending = none) fun _ => True := by
  cases e <;> first | contradiction | rw [meaning]
  case literal    => exact .pure rfl
  case collection => exact (Ends.any _).bind fun _ _ => .pure rfl
  all_goals exact (Ends.any _).map fun _ _ => rfl

theorem path_pending_iff {p : Path} (h : (Evaluation.path host roots p s).outcome = .ok v) :
    v.pending = some a ↔ Leaves host roots s a (.path p) := by
  rw [Evaluation.path] at h
  rcases List.eq_nil_or_concat p.attributes with hp | ⟨before, last, hp⟩
  case inl =>
    rw [hp] at h
    cases h
    refine ⟨nofun, fun hl => ?_⟩
    cases hl with
    | path hp' => simp [hp] at hp'
  case inr =>
    rw [List.concat_eq_append] at hp
    rw [hp, walk_append host roots (by simp)] at h
    cases hw : (walk host roots (roots.object p.root) before s).outcome
    case error => simp [Action.bind_error hw] at h
    case ok e =>
      rw [Action.bind_ok hw, Ending.outcome_after, walk_singleton] at h
      have hl : Leaves host roots s a (.path p) ↔ e.value ≠ .null ∧ last.adapter = some a := by
        refine ⟨fun hl => ?_, fun ⟨hn, ha⟩ => .path hp hw hn ha⟩
        cases hl with
        | path hp' hw' hn ha =>
          obtain ⟨rfl, hlast⟩ := List.append_inj' (hp.symm.trans hp') rfl
          cases hlast
          cases hw.symm.trans hw'
          exact ⟨hn, ha⟩
      by_cases hn : e.value = .null
      case pos =>
        rw [if_pos (by simp [hn])] at h
        cases h
        simp [hl, hn, Evaluated.plain]
      case neg =>
        rw [if_neg (by simp [hn])] at h
        have hs : Ends (step host roots last e.value >>= fun v => pure ⟨v, last.adapter⟩)
            (fun v : Evaluated => v.pending = last.adapter) fun _ => True :=
          (Ends.any _).bind fun _ _ => .pure rfl
        have hv : v.pending = last.adapter := hs.of_ok h
        simp [hl, hn, hv]

-- The adapter that is pending beside a value.
theorem meaning_pending_iff (h : (e.meaning host roots s).outcome = .ok v) :
    v.pending = some a ↔ Leaves host roots s a e := by
  cases hb : e.isBoundary
  case false =>
    have hv : v.pending = none := (meaning_pending_none hb host roots).of_ok h
    refine ⟨fun ha => ?_, fun hl => ?_⟩
    · simp [hv] at ha
    · simp [hl.isBoundary] at hb
  case true =>
    cases e <;> first | contradiction | rw [meaning] at h
    case path p => exact path_pending_iff h
    case call t f as =>
      rw [Ends.of_ok (call_pending f _ _) h]
      refine ⟨.call, fun hl => ?_⟩
      cases hl
      assumption

theorem meaning_bind_of_leaves (h : Leaves host roots s a e) (k : Evaluated → Action α) :
    (e.meaning host roots >>= k) s = (e.internal host roots >>= fun v => k ⟨v, some a⟩) s :=
  action_bind_apply (o := e.operand host roots) (fun _ hv => (meaning_pending_iff hv).mpr h) k

theorem meaning_bind_of_not_leaves (h : ∀ a, ¬Leaves host roots s a e) (k : Evaluated → Action α) :
    (e.meaning host roots >>= k) s = (e.internal host roots >>= fun v => k ⟨v, none⟩) s := by
  refine action_bind_apply (o := e.operand host roots) (fun v hv => ?_) k
  refine Option.eq_none_iff_forall_ne_some.mpr fun a ha => h a ?_
  exact (meaning_pending_iff hv).mp ha

/-! ## Values that leave the evaluation -/

theorem evaluate_of_leaves (h : Leaves host roots s a e) :
    e.evaluate host roots s = (e.internal host roots >>= toModel host roots a e.type) s :=
  meaning_bind_of_leaves h _

theorem evaluate_of_not_leaves (h : ∀ a, ¬Leaves host roots s a e) :
    e.evaluate host roots s = e.internal host roots s := by
  have he := meaning_bind_of_not_leaves h fun v =>
    match v.pending with
    | some adapter => toModel host roots adapter e.type v.value
    | none         => pure v.value
  exact he.trans (by simp)

theorem evaluate_of_not_isBoundary (h : e.isBoundary = false) :
    e.evaluate host roots = e.internal host roots := by
  ext s : 1
  refine evaluate_of_not_leaves fun a hl => ?_
  simp [hl.isBoundary] at h

end Expression

end Trivalent
