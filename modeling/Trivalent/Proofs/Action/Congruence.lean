import Trivalent.Proofs.Action.Steady

/-!
# Congruences of actions

Actions that do the same in some respect go on doing so when they are put together in the same way. Of what
an evaluation is put together, only comparisons and calculations are calls that need no context.
-/

namespace Trivalent

-- Comparators and calculators are given nothing but the values that they work on.
def Call.isComputation : Call → Bool
  | compare ..   => true
  | calculate .. => true
  | _            => false

namespace Action

-- The relation holds of outcomes and of computations and is kept when one action follows another.
structure Congruence (R : ∀ {α : Type}, Action α → Action α → Prop) : Prop where
  ofExcept {α : Type} (outcome : Except EvalError α) : R (ofExcept outcome) (ofExcept outcome)
  note     {call : Call} : call.isComputation → R (note call) (note call)
  bind     {α β : Type} {x y : Action α} {f g : α → Action β} :
           R x y → (∀ a, R (f a) (g a)) → R (x >>= f) (y >>= g)

variable {α β : Type} {x y : Action α}

namespace Congruence

variable {R : ∀ {α : Type}, Action α → Action α → Prop}

theorem pure (hR : Congruence R) (a : α) : R (Pure.pure a) (Pure.pure a) :=
  hR.ofExcept (.ok a)

theorem fail (hR : Congruence R) (e : EvalError) : R (fail e : Action α) (Action.fail e) :=
  hR.ofExcept (.error e)

theorem map (hR : Congruence R) (g : α → β) (h : R x y) : R (g <$> x) (g <$> y) := by
  simp only [map_eq_pure_bind]
  exact hR.bind h fun a => hR.pure (g a)

-- What is kept along actions, of one action.
theorem ofEq {Q : ∀ {α : Type}, Action α → Prop}
    (he : ∀ {α : Type} (outcome : Except EvalError α), Q (Action.ofExcept outcome))
    (hn : ∀ {call : Call}, call.isComputation → Q (Action.note call))
    (hb : ∀ {α β : Type} {x : Action α} {f : α → Action β}, Q x → (∀ a, Q (f a)) → Q (x >>= f)) :
    Congruence fun x y => x = y ∧ Q x where
  ofExcept outcome := ⟨rfl, he outcome⟩
  note h           := ⟨rfl, hn h⟩
  bind h hf        := ⟨h.1 ▸ bind_congr fun a => (hf a).1, hb h.2 fun a => (hf a).2⟩

end Congruence

theorem Agrees.congruence : Congruence Agrees where
  ofExcept _ := .refl _
  note _     := .note _ _
  bind       := .bind

theorem Steady.congruence : Congruence fun x y => x = y ∧ Steady x :=
  .ofEq .ofExcept (fun _ => .note _) .bind

/-! ## Outcomes -/

-- The actions have one outcome, whatever the stores are that they start from.
def Concurs (x y : Action α) : Prop :=
  ∀ s t, (x s).outcome = (y t).outcome

namespace Concurs

theorem ofExcept (outcome : Except EvalError α) : (ofExcept outcome).Concurs (ofExcept outcome) := by
  cases outcome <;> exact fun _ _ => rfl

theorem pure (a : α) : (Pure.pure a : Action α).Concurs (Pure.pure a) :=
  ofExcept (.ok a)

theorem fail (e : EvalError) : (fail e : Action α).Concurs (Action.fail e) :=
  ofExcept (.error e)

theorem note (call call' : Call) : (note call).Concurs (note call') :=
  fun _ _ => rfl

theorem onProperties {f g : Dictionary Value → Except EvalError α × Dictionary Value}
    (h : ∀ ps ps', (f ps).1 = (g ps').1) : (onProperties f).Concurs (onProperties g) :=
  fun _ _ => h _ _

-- What follows need only concur for the values that the first action can have.
theorem bind {f g : α → Action β} (h : x.Concurs y)
    (hf : ∀ s a, (x s).outcome = .ok a → (f a).Concurs (g a)) : (x >>= f).Concurs (y >>= g) := by
  intro s t
  simp only [bind_def, Action.bind, ← h s t]
  cases ha : (x s).outcome
  case error => rfl
  case ok a  => exact hf s a ha _ _

theorem congruence : Congruence Concurs where
  ofExcept  := ofExcept
  note _    := note _ _
  bind h hf := h.bind fun _ a _ => hf a

end Concurs

/-! ## Computations -/

-- The action does the same from every store, which it leaves as it is, and calls comparators and
-- calculators only.
def Computes (x : Action α) : Prop :=
  ∃ outcome calls, (∀ c ∈ calls, c.isComputation) ∧ ∀ s, x s = ⟨outcome, calls, s⟩

namespace Computes

theorem ofExcept (outcome : Except EvalError α) : Computes (ofExcept outcome) := by
  cases outcome <;> exact ⟨_, [], nofun, fun _ => rfl⟩

theorem note (h : call.isComputation) : Computes (note call) :=
  ⟨.ok (), [call], by simpa using h, fun _ => rfl⟩

theorem bind {f : α → Action β} (hx : Computes x) (hf : ∀ a, Computes (f a)) : Computes (x >>= f) := by
  have ⟨outcome, calls, hc, hx⟩ := hx
  cases outcome
  case error err =>
    refine ⟨.error err, calls, hc, fun s => ?_⟩
    simp [bind_def, Action.bind, hx s]
  case ok a =>
    obtain ⟨last, more, hm, hf⟩ := hf a
    refine ⟨last, calls ++ more, ?_, fun s => ?_⟩
    case refine_1 => exact List.forall_mem_append.mpr ⟨hc, hm⟩
    case refine_2 => simp [bind_def, Action.bind, hx s, hf s]

theorem congruence : Congruence fun x y => x = y ∧ Computes x :=
  .ofEq ofExcept note bind

end Computes

end Action

end Trivalent
