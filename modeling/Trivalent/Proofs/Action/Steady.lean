import Trivalent.Evaluation.Action

/-!
# Steady actions

A steady action neither depends on the store nor changes it. Whatever comes of it comes of it each time,
so that it makes no difference, but for the calls, whether it is run once or several times.
-/

namespace Trivalent.Action

variable {α β : Type} {x y z : Action α}

-- From every store the actions have one outcome and leave one store behind. They may make different
-- calls.
def Agrees (x y : Action α) : Prop :=
  ∀ s, (x s).outcome = (y s).outcome ∧ (x s).store = (y s).store

namespace Agrees

theorem refl (x : Action α) : x.Agrees x :=
  fun _ => ⟨rfl, rfl⟩

theorem symm (h : x.Agrees y) : y.Agrees x :=
  fun s => ⟨(h s).1.symm, (h s).2.symm⟩

theorem trans (h₁ : x.Agrees y) (h₂ : y.Agrees z) : x.Agrees z :=
  fun s => ⟨(h₁ s).1.trans (h₂ s).1, (h₁ s).2.trans (h₂ s).2⟩

theorem bind {f g : α → Action β} (h : x.Agrees y) (hf : ∀ a, (f a).Agrees (g a)) :
    (x >>= f).Agrees (y >>= g) := by
  intro s
  obtain ⟨ho, hs⟩ := h s
  simp only [bind_def, Action.bind, ho, hs]
  cases (y s).outcome
  case error => exact ⟨rfl, rfl⟩
  case ok a  => exact hf a _

theorem map (g : α → β) (h : x.Agrees y) : (g <$> x).Agrees (g <$> y) := by
  simp only [map_eq_pure_bind]
  exact h.bind fun a => refl _

theorem note (call call' : Call) : (note call).Agrees (note call') :=
  fun _ => ⟨rfl, rfl⟩

end Agrees

-- The action has one outcome, whatever the store is, and leaves the store as it is.
def Steady (x : Action α) : Prop :=
  ∃ outcome, ∀ s, (x s).outcome = outcome ∧ (x s).store = s

namespace Steady

theorem iff_agrees : Steady x ↔ ∃ outcome, x.Agrees (ofExcept outcome) := by
  refine exists_congr fun outcome => forall_congr' fun s => ?_
  cases outcome <;> rfl

theorem pure (a : α) : Steady (Pure.pure a) :=
  ⟨.ok a, fun _ => ⟨rfl, rfl⟩⟩

theorem ofExcept (outcome : Except EvalError α) : Steady (ofExcept outcome) :=
  iff_agrees.mpr ⟨outcome, .refl _⟩

theorem fail (e : EvalError) : Steady (fail e : Action α) :=
  ofExcept (.error e)

theorem note (call : Call) : Steady (note call) :=
  ⟨.ok (), fun _ => ⟨rfl, rfl⟩⟩

theorem bind {f : α → Action β} (hx : Steady x) (hf : ∀ a, Steady (f a)) : Steady (x >>= f) := by
  obtain ⟨outcome, hx⟩ := hx
  cases outcome
  case error err =>
    refine ⟨.error err, fun s => ?_⟩
    simp [bind_def, Action.bind, hx s]
  case ok a =>
    obtain ⟨last, hf⟩ := hf a
    refine ⟨last, fun s => ?_⟩
    simp [bind_def, Action.bind, hx s, hf s]

theorem map (g : α → β) (hx : Steady x) : Steady (g <$> x) := by
  rw [map_eq_pure_bind]
  exact hx.bind fun a => pure _

end Steady

-- The action neither depends on the properties nor changes them, but may well draw random numbers.
def Detached (x : Action α) : Prop :=
  ∀ random, ∃ outcome random', ∀ properties,
    (x ⟨properties, random⟩).outcome = outcome ∧ (x ⟨properties, random⟩).store = ⟨properties, random'⟩

namespace Detached

theorem ofSteady (h : Steady x) : Detached x := by
  have ⟨outcome, h⟩ := h
  exact fun random => ⟨outcome, random, fun properties => h ⟨properties, random⟩⟩

theorem bind {f : α → Action β} (hx : Detached x) (hf : ∀ a, Detached (f a)) : Detached (x >>= f) := by
  intro random
  obtain ⟨outcome, random', hx⟩ := hx random
  cases outcome
  case error err =>
    refine ⟨.error err, random', fun properties => ?_⟩
    simp [bind_def, Action.bind, hx properties]
  case ok a =>
    obtain ⟨last, random'', hf⟩ := hf a random'
    refine ⟨last, random'', fun properties => ?_⟩
    simp [bind_def, Action.bind, hx properties, hf properties]

theorem map (g : α → β) (hx : Detached x) : Detached (g <$> x) := by
  rw [map_eq_pure_bind]
  exact hx.bind fun a => ofSteady (.pure _)

end Detached

end Trivalent.Action
