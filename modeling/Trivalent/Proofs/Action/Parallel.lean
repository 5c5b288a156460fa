import Trivalent.Proofs.Action.Course

/-!
# Parallel actions

Two actions that fail together, if not with one error, and that come to one value otherwise. They leave one
store behind.
-/

namespace Trivalent

-- Both outcomes are errors, of whatever kind, or they are values that are related.
inductive Parallel (R : α → β → Prop) : Except EvalError α → Except EvalError β → Prop
  | ok    : R a b → Parallel R (.ok a) (.ok b)
  | error : Parallel R (.error err) (.error err')

namespace Parallel

variable {R : α → β → Prop} {S : γ → δ → Prop} {x : Except EvalError α} {y : Except EvalError β}

theorem refl (x : Except EvalError α) : Parallel Eq x x := by
  cases x
  case error => exact .error
  case ok    => exact .ok rfl

theorem of_errors (hx : ∃ err, x = .error err) (hy : ∃ err, y = .error err) : Parallel R x y := by
  have ⟨_, hx⟩ := hx
  have ⟨_, hy⟩ := hy
  rw [hx, hy]
  exact .error

theorem map {f : α → γ} {g : β → δ} (h : Parallel R x y) (hf : ∀ a b, R a b → S (f a) (g b)) :
    Parallel S (x.map f) (y.map g) := by
  cases h
  case ok h  => exact .ok (hf _ _ h)
  case error => exact .error

end Parallel

namespace Action

variable {R : α → β → Prop} {S : γ → δ → Prop} {x : Action α} {y : Action β}

-- From every store both actions fail or come to values that are related, and they leave one store behind.
def Parallel (R : α → β → Prop) (x : Action α) (y : Action β) : Prop :=
  ∀ s, Trivalent.Parallel R (x s).outcome (y s).outcome ∧ (x s).store = (y s).store

namespace Parallel

theorem refl (x : Action α) : x.Parallel Eq x :=
  fun _ => ⟨.refl _, rfl⟩

theorem fail (err err' : EvalError) : (Action.fail err).Parallel R (Action.fail err') :=
  fun _ => ⟨.error, rfl⟩

-- Which call is noted does not matter.
theorem noted {o : Except EvalError α} {o' : Except EvalError β} (h : Trivalent.Parallel R o o')
    (call call' : Call) :
    (Action.note call >>= fun _ => Action.ofExcept o).Parallel R
      (Action.note call' >>= fun _ => Action.ofExcept o') := by
  intro s
  cases h
  case ok h  => exact ⟨.ok h, rfl⟩
  case error => exact ⟨.error, rfl⟩

theorem map {f : α → γ} {g : β → δ} (h : x.Parallel R y) (hf : ∀ a b, R a b → S (f a) (g b)) :
    (f <$> x).Parallel S (g <$> y) := by
  intro s
  have ⟨ho, hs⟩ := h s
  simp only [map_apply]
  exact ⟨ho.map hf, hs⟩

-- What comes first is the same.
theorem after (z : Action γ) {f : γ → Action α} {g : γ → Action β} (h : ∀ c, (f c).Parallel R (g c)) :
    (z >>= f).Parallel R (z >>= g) := by
  intro s
  cases hz : (z s).outcome
  case error =>
    simp only [bind_error hz]
    exact ⟨.error, trivial⟩
  case ok c =>
    simp only [bind_ok hz]
    exact h c (z s).store

end Parallel

end Action

end Trivalent
