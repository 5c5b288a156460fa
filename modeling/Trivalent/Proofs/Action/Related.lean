import Trivalent.Proofs.Action.Steady

/-!
# Related actions

Two actions that come to related values, or else to one error, and leave one store behind. Actions agree if
their values are equal.
-/

namespace Trivalent

-- The outcomes are related values or one error.
inductive Alike (R : α → β → Prop) : Except EvalError α → Except EvalError β → Prop
  | ok    : R a b → Alike R (.ok a) (.ok b)
  | error : Alike R (.error e) (.error e)

theorem alike_eq {x y : Except EvalError α} : Alike Eq x y ↔ x = y := by
  refine ⟨fun h => ?_, fun h => ?_⟩
  case refine_1 =>
    cases h
    case ok h  => rw [h]
    case error => rfl
  case refine_2 =>
    cases x <;> cases h
    case error => exact .error
    case ok    => exact .ok rfl

namespace Action

-- From every store the actions have outcomes that are alike and leave one store behind.
def Relates (R : α → β → Prop) (x : Action α) (y : Action β) : Prop :=
  ∀ s, Alike R (x s).outcome (y s).outcome ∧ (x s).store = (y s).store

namespace Relates

variable {R : α → β → Prop} {S : γ → δ → Prop} {x : Action α} {y : Action β}

theorem pure (h : R a b) : (Pure.pure a : Action α).Relates R (Pure.pure b) :=
  fun _ => ⟨.ok h, rfl⟩

theorem fail (e : EvalError) : (fail e : Action α).Relates R (Action.fail e) :=
  fun _ => ⟨.error, rfl⟩

theorem bind {f : α → Action γ} {g : β → Action δ} (h : x.Relates R y)
    (hf : ∀ a b, R a b → (f a).Relates S (g b)) : (x >>= f).Relates S (y >>= g) := by
  intro s
  have ⟨ho, hs⟩ := h s
  simp only [bind_def, Action.bind, hs]
  cases hx : (x s).outcome <;> cases hy : (y s).outcome <;> rw [hx, hy] at ho <;> cases ho
  case error.error.error => exact ⟨.error, rfl⟩
  case ok.ok.ok hr       => exact hf _ _ hr _

theorem map {f : α → γ} {g : β → δ} (h : x.Relates R y) (hf : ∀ a b, R a b → S (f a) (g b)) :
    (f <$> x).Relates S (g <$> y) := by
  simp only [map_eq_pure_bind]
  exact h.bind fun a b hr => pure (hf a b hr)

end Relates

theorem agrees_iff_relates {x y : Action α} : x.Agrees y ↔ x.Relates Eq y :=
  forall_congr' fun _ => and_congr_left' alike_eq.symm

-- Actions that agree go on with one value.
theorem Agrees.relates_bind {R : α → β → Prop} {x y : Action γ} {f : γ → Action α} {g : γ → Action β}
    (h : x.Agrees y) (hf : ∀ c, (f c).Relates R (g c)) : (x >>= f).Relates R (y >>= g) :=
  (agrees_iff_relates.mp h).bind fun _ _ hc => hc ▸ hf _

theorem Agrees.relates_map {R : α → β → Prop} {x y : Action γ} {f : γ → α} {g : γ → β}
    (h : x.Agrees y) (hf : ∀ c, R (f c) (g c)) : (f <$> x).Relates R (g <$> y) :=
  (agrees_iff_relates.mp h).map fun _ _ hc => hc ▸ hf _

-- Related values are gone on with in ways that agree.
theorem Relates.agrees_bind {R : α → β → Prop} {x : Action α} {y : Action β} {f : α → Action γ}
    {g : β → Action γ} (h : x.Relates R y) (hf : ∀ a b, R a b → (f a).Agrees (g b)) :
    (x >>= f).Agrees (y >>= g) :=
  agrees_iff_relates.mpr <| h.bind fun a b hr => agrees_iff_relates.mp (hf a b hr)

theorem Relates.agrees_map {R : α → β → Prop} {x : Action α} {y : Action β} {f : α → γ}
    {g : β → γ} (h : x.Relates R y) (hf : ∀ a b, R a b → f a = g b) : (f <$> x).Agrees (g <$> y) :=
  agrees_iff_relates.mpr <| h.map hf

end Action

end Trivalent
