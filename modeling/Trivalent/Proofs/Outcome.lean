import Trivalent.Evaluation.Action

/-!
# Outcomes

What can be said of an outcome, be it a value or an error, and of the outcome of an action from every
store.
-/

namespace Trivalent

theorem bind_eq_ok {x : Except ε α} {f : α → Except ε β} :
    (x >>= f = .ok b) ↔ ∃ a, x = .ok a ∧ f a = .ok b := by
  cases x <;> simp [bind, Except.bind]

theorem bind_eq_error {x : Except ε α} {f : α → Except ε β} :
    (x >>= f = .error err) ↔ x = .error err ∨ ∃ a, x = .ok a ∧ f a = .error err := by
  cases x <;> simp [bind, Except.bind]

theorem mapError_eq_ok {x : Except ε α} {g : ε → ε'} : (x.mapError g = .ok a) ↔ x = .ok a := by
  cases x
  case error => exact ⟨nofun, nofun⟩
  case ok b  =>
    change (Except.ok b : Except ε' α) = .ok a ↔ _
    simp

theorem map_eq_ok {x : Except ε α} {f : α → β} : (x.map f = .ok b) ↔ ∃ a, x = .ok a ∧ f a = b := by
  cases x <;> simp [Except.map]

theorem of_mapM_eq_ok {f : α → Except ε β} {as : List α} (h : as.mapM f = .ok bs) (hb : b ∈ bs) :
    ∃ a, f a = .ok b := by
  induction as generalizing bs
  case nil =>
    cases h
    contradiction
  case cons a as hi =>
    rw [List.mapM_cons] at h
    have ⟨c, hc, h⟩ := bind_eq_ok.mp h
    have ⟨cs, hcs, h⟩ := bind_eq_ok.mp h
    cases h
    cases hb
    case head    => exact ⟨a, hc⟩
    case tail hb => exact hi hcs hb

-- The outcome is a value that satisfies `Q` or an error that satisfies `E`.
inductive Meets (Q : α → Prop) (E : EvalError → Prop) : Except EvalError α → Prop
  | ok    : Q a → Meets Q E (.ok a)
  | error : E err → Meets Q E (.error err)

namespace Meets

variable {Q Q' : α → Prop} {E E' : EvalError → Prop} {x : Except EvalError α}

theorem mono (h : Meets Q E x) (hq : ∀ a, Q a → Q' a) (he : ∀ err, E err → E' err) :
    Meets Q' E' x := by
  cases h
  case ok h    => exact .ok (hq _ h)
  case error h => exact .error (he _ h)

theorem widen (h : Meets Q E x) (he : ∀ err, E err → E' err) : Meets Q E' x :=
  h.mono (fun _ h => h) he

theorem value (h : Meets Q E (.ok a)) : Q a := by
  cases h
  assumption

theorem failure (h : Meets Q E (.error err)) : E err := by
  cases h
  assumption

end Meets

namespace Action

-- From every store the action ends with a value that satisfies `Q` or an error that satisfies `E`.
def Ends (x : Action α) (Q : α → Prop) (E : EvalError → Prop) : Prop :=
  ∀ s, Meets Q E (x s).outcome

namespace Ends

variable {Q Q' : α → Prop} {R : β → Prop} {E E' : EvalError → Prop} {x : Action α}

theorem mono (h : x.Ends Q E) (hq : ∀ a, Q a → Q' a) (he : ∀ err, E err → E' err) :
    x.Ends Q' E' :=
  fun s => (h s).mono hq he

theorem widen (h : x.Ends Q E) (he : ∀ err, E err → E' err) : x.Ends Q E' :=
  fun s => (h s).widen he

theorem any (x : Action α) : x.Ends (fun _ => True) fun _ => True := by
  intro s
  cases (x s).outcome
  case error => exact .error trivial
  case ok    => exact .ok trivial

theorem of_ok (h : x.Ends Q E) (ho : (x s).outcome = .ok a) : Q a := by
  have hs := h s
  rw [ho] at hs
  exact hs.value

theorem pure (h : Q a) : (Pure.pure a : Action α).Ends Q E :=
  fun _ => .ok h

theorem fail (h : E err) : (Action.fail err : Action α).Ends Q E :=
  fun _ => .error h

theorem ofExcept (h : Meets Q E o) : (Action.ofExcept o).Ends Q E := by
  cases h
  case ok h    => exact pure h
  case error h => exact fail h

theorem note (call : Call) : (Action.note call).Ends (fun _ => True) E :=
  fun _ => .ok trivial

theorem bind {f : α → Action β} (h : x.Ends Q E) (hf : ∀ a, Q a → (f a).Ends R E) :
    (x >>= f).Ends R E := by
  intro s
  have hs := h s
  simp only [bind_def, Action.bind]
  cases ho : (x s).outcome <;> rw [ho] at hs
  case error => exact .error hs.failure
  case ok a  => exact hf a hs.value _

-- A noted call of a capability that answers at once.
theorem noted (call : Call) (h : Meets Q E o) :
    (Action.note call >>= fun _ => Action.ofExcept o).Ends Q E :=
  (note call).bind fun _ _ => ofExcept h

theorem map {g : α → β} (h : x.Ends Q E) (hg : ∀ a, Q a → R (g a)) : (g <$> x).Ends R E := by
  rw [map_eq_pure_bind]
  exact h.bind fun a ha => pure (hg a ha)

end Ends

end Action

end Trivalent
