import Trivalent.Evaluation.Action

/-!
# Courses

An action may have a hole, in which any action can be put. From each store such an action either never
comes to its hole or runs what stands there exactly once, before a part that does not depend on it.
-/

namespace Trivalent

-- The ending of an action before which some calls were made.
def Ending.after (before : List Call) (e : Ending α) : Ending α :=
  { e with calls := before ++ e.calls }

@[simp]
theorem Ending.outcome_after (before : List Call) (e : Ending α) :
    (e.after before).outcome = e.outcome :=
  rfl

namespace Action

variable {α β γ δ : Type}

-- From `s` the hole of `f` is never run: whatever stands in it, be it an action that fails, makes
-- calls or changes the store, the ending is the same.
def Skips (f : Action γ → Action α) (s : Store) : Prop :=
  ∀ x y, f x s = f y s

-- From `s` the hole of `f` is run once. It is run in the store `start` after the calls `before` were
-- made, and `rest` goes on with its value.
def Reaches (f : Action γ → Action α) (s : Store) (before : List Call) (start : Store)
    (rest : γ → Action α) : Prop :=
  ∀ x, f x s = ((x >>= rest) start).after before

theorem Reaches.not_skips {f : Action γ → Action α} (h : Reaches f s before start rest) :
    ¬Skips f s := by
  intro hs
  have hd := hs (fail .divisionByZero) (fail (.host ""))
  simp [h _, bind_def, bind, fail, Ending.after] at hd

-- An action with a hole takes its course if it skips the hole or reaches it from every store. What
-- goes on with the value of the hole satisfies `P`.
def Course (P : (γ → Action α) → Prop) (f : Action γ → Action α) : Prop :=
  ∀ s, Skips f s ∨ ∃ before start rest, Reaches f s before start rest ∧ P rest

-- How an action goes on depends on its ending alone.
theorem bind_eq_after {x y : Action α} (h : x s = (y t).after before) (k : α → Action β) :
    (x >>= k) s = ((y >>= k) t).after before := by
  simp only [bind_def, bind, h, Ending.after]
  cases (y t).outcome
  case error => rfl
  case ok    => simp

theorem bind_error {x : Action α} (h : (x s).outcome = .error err) (k : α → Action β) :
    (x >>= k) s = ⟨.error err, (x s).calls, (x s).store⟩ := by
  simp [bind_def, bind, h]

theorem bind_ok {x : Action α} (h : (x s).outcome = .ok a) (k : α → Action β) :
    (x >>= k) s = (k a (x s).store).after (x s).calls := by
  simp [bind_def, bind, h, Ending.after]

theorem map_apply (g : α → β) (x : Action α) (s : Store) :
    (g <$> x) s = ⟨(x s).outcome.map g, (x s).calls, (x s).store⟩ := by
  rw [map_eq_pure_bind]
  cases h : (x s).outcome
  case error => exact bind_error h _
  case ok    => rw [bind_ok h]; simp [Ending.after, pure_def, pure, Except.map]

theorem after_after (first second : List Call) (e : Ending α) :
    (e.after second).after first = e.after (first ++ second) := by
  simp [Ending.after]

namespace Course

variable {P : (γ → Action α) → Prop}

theorem mono {Q : (γ → Action α) → Prop} (h : Course P f) (hi : ∀ rest, P rest → Q rest) :
    Course Q f := by
  intro s
  cases h s
  case inl h => exact .inl h
  case inr h =>
    have ⟨before, start, rest, hr, hp⟩ := h
    exact .inr ⟨before, start, rest, hr, hi rest hp⟩

-- An action without a hole.
theorem const (x : Action α) : Course P fun _ => x :=
  fun _ => .inl fun _ _ => rfl

-- The hole alone.
theorem hole {P : (γ → Action γ) → Prop} (h : P Pure.pure) : Course P fun x => x := by
  intro s
  refine .inr ⟨[], s, Pure.pure, fun x => ?_, h⟩
  simp [Ending.after]

-- The hole is in what comes first.
theorem bind {Q : (γ → Action β) → Prop} (h : Course P f) (k : α → Action β)
    (hk : ∀ rest, P rest → Q fun c => rest c >>= k) : Course Q fun x => f x >>= k := by
  intro s
  cases h s
  case inl h =>
    refine .inl fun x y => ?_
    simp only [bind_def, Action.bind, h x y]
  case inr h =>
    obtain ⟨before, start, rest, hr, hp⟩ := h
    refine .inr ⟨before, start, _, fun x => ?_, hk rest hp⟩
    calc (f x >>= k) s
      _ = ((x >>= rest >>= k) start).after before             := bind_eq_after (hr x) k
      _ = ((x >>= fun c => rest c >>= k) start).after before  := by rw [bind_assoc]

-- The hole is in what follows.
theorem after (x : Action β) {f : β → Action γ → Action α} (h : ∀ b, Course P (f b)) :
    Course P fun y => x >>= fun b => f b y := by
  intro s
  cases hx : (x s).outcome
  case error => exact .inl fun _ _ => (bind_error hx _).trans (bind_error hx _).symm
  case ok b =>
    cases h b (x s).store
    case inl h =>
      refine .inl fun y z => ?_
      calc (x >>= fun b => f b y) s
        _ = (f b y (x s).store).after (x s).calls  := bind_ok hx _
        _ = (f b z (x s).store).after (x s).calls  := by rw [h y z]
        _ = (x >>= fun b => f b z) s               := (bind_ok hx fun b => f b z).symm
    case inr h =>
      have ⟨before, start, rest, hr, hp⟩ := h
      refine .inr ⟨(x s).calls ++ before, start, rest, fun y => ?_, hp⟩
      calc (x >>= fun b => f b y) s
        _ = (f b y (x s).store).after (x s).calls                  := bind_ok hx _
        _ = (((y >>= rest) start).after before).after (x s).calls  := by rw [hr y]
        _ = ((y >>= rest) start).after ((x s).calls ++ before)     := after_after ..

-- An action with a hole stands in the hole of another one.
theorem comp {Q : (δ → Action γ) → Prop} {R : (δ → Action α) → Prop} (hf : Course P f)
    (hg : Course Q g) (hr : ∀ outer inner, P outer → Q inner → R fun d => inner d >>= outer) :
    Course R fun x => f (g x) := by
  intro s
  cases hf s
  case inl hf => exact .inl fun x y => hf (g x) (g y)
  case inr hf =>
    obtain ⟨before, start, outer, hf, hp⟩ := hf
    cases hg start
    case inl hg =>
      refine .inl fun x y => ?_
      simp only [hf _, bind_def, Action.bind, hg x y]
    case inr hg =>
      obtain ⟨between, middle, inner, hg, hq⟩ := hg
      refine .inr ⟨before ++ between, middle, _, fun x => ?_, hr outer inner hp hq⟩
      calc f (g x) s
        _ = ((g x >>= outer) start).after before                                   := hf (g x)
        _ = (((x >>= inner >>= outer) middle).after between).after before          := by
          rw [bind_eq_after (hg x) outer]
        _ = ((x >>= fun d => inner d >>= outer) middle).after (before ++ between)  := by
          rw [after_after, bind_assoc]

end Course

end Action

end Trivalent
