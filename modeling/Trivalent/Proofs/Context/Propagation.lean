import Trivalent.Proofs.Context.Course
import Trivalent.Standard

/-!
# Propagation of nulls and errors

A null or an error that an evaluation meets in the hole of a context comes out of the context: nulls if
all nodes around the hole absorb them, errors always. A context that never comes to its hole does not
depend on what fills it.
-/

namespace Trivalent.Context

open Evaluation

variable (host : Host) (roots : Roots)

-- From `s` the context never comes to its hole.
def Skips (C : Context) (t : DataType) (s : Store) : Prop :=
  Action.Skips (fun x => (C.run host roots ⟨t, x⟩).action) s

-- From `s` the context comes to its hole, after the calls `before` and in the store `start`.
def Reaches (C : Context) (t : DataType) (s : Store) (before : List Call) (start : Store) : Prop :=
  ∃ rest, Action.Reaches (fun x => (C.run host roots ⟨t, x⟩).action) s before start rest

variable {host roots} {C : Context} {e : Expression} {s : Store}

theorem Reaches.not_skips (h : Reaches host roots C t s before start) : ¬Skips host roots C t s :=
  have ⟨_, h⟩ := h
  Action.Reaches.not_skips h

theorem finish_congr {o o' : Operand} (ht : o.type = o'.type) (h : o.action s = o'.action s) :
    finish host roots o s = finish host roots o' s := by
  simp only [finish, Action.bind_def, Action.bind, h, ht]

theorem evaluate_fill (C : Context) (e : Expression) :
    (fill C e).evaluate host roots =
      finish host roots ⟨Context.type C e.type, (run host roots C (e.operand host roots)).action⟩ := by
  rw [Expression.evaluate, operand_fill, run_eq]
  rfl

theorem Skips.evaluate_eq (h : Skips host roots C e.type s) {e' : Expression}
    (ht : e'.type = e.type) :
    (fill C e').evaluate host roots s = (fill C e).evaluate host roots s := by
  rw [evaluate_fill, evaluate_fill]
  refine finish_congr (by simp only [ht]) ?_
  simp only [Expression.operand, ht]
  exact h _ _

theorem internal_apply (e : Expression) (s : Store) :
    e.internal host roots s =
      ⟨(e.meaning host roots s).outcome.map (·.value), (e.meaning host roots s).calls,
        (e.meaning host roots s).store⟩ := by
  rw [Expression.internal, Operand.value, Action.map_apply]
  rfl

theorem meaning_of_internal_null (h : (e.internal host roots s).outcome = .ok .null) :
    ∃ p, (e.meaning host roots s).outcome = .ok ⟨.null, p⟩ := by
  rw [internal_apply] at h
  cases ho : (e.meaning host roots s).outcome <;> simp only [ho, Except.map] at h
  case error => contradiction
  case ok r =>
    have hv : r.value = .null := by simpa using h
    exact ⟨r.pending, by simp [← hv]⟩

theorem meaning_of_internal_error (h : (e.internal host roots s).outcome = .error err) :
    (e.meaning host roots s).outcome = .error err := by
  rw [internal_apply] at h
  cases ho : (e.meaning host roots s).outcome <;> simp [ho, Except.map] at h
  case error => rw [h]

-- Where the context comes to its hole the evaluation starts with what fills it.
theorem run_of_reaches
    (h : Action.Reaches (fun x => (run host roots C ⟨e.type, x⟩).action) s before start rest) :
    (run host roots C (e.operand host roots)).action s =
      ((e.meaning host roots >>= rest) start).after before :=
  h _

-- A context of nodes that absorb nulls is null if it comes to a null in its hole, whatever the nodes
-- beside the hole are. If it does not come to it, nothing depends on what fills the hole.
theorem evaluate_fill_null (hC : C ≠ []) (ha : ∀ F ∈ C, F.AbsorbsNull)
    (he : ∀ s, (e.internal host roots s).outcome = .ok .null) (s : Store) :
    ((fill C e).evaluate host roots s).outcome = .ok .null ∨
      (Skips host roots C e.type s ∧ ∀ e' : Expression, e'.type = e.type →
        (fill C e').evaluate host roots s = (fill C e).evaluate host roots s) := by
  cases Context.course host roots C e.type s
  case inl h => exact .inr ⟨h, fun _ => Skips.evaluate_eq h⟩
  case inr h =>
    have ⟨before, start, rest, hr, hn⟩ := h
    have ⟨p, hp⟩ := meaning_of_internal_null (he start)
    have hrest : rest ⟨.null, p⟩ = pure (.plain .null) := by
      simpa [List.isEmpty_iff, hC, Evaluated.plain] using hn ha p
    have ho : ((run host roots C (e.operand host roots)).action s).outcome = .ok (.plain .null) := by
      rw [run_of_reaches hr, Action.bind_ok hp, hrest]
      rfl
    left
    rw [evaluate_fill, finish, Action.bind_ok ho]
    rfl

-- `1 = 1 AND 5 NOT BETWEEN 7 AND p`, where `p` has no value.
theorem evaluate_fill_null_notBetween :
    let one := Expression.literal Standard.integer (.integer 1)
    let C : Context :=
      [.predicate Standard.boolean .and [.comparison Standard.boolean .equal one one false] [] false,
       .betweenUpper Standard.boolean (.literal Standard.integer (.integer 5))
         (.literal Standard.integer (.integer 7)) true]
    let e := Expression.path ⟨Standard.integer, "p", []⟩
    ((fill C e).evaluate .none .empty ⟨[], ⟨0⟩⟩).outcome = .ok .null ∨
      (Skips .none .empty C e.type ⟨[], ⟨0⟩⟩ ∧ ∀ e' : Expression, e'.type = e.type →
        (fill C e').evaluate .none .empty ⟨[], ⟨0⟩⟩ = (fill C e).evaluate .none .empty ⟨[], ⟨0⟩⟩) :=
  evaluate_fill_null (by simp) (by simp [Frame.AbsorbsNull]) (fun _ => rfl) _

-- An error that a context comes to in its hole is the error of the whole. The calls that were made and
-- the store are those that the failure leaves behind: nothing is done after it.
theorem evaluate_fill_error (he : ∀ s, (e.internal host roots s).outcome = .error err) (s : Store) :
    (∃ before start, Reaches host roots C e.type s before start ∧
        (fill C e).evaluate host roots s =
          ⟨.error err, before ++ (e.internal host roots start).calls,
            (e.internal host roots start).store⟩) ∨
      (Skips host roots C e.type s ∧ ∀ e' : Expression, e'.type = e.type →
        (fill C e').evaluate host roots s = (fill C e).evaluate host roots s) := by
  cases Context.course host roots C e.type s
  case inl h => exact .inr ⟨h, fun _ => Skips.evaluate_eq h⟩
  case inr h =>
    have ⟨before, start, rest, hr, _⟩ := h
    refine .inl ⟨before, start, ⟨rest, hr⟩, ?_⟩
    have hm := meaning_of_internal_error (he start)
    have ho : (run host roots C (e.operand host roots)).action s =
        ⟨.error err, before ++ (e.meaning host roots start).calls,
          (e.meaning host roots start).store⟩ := by
      rw [run_of_reaches hr, Action.bind_error hm]
      rfl
    have hf : ((run host roots C (e.operand host roots)).action s).outcome = .error err := by
      rw [ho]
    rw [evaluate_fill, finish, Action.bind_error hf, ho, internal_apply]

-- `NOT ((NOT 1) IS NULL)`, where the truth of 1 is asked for and fails.
theorem evaluate_fill_error_isNull :
    let C : Context := [.truth Standard.boolean true, .isNull Standard.boolean false]
    let e := Expression.truth Standard.boolean (.literal Standard.integer (.integer 1)) true
    (∃ before start, Reaches .none .empty C e.type ⟨[], ⟨0⟩⟩ before start ∧
        (fill C e).evaluate .none .empty ⟨[], ⟨0⟩⟩ =
          ⟨.error (.notBoolean .integer), before ++ (e.internal .none .empty start).calls,
            (e.internal .none .empty start).store⟩) ∨
      (Skips .none .empty C e.type ⟨[], ⟨0⟩⟩ ∧ ∀ e' : Expression, e'.type = e.type →
        (fill C e').evaluate .none .empty ⟨[], ⟨0⟩⟩ = (fill C e).evaluate .none .empty ⟨[], ⟨0⟩⟩) :=
  evaluate_fill_error (fun _ => rfl) _

end Trivalent.Context
