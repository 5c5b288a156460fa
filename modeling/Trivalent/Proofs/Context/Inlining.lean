import Trivalent.Proofs.Context.Propagation
import Trivalent.Proofs.Evaluation.Pending

/-!
# Inlining

An invoker may have an expression evaluated while another evaluation is under way. A call that does nothing
else is worth what the expression itself is worth in its place, wherever this is.
-/

namespace Trivalent

namespace Action

-- Whatever the outcome is, it is given back.
theorem settle_ofExcept (x : Action α) : x.settle ofExcept = x := by
  ext s : 1
  simp only [settle]
  cases h : (x s).outcome <;> simp [ofExcept, pure, fail, ← h]

theorem note_bind_apply (call : Call) (x : Action α) (s : Store) :
    (note call >>= fun _ => x) s = (x s).after [call] :=
  rfl

end Action

-- Called without arguments, the function has the expression evaluated and gives back the outcome.
structure Function.Evaluates (host : Host) (roots : Roots) (f : Function) (e : Expression) : Prop where
  invoker : ∃ name bodies i, f.invoker = some (.host name bodies) ∧ bodies[i]? = some e ∧
            host.invoke name roots f .empty = .evaluate i .done
  adapter : f.adapter = none

-- Texts that are remembered under a key.
namespace Remembered

def text : Parameter :=
  ⟨"text", 0, Standard.string, none⟩

def remember : Function :=
  ⟨"REMEMBER", [text], none, some Standard.string, some (.host "remember" []), none⟩

def note : Expression :=
  .call Standard.string remember [(text, .literal Standard.string (.string "x"))]

-- Has the note evaluated.
def again : Function :=
  ⟨"AGAIN", [], none, some Standard.string, some (.host "again" [note]), none⟩

def host : Host :=
  { Host.none with
    invoke := fun name _ _ values =>
      if name = "remember" then .write "memory" (values.get? 0) (.done (.ok ((values.get? 0).getD .null)))
      else .evaluate 0 .done }

-- Whether the length of a text is greater than zero.
def context : Context :=
  [.comparisonLeft Standard.boolean .greater (.literal Standard.integer (.integer 0)) false,
   .argument Standard.integer Standard.length [] text []]

theorem again_evaluates : again.Evaluates host .empty note where
  invoker := ⟨"again", [note], 0, rfl, rfl, rfl⟩
  adapter := rfl

end Remembered

namespace Expression

open Evaluation

variable {host : Host} {roots : Roots} {f : Function} {e : Expression}

theorem bodies_host (h : f.invoker = some (.host name es)) :
    bodies host roots f = es.map (evaluate host roots) := by
  obtain ⟨_, _, _, _, invoker, _⟩ := f
  cases h
  rw [bodies, invokerBodies, evaluations_eq_map]

-- The value of an expression that leaves no adapter pending leaves the evaluation as it is.
theorem plain_evaluate (hp : (e.meaning host roots).Ends (·.pending = none) fun _ => True) :
    Evaluated.plain <$> e.evaluate host roots = e.meaning host roots := by
  have hn (s) : ∀ v, (e.meaning host roots s).outcome = .ok v → v.pending = none :=
    fun _ hv => hp.of_ok hv
  have he : e.evaluate host roots = e.internal host roots := by
    ext s : 1
    exact (action_bind_apply (o := e.operand host roots) (hn s) _).trans (by simp [internal])
  ext s : 1
  calc (Evaluated.plain <$> e.evaluate host roots) s
    _ = (e.internal host roots >>= fun v => pure (.plain v)) s  := by rw [he, map_eq_pure_bind]
    _ = (e.meaning host roots >>= pure) s                       :=
      (action_bind_apply (o := e.operand host roots) (hn s) pure).symm
    _ = e.meaning host roots s                                  := by rw [bind_pure]

theorem call_of_evaluates (hf : f.Evaluates host roots e)
    (hp : (e.meaning host roots).Ends (·.pending = none) fun _ => True) (t : DataType) :
    (call t f []).meaning host roots = Action.note (.invoke f .empty) >>= fun _ => e.meaning host roots := by
  have ⟨name, es, i, hi, he, hs⟩ := hf.invoker
  have hb : (es.map (evaluate host roots))[i]? = some (e.evaluate host roots) := by simp [he]
  have hr : (Script.evaluate i .done).run (es.map (evaluate host roots)) = e.evaluate host roots := by
    rw [Script.run, hb]
    exact Action.settle_ofExcept _
  rw [meaning, Evaluation.call, hi]
  simp only [argumentOperands, arguments, pure_bind, Invoking.run, hs, bodies_host hi, hr, hf.adapter,
    ← plain_evaluate hp, map_eq_pure_bind]
  rfl

end Expression

namespace Context

open Evaluation

variable {host : Host} {roots : Roots} {C : Context} {f : Function} {e : Expression} {s : Store}

-- What follows the hole depends on what fills it through the ending of that alone.
theorem Reaches.evaluate_eq (h : Reaches host roots C t s before start) :
    ∃ rest, ∀ e : Expression, e.type = t →
      (fill C e).evaluate host roots s = ((e.meaning host roots >>= rest) start).after before := by
  have ⟨rest, h⟩ := h
  refine ⟨fun v => finish host roots ⟨Context.type C t, rest v⟩, ?_⟩
  rintro e rfl
  rw [evaluate_fill]
  refine (Action.bind_eq_after (run_of_reaches h) _).trans ?_
  rw [bind_assoc]
  rfl

-- An expression and a call that has it evaluated have the same outcome in any place and leave the same store
-- behind. The calls of capabilities are the same as well, but for that of the function itself.
theorem evaluate_fill_call (hf : f.Evaluates host roots e)
    (hp : (e.meaning host roots).Ends (·.pending = none) fun _ => True) (C : Context) (s : Store) :
    let called := (fill C (.call e.type f [])).evaluate host roots s
    let inlined := (fill C e).evaluate host roots s
    called.outcome = inlined.outcome ∧ called.store = inlined.store ∧
      (Skips host roots C e.type s ∧ called.calls = inlined.calls ∨
        ∃ before start after, Reaches host roots C e.type s before start ∧
          inlined.calls = before ++ after ∧ called.calls = before ++ .invoke f .empty :: after) := by
  intro called inlined
  cases Context.course host roots C e.type s
  case inl h =>
    have hs : Skips host roots C e.type s := h
    have he : called = inlined := hs.evaluate_eq rfl
    exact ⟨by rw [he], by rw [he], .inl ⟨hs, by rw [he]⟩⟩
  case inr h =>
    have ⟨before, start, rest, h, _⟩ := h
    have hr : Reaches host roots C e.type s before start := ⟨rest, h⟩
    have ⟨last, hl⟩ := hr.evaluate_eq
    have hi : inlined = ((e.meaning host roots >>= last) start).after before := hl e rfl
    have hc : called = (((e.meaning host roots >>= last) start).after [.invoke f .empty]).after before := by
      rw [← Action.note_bind_apply, ← bind_assoc, ← Expression.call_of_evaluates hf hp e.type]
      exact hl (.call e.type f []) rfl
    rw [hi, hc]
    exact ⟨rfl, rfl, .inr ⟨before, start, _, hr, rfl, rfl⟩⟩

-- The text is remembered whether the note is taken in its place or by the call of another function.
theorem evaluate_fill_call_remembered :
    let called := (fill Remembered.context (.call Standard.string Remembered.again [])).evaluate
      Remembered.host .empty ⟨[], ⟨0⟩⟩
    let inlined := (fill Remembered.context Remembered.note).evaluate Remembered.host .empty ⟨[], ⟨0⟩⟩
    Remembered.again.Evaluates Remembered.host .empty Remembered.note ∧
      (Remembered.note.meaning Remembered.host .empty).Ends (·.pending = none) (fun _ => True) ∧
      inlined.outcome = .ok (.boolean true) ∧ inlined.store.properties = [("memory", .string "x")] ∧
      called.outcome = inlined.outcome ∧ called.store = inlined.store ∧
      (Skips Remembered.host .empty Remembered.context Standard.string ⟨[], ⟨0⟩⟩ ∧
          called.calls = inlined.calls ∨
        ∃ before start after,
          Reaches Remembered.host .empty Remembered.context Standard.string ⟨[], ⟨0⟩⟩ before start ∧
          inlined.calls = before ++ after ∧
          called.calls = before ++ .invoke Remembered.again .empty :: after) := by
  intro called inlined
  have hp : (Remembered.note.meaning Remembered.host .empty).Ends (·.pending = none) fun _ => True := by
    rw [Remembered.note, Expression.meaning]
    exact call_pending _ _ _
  exact ⟨Remembered.again_evaluates, hp, by with_unfolding_all rfl, by with_unfolding_all rfl,
    evaluate_fill_call Remembered.again_evaluates hp Remembered.context ⟨[], ⟨0⟩⟩⟩

end Context

end Trivalent
