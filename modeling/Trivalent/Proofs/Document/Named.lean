import Trivalent.Document.Resolution
import Trivalent.Proofs.Arguments
import Trivalent.Proofs.Context
import Trivalent.Proofs.Expression.Binding
import Trivalent.Standard

/-!
# Named arguments

Arguments that are given by name are bound and evaluated in the order of their parameters. The order in which
they are given does not matter.
-/

namespace Trivalent

namespace Expression

open Evaluation

-- Evaluates the argument and puts its value at the position of its parameter.
def give (host : Host) (roots : Roots) (values : Arguments) (a : Parameter × Expression) :
    Action Arguments := do
  return values.insert a.1 (← argument host roots a.1 (a.2.operand host roots))

theorem arguments_eq_foldlM (host : Host) (roots : Roots) (given : Arguments)
    (as : List (Parameter × Expression)) :
    arguments host roots given (argumentOperands host roots as) = as.foldlM (give host roots) given := by
  induction as generalizing given
  case nil => rfl
  case cons a as hi =>
    rw [List.foldlM_cons, argumentOperands, arguments, give, bind_assoc]
    exact bind_congr fun v => by rw [pure_bind, hi]

-- The arguments of a call are evaluated one after the other, then its function is invoked with all of them.
theorem call_meaning (host : Host) (roots : Roots) (t : DataType) (as : List (Parameter × Expression))
    (hi : f.invoker = some i) :
    (call t f as).meaning host roots = do
      let values ← as.foldlM (give host roots) .empty
      Action.note (.invoke f values)
      let v ← Invoking.run host roots f i (bodies host roots f) values
      return ⟨v, f.adapter⟩ := by
  rw [meaning, Evaluation.call, hi, arguments_eq_foldlM]

end Expression

namespace Reversed

-- A call of LOCATE with all of its names in the reverse of their order.
def document : Document :=
  .call "locate" <| .named
    [("start", .literal (.number (.integer 1)) none), ("string", .literal (.string "abc") none),
     ("substring", .literal (.string "b") none)]

def expressions : List Expression :=
  [.literal Standard.string (.string "b"), .literal Standard.string (.string "abc"),
   .literal Standard.integer (.integer 1)]

def named : List (String × Expression) :=
  (["substring", "string", "start"].zip expressions).reverse

def call : Expression :=
  .call Standard.integer Standard.locate (Standard.locate.parameters.zip expressions)

end Reversed

namespace Function

variable {f : Function} {e : Expression} {xs ys : List (String × Expression)}

theorem callNamed_perm (h : xs.Perm ys) : (f.callNamed xs = .ok e) ↔ f.callNamed ys = .ok e := by
  simp only [callNamed_eq_ok, h.congr_right]

theorem callNamed_of_resolve {name : String} (hf : registry.function? name = some f)
    (h : (Document.call name (.named ds)).resolve registry roots = .ok e) :
    ∃ xs, Document.resolveNamed registry roots ds = .ok xs ∧ f.callNamed xs = .ok e := by
  rw [Document.resolve] at h
  have ⟨g, hg, h⟩ := bind_eq_ok.mp h
  rw [Registry.requireFunction, hf] at hg
  cases hg
  rw [Document.Arguments.resolve] at h
  have ⟨xs, hxs, h⟩ := bind_eq_ok.mp h
  exact ⟨xs, hxs, mapError_eq_ok.mp h⟩

theorem named_zip (ps : List Parameter) (es : List Expression) :
    named (ps.zip es) = (ps.map (·.name)).zip es := by
  rw [List.zip_map_left]
  rfl

-- The names are the first ones that the function declares.
theorem callNamed_eq_callPositional (hf : f.Numbered) (hn : (f.parameters.map (·.name)).Nodup)
    (hm : es.length ≤ f.mostArguments) (h : xs.Perm ((f.parameters.map (·.name)).zip es)) :
    f.callNamed xs = f.callPositional es := by
  have hl : f.Finds (f.parameters.zip es) := fun a ha => parameter?_of_mem hn (List.of_mem_zip ha).1
  have hlength : xs.length = es.length := by
    rw [h.length_eq, List.length_zip, List.length_map]
    exact Nat.min_eq_right hm
  rw [callNamed_of_ordered (zip_ordered hf es) hl (named_zip .. ▸ h.symm), hlength]
  rfl

-- Named arguments are bound alike in whatever order they are given: each of them to the parameter that its name
-- finds, in the order of the parameters. If the names are those of the first parameters, they are bound as they
-- would be by position. What a document gives by name is evaluated in the order of the parameters, too.
theorem callNamed_in_order (hf : f.Numbered) :
    (∀ xs ys, xs.Perm ys → ∀ e, (f.callNamed xs = .ok e) ↔ f.callNamed ys = .ok e) ∧
    (∀ xs e, (f.callNamed xs = .ok e) ↔
      ∃ t as, f.result = some t ∧ e = .call t f as ∧ f.Binds as ∧ f.Finds as ∧ (named as).Perm xs) ∧
    ((f.parameters.map (·.name)).Nodup → ∀ es, es.length ≤ f.mostArguments →
      ∀ xs, xs.Perm ((f.parameters.map (·.name)).zip es) → f.callNamed xs = f.callPositional es) ∧
    (∀ registry roots name ds e, registry.function? name = some f →
      (Document.call name (.named ds)).resolve registry roots = .ok e →
      ∃ xs t as, Document.resolveNamed registry roots ds = .ok xs ∧ e = .call t f as ∧
        f.Binds as ∧ f.Finds as ∧ (named as).Perm xs ∧
        ∀ host bound i, f.invoker = some i → e.meaning host bound = do
          let values ← as.foldlM (Expression.give host bound) .empty
          Action.note (.invoke f values)
          let v ← Invoking.run host bound f i (Expression.bodies host bound f) values
          return ⟨v, f.adapter⟩) := by
  refine ⟨fun xs ys h e => callNamed_perm h, fun xs e => callNamed_eq_ok,
    fun hn es hm xs h => ?positional, fun registry roots name ds e hname h => ?document⟩
  case positional =>
    exact callNamed_eq_callPositional hf hn hm h
  case document =>
    have ⟨xs, hxs, hcall⟩ := callNamed_of_resolve hname h
    have ⟨t, as, _, he, hb, hl, hp⟩ := callNamed_eq_ok.mp hcall
    subst he
    refine ⟨xs, t, as, hxs, rfl, hb, hl, hp, fun host bound i hi => ?_⟩
    exact Expression.call_meaning host bound t as hi

-- LOCATE is given its arguments in the reverse of the order in which it declares them.
theorem callNamed_in_order_locate :
    Standard.locate.Numbered ∧ (Standard.locate.parameters.map (·.name)).Nodup ∧
      Reversed.named.Perm ((Standard.locate.parameters.map (·.name)).zip Reversed.expressions) ∧
      Standard.locate.callNamed Reversed.named = .ok Reversed.call ∧
      Registry.standard.function? "locate" = some Standard.locate ∧
      Reversed.document.resolve Registry.standard Roots.empty = .ok Reversed.call ∧
      ∀ host bound, ∃ rest, Reversed.call.meaning host bound =
        (Standard.locate.parameters.zip Reversed.expressions).foldlM (Expression.give host bound) .empty >>=
          rest := by
  have hf : Standard.locate.Numbered := numbered_declare ..
  have hn : (Standard.locate.parameters.map (·.name)).Nodup := by decide
  have hp : Reversed.named.Perm ((Standard.locate.parameters.map (·.name)).zip Reversed.expressions) :=
    List.reverse_perm _
  have hr : Registry.standard.function? "locate" = some Standard.locate := rfl
  have ⟨_, _, hpositional, hdocument⟩ := callNamed_in_order hf
  have hc : Standard.locate.callNamed Reversed.named = .ok Reversed.call :=
    hpositional hn Reversed.expressions (by decide) Reversed.named hp
  have hd : Reversed.document.resolve Registry.standard Roots.empty = .ok Reversed.call :=
    congrArg (Except.mapError ResolutionError.declaration) hc
  have ⟨_, _, _, _, he, _, _, _, hm⟩ := hdocument _ _ _ _ _ hr hd
  cases he
  exact ⟨hf, hn, hp, hc, hr, hd, fun host bound => ⟨_, hm host bound .locate rfl⟩⟩

end Function

end Trivalent
