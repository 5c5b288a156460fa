import Trivalent.Proofs.Arguments
import Trivalent.Proofs.Context
import Trivalent.Proofs.Evaluation.Pending
import Trivalent.Standard

/-!
# What functions receive

A function receives the internal value of an argument, unless the argument leaves an adapter pending. Then it
receives what this adapter turns the internal value into, as if it were in its model form.
-/

namespace Trivalent

namespace Coded

-- Codes and what they are computed with, which is another text each time they are converted.
def wrapped : Adapter :=
  ⟨"wrapped"⟩

def code : Attribute :=
  ⟨"Person", "code", Standard.string, some .field, some wrapped⟩

def text : Parameter :=
  ⟨"text", 0, Standard.string, none⟩

def more : Parameter :=
  ⟨"more", 1, Standard.string, none⟩

-- Both functions give back their first argument. The one that is given a code leaves the adapter pending.
def echo : Function :=
  ⟨"ECHO", [text, more], some 1, some Standard.string, some (.host "first" []), none⟩

def given : Function :=
  ⟨"GIVEN", [text], none, some Standard.string, some (.host "first" []), some wrapped⟩

def host : Host :=
  { Host.none with
    toInternal := fun
      | _, _, _, .string s, ps => (.ok (.string ("i[" ++ s ++ "]")), ps)
      | _, _, _, v, ps         => (.ok v, ps)
    invoke := fun _ _ _ values => .done (.ok ((values.get? 0).getD .null)) }

def roots : Roots where
  types   := [("p", ⟨"Person", .entity [code], none, none⟩)]
  objects := [("p", .object [("code", .string "x")])]

def path : Expression :=
  .path ⟨Standard.string, "p", [code]⟩

def nested : Expression :=
  .call Standard.string given [(text, .literal Standard.string (.string "x"))]

end Coded

namespace Expression

open Evaluation

variable {host : Host} {roots : Roots} {s : Store} {e : Expression} {p : Parameter} {f : Function}
  {before after : List (Parameter × Expression)}

theorem argument_of_leaves (hp : p.adapter = none) (h : Leaves host roots s a e) :
    argument host roots p (e.operand host roots) s =
      (e.internal host roots >>= toInternal host roots a p.type) s := by
  rw [argument_eq, hp]
  exact (meaning_bind_of_leaves h _).trans (by simp)

theorem argument_of_not_leaves (hp : p.adapter = none) (h : ∀ a, ¬Leaves host roots s a e) :
    argument host roots p (e.operand host roots) s = e.internal host roots s := by
  rw [argument_eq, hp]
  exact (meaning_bind_of_not_leaves h _).trans (by simp)

-- An argument has no value unless its expression has one.
theorem internal_of_argument (h : (argument host roots p (e.operand host roots) s).outcome = .ok w) :
    ∃ v, (e.internal host roots s).outcome = .ok v := by
  rw [internal, Operand.value, Action.map_apply]
  cases ho : ((e.operand host roots).action s).outcome
  case error => simp [argument_eq, Action.bind_error ho] at h
  case ok o  => exact ⟨o.value, rfl⟩

-- The values that a call with these arguments gives to its function.
def received (host : Host) (roots : Roots) (as : List (Parameter × Expression)) : Action Arguments :=
  arguments host roots .empty (argumentOperands host roots as)

theorem call_invokes (hi : f.invoker = some invoker)
    (h : (received host roots as s).outcome = .ok values) :
    ∃ calls, ((call t f as).meaning host roots s).calls =
      (received host roots as s).calls ++ .invoke f values :: calls := by
  rw [meaning, Evaluation.call, hi]
  exact ⟨_, congrArg Ending.calls (Action.bind_ok h _)⟩

-- What is received of an argument that is evaluated after those `before`.
theorem received_get? (ha : ∀ a ∈ after, a.1.position ≠ p.position)
    (h : (received host roots (before ++ (p, e) :: after) s).outcome = .ok values) :
    ∃ w, (argument host roots p (e.operand host roots) (received host roots before s).store).outcome =
        .ok w ∧ values.get? p.position = some w := by
  have ha : ∀ a ∈ argumentOperands host roots after, a.1.position ≠ p.position := by
    rw [argumentOperands_eq_map, List.forall_mem_map]
    exact ha
  have h : (arguments host roots .empty (argumentOperands host roots before ++
      (p, e.operand host roots) :: argumentOperands host roots after) s).outcome = .ok values := by
    simpa [received, argumentOperands_eq_map] using h
  exact arguments_get? ha h

-- A function receives the internal value of an argument for a parameter without an adapter if the argument
-- leaves no adapter pending. Otherwise it receives what the adapter makes of the internal value with the type
-- of the parameter, even though the internal value needs no conversion any more.
theorem call_receives (hi : f.invoker = some invoker) (hp : p.adapter = none)
    (ha : ∀ a ∈ after, a.1.position ≠ p.position)
    (h : (received host roots (before ++ (p, e) :: after) s).outcome = .ok values) :
    (∃ calls, ((call t f (before ++ (p, e) :: after)).meaning host roots s).calls =
      (received host roots (before ++ (p, e) :: after) s).calls ++ .invoke f values :: calls) ∧
    ∃ start v w, start = (received host roots before s).store ∧
      (e.internal host roots start).outcome = .ok v ∧ values.get? p.position = some w ∧
      ((∀ a, ¬Leaves host roots start a e) → w = v) ∧
      ∀ a, Leaves host roots start a e →
        (toInternal host roots a p.type v (e.internal host roots start).store).outcome = .ok w := by
  refine ⟨call_invokes hi h, ?_⟩
  have ⟨w, hw, hg⟩ := received_get? ha h
  have ⟨v, hv⟩ := internal_of_argument hw
  refine ⟨_, v, w, rfl, hv, hg, fun hn => ?same, fun a hl => ?converted⟩
  case same =>
    rw [argument_of_not_leaves hp hn, hv] at hw
    cases hw
    rfl
  case converted =>
    rw [argument_of_leaves hp hl, Action.bind_ok hv] at hw
    exact hw

-- The code is followed by an argument that leaves an adapter pending, too.
theorem call_receives_code :
    ∃ values, (received Coded.host Coded.roots
        [(Coded.text, Coded.path), (Coded.more, Coded.nested)] ⟨[], ⟨0⟩⟩).outcome = .ok values ∧
      (∀ a ∈ [(Coded.more, Coded.nested)], a.1.position ≠ Coded.text.position) ∧
      Leaves Coded.host Coded.roots ⟨[], ⟨0⟩⟩ Coded.wrapped Coded.path ∧
      (Coded.path.internal Coded.host Coded.roots ⟨[], ⟨0⟩⟩).outcome = .ok (.string "i[x]") ∧
      values.get? 0 = some (.string "i[i[x]]") ∧
      (toInternal Coded.host Coded.roots Coded.wrapped Standard.string (.string "i[x]")
        (Coded.path.internal Coded.host Coded.roots ⟨[], ⟨0⟩⟩).store).outcome =
          .ok (.string "i[i[x]]") := by
  have ha : ∀ a ∈ [(Coded.more, Coded.nested)], a.1.position ≠ Coded.text.position := by
    simp [Coded.more, Coded.text]
  have hl : Leaves Coded.host Coded.roots ⟨[], ⟨0⟩⟩ Coded.wrapped Coded.path :=
    .path (rfl : _ = [] ++ [Coded.code]) rfl nofun rfl
  have hi : (Coded.path.internal Coded.host Coded.roots ⟨[], ⟨0⟩⟩).outcome = .ok (.string "i[x]") := rfl
  have ⟨values, h⟩ : ∃ values, (received Coded.host Coded.roots
      ([] ++ (Coded.text, Coded.path) :: [(Coded.more, Coded.nested)]) ⟨[], ⟨0⟩⟩).outcome = .ok values :=
    ⟨_, rfl⟩
  have ⟨_, _, v, w, hs, hv, hg, _, hc⟩ :=
    call_receives (t := Standard.string) (f := Coded.echo) rfl rfl ha h
  subst hs
  cases hi.symm.trans hv
  have hc := hc _ hl
  cases hc
  exact ⟨values, h, ha, hl, hi, hg, rfl⟩

-- Neither the value of a path nor what another function gave is received as a comparison would take it.
theorem received_ne_internal :
    ((Coded.path.internal Coded.host Coded.roots ⟨[], ⟨0⟩⟩).outcome = .ok (.string "i[x]") ∧
      ((call Standard.string Coded.echo [(Coded.text, Coded.path)]).internal Coded.host Coded.roots
        ⟨[], ⟨0⟩⟩).calls.getLast? = some (.invoke Coded.echo ⟨[(Coded.text, .string "i[i[x]]")]⟩) ∧
      Value.string "i[i[x]]" ≠ .string "i[x]") ∧
    (Coded.nested.internal Coded.host Coded.roots ⟨[], ⟨0⟩⟩).outcome = .ok (.string "x") ∧
      ((call Standard.string Coded.echo [(Coded.text, Coded.nested)]).internal Coded.host Coded.roots
        ⟨[], ⟨0⟩⟩).calls.getLast? = some (.invoke Coded.echo ⟨[(Coded.text, .string "i[x]")]⟩) ∧
      Value.string "i[x]" ≠ .string "x" :=
  ⟨⟨rfl, rfl, by simp⟩, rfl, rfl, by simp⟩

end Expression

end Trivalent
