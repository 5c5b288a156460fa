import Trivalent.Proofs.Evaluation.Received

/-!
# Bound arguments

The invoker of a function is given the values of the arguments that are bound, in the order of their
parameters. A parameter without an argument has no value, which differs from the value null.
-/

namespace Trivalent

namespace Coded

-- A function that takes the first of its arguments in model form. All but the first may be left off.
def first : Parameter :=
  ⟨"first", 0, Standard.string, some wrapped⟩

def second : Parameter :=
  ⟨"second", 1, Standard.string, none⟩

def third : Parameter :=
  ⟨"third", 2, Standard.string, none⟩

def choose : Function :=
  ⟨"CHOOSE", [first, second, third], some 1, some Standard.string, some (.host "first" []), none⟩

def converting : Host :=
  { host with
    toModel := fun
      | _, _, _, .string s, ps => (.ok (.string ("m[" ++ s ++ "]")), ps)
      | _, _, _, v, ps         => (.ok v, ps) }

-- The second argument is not bound, and the third one is bound to null.
def bound : List (Parameter × Expression) :=
  [(first, path), (third, .literal Standard.string .null)]

end Coded

namespace Evaluation

variable (host : Host) (roots : Roots)

-- What an argument makes of the value of its expression. A pending adapter takes it to its internal form, and
-- the adapter of the parameter to its model form.
def convert (p : Parameter) (pending : Option Adapter) (v : Value) : Action Value := do
  let w ←
    match pending with
    | some a => toInternal host roots a p.type v
    | none   => pure v
  match p.adapter with
  | some a => toModel host roots a p.type w
  | none   => pure w

theorem argument_eq_convert (p : Parameter) (o : Operand) :
    argument host roots p o = o.action >>= fun e => convert host roots p e.pending e.value := by
  refine bind_congr fun e => ?_
  cases e.pending <;> rfl

end Evaluation

namespace Expression

open Evaluation

-- What an invoker is given if the arguments are evaluated from the store `s` on. Each argument starts with the
-- store that those before it leave behind.
structure Given (host : Host) (roots : Roots) (s : Store) (as : List (Parameter × Expression))
    (values : Arguments) : Prop where
  parameters : values.parameters = as.map (·.1)
  absent     : ∀ i, values.get? i = none ↔ ∀ a ∈ as, a.1.position ≠ i
  present    : ∀ before p e after, as = before ++ (p, e) :: after →
    ∃ start pending v w, start = (received host roots before s).store ∧
      (∀ a, pending = some a ↔ Leaves host roots start a e) ∧
      (e.internal host roots start).outcome = .ok v ∧
      (convert host roots p pending v (e.internal host roots start).store).outcome = .ok w ∧
      values.get? p.position = some w
  named      : ∀ ps : List Parameter, (∀ a ∈ as, a.1 ∈ ps) →
    (ps.map (·.name)).Nodup → (ps.map (·.position)).Nodup →
    ∀ p ∈ ps, values.getByName? p.name = values.get? p.position

variable {host : Host} {roots : Roots} {s : Store} {e : Expression} {p : Parameter}
  {as : List (Parameter × Expression)}

-- An argument that has a value converts the internal value of its expression.
theorem argument_converts (h : (argument host roots p (e.operand host roots) s).outcome = .ok w) :
    ∃ pending v, (∀ a, pending = some a ↔ Leaves host roots s a e) ∧
      (e.internal host roots s).outcome = .ok v ∧
      (convert host roots p pending v (e.internal host roots s).store).outcome = .ok w := by
  have hi : e.internal host roots s = ⟨((e.operand host roots).action s).outcome.map (·.value),
      ((e.operand host roots).action s).calls, ((e.operand host roots).action s).store⟩ :=
    Action.map_apply _ _ _
  rw [argument_eq_convert] at h
  cases ho : ((e.operand host roots).action s).outcome
  case error => simp [Action.bind_error ho] at h
  case ok o =>
    rw [Action.bind_ok ho] at h
    rw [ho] at hi
    rw [hi]
    exact ⟨o.pending, o.value, fun a => meaning_pending_iff ho, rfl, h⟩

-- Parameters at different positions keep the values that they are given.
theorem received_parameters (ho : as.Pairwise (·.1.position < ·.1.position))
    (h : (received host roots as s).outcome = .ok values) : values.parameters = as.map (·.1) := by
  have ⟨vs, hl, hv⟩ := (arguments_insertAll .empty).of_ok h
  simp only [argumentOperands_eq_map, List.length_map, List.map_map, Function.comp_def] at hl hv
  have hz : ((as.map (·.1)).zip vs).map (·.1) = as.map (·.1) := List.map_fst_zip (by simp [hl])
  have hn : (((as.map (·.1)).zip vs).map (·.1.position)).Nodup := by
    have hp := List.map_map (f := Prod.fst) (g := Parameter.position) (l := (as.map (·.1)).zip vs)
    rw [Function.comp_def] at hp
    rw [← hp, hz, List.map_map]
    exact List.pairwise_map.mpr (ho.imp Nat.ne_of_lt)
  rw [Arguments.parameters, hv, Arguments.entries_insertAll hn]
  exact hz

theorem given_of_received (ho : as.Pairwise (·.1.position < ·.1.position))
    (h : (received host roots as s).outcome = .ok values) : Given host roots s as values where
  parameters := received_parameters ho h
  absent i := by
    rw [Arguments.get?_eq_none_iff, received_parameters ho h, List.forall_mem_map]
  present before p e after has := by
    subst has
    have ha : ∀ a ∈ after, a.1.position ≠ p.position := by
      have ho := (List.pairwise_append.mp ho).2.1
      exact fun a ha => Nat.ne_of_gt ((List.pairwise_cons.mp ho).1 a ha)
    have ⟨w, hw, hg⟩ := received_get? ha h
    have ⟨pending, v, hp, hv, hc⟩ := argument_converts hw
    exact ⟨_, pending, v, w, rfl, hp, hv, hc, hg⟩
  named ps hps hn hi p hp := by
    refine Arguments.getByName?_eq_get? ?_ hn hi hp
    rwa [received_parameters ho h, List.forall_mem_map]

-- The invoker of a function is given exactly the arguments that are bound: in the order of their parameters, each
-- as what the adapters make of the internal value of its expression, be it null, and nothing at any other
-- position. In general, arguments hold the last value that was given for each position, in the order in which the
-- positions were first given one.
theorem call_given :
    (∀ host roots t f as invoker, Function.invoker f = some invoker →
      as.Pairwise (·.1.position < ·.1.position) →
      (call t f as).meaning host roots = (do
        let values ← received host roots as
        Action.note (.invoke f values)
        let v ← Invoking.run host roots f invoker (bodies host roots f) values
        return ⟨v, f.adapter⟩) ∧
      ∀ s values, (received host roots as s).outcome = .ok values → Given host roots s as values) ∧
    ∀ xs, Arguments.Holds xs (.insertAll .empty xs) := by
  refine ⟨fun host roots t f as invoker hi ho => ⟨?meaning, fun s values h => ?given⟩, fun xs => ?holds⟩
  case meaning =>
    rw [meaning, Evaluation.call, hi]
    rfl
  case given => exact given_of_received ho h
  case holds => exact Arguments.Holds.empty.insertAll xs

-- The code is converted twice for its parameter, and the null of the third one stays null. The value of the second
-- one is absent.
theorem call_given_choose :
    let s : Store := ⟨[], ⟨0⟩⟩
    let values : Arguments := ⟨[(Coded.first, .string "m[i[i[x]]]"), (Coded.third, .null)]⟩
    (Coded.choose.invoker = some (.host "first" []) ∧
      Coded.bound.Pairwise (·.1.position < ·.1.position) ∧
      (received Coded.converting Coded.roots Coded.bound s).outcome = .ok values) ∧
    (values.get? 1 = none ∧ values.get? 2 = some .null ∧ values.getByName? "third" = values.get? 2) ∧
    (∃ pending v w, (∀ a, pending = some a ↔ Leaves Coded.converting Coded.roots s a Coded.path) ∧
      (Coded.path.internal Coded.converting Coded.roots s).outcome = .ok v ∧ v = .string "i[x]" ∧
      values.get? 0 = some w ∧ w = .string "m[i[i[x]]]") ∧
    Arguments.Holds [(Coded.third, .null), (Coded.first, .null), (Coded.third, .boolean true)]
      ⟨[(Coded.third, .boolean true), (Coded.first, .null)]⟩ := by
  intro s values
  have ho : Coded.bound.Pairwise (·.1.position < ·.1.position) := by
    simp [Coded.bound, Coded.first, Coded.third]
  have h : (received Coded.converting Coded.roots Coded.bound s).outcome = .ok values := rfl
  have ⟨hcall, hholds⟩ := call_given
  have hgiven := (hcall _ _ Standard.string Coded.choose _ _ rfl ho).2 s values h
  have ⟨_, pending, v, w, hs, hp, hv, _, hg⟩ := hgiven.present [] Coded.first Coded.path _ rfl
  subst hs
  have hn : values.get? 1 = none := (hgiven.absent 1).mpr (by simp [Coded.bound, Coded.first, Coded.third])
  have hnamed := hgiven.named [Coded.first, Coded.second, Coded.third] (by simp [Coded.bound])
    (by simp [Coded.first, Coded.second, Coded.third]) (by simp [Coded.first, Coded.second, Coded.third])
    Coded.third (by simp)
  refine ⟨⟨rfl, ho, h⟩, ⟨hn, rfl, hnamed⟩, ⟨pending, v, w, hp, hv, ?_, hg, ?_⟩, hholds _⟩
  · cases hv
    rfl
  · cases hg
    rfl

end Expression

end Trivalent
