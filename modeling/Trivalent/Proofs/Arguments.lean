import Mathlib.Data.List.Find
import Mathlib.Data.List.Nodup
import Trivalent.Evaluation
import Trivalent.Proofs.Action.Course
import Trivalent.Proofs.Outcome

/-!
# Arguments

Arguments are evaluated one after the other and put at the positions of their parameters. What stands at a
position is what the last argument for this position was evaluated to, in the place of the first one.
-/

namespace Trivalent

namespace Arguments

theorem get?_insert (a : Arguments) (p : Parameter) (v : Value) (position : Nat) :
    (a.insert p v).get? position = if p.position = position then some v else a.get? position := by
  have ⟨entries⟩ := a
  simp only [insert, get?]
  induction entries
  case nil => simp only [insertEntry, List.find?_cons, List.find?_nil]; split <;> simp_all
  case cons first rest hi =>
    have ⟨q, w⟩ := first
    simp only [insertEntry]
    split
    case isTrue hq =>
      simp only [List.find?_cons, hq]
      split <;> simp_all
    case isFalse hq =>
      by_cases hp : q.position = position
      case pos =>
        have hn : p.position ≠ position := fun h => hq (hp.trans h.symm)
        simp [hp, hn]
      case neg => simpa [hp] using hi

-- The parameters that have a value, in the order in which they were first given one.
def parameters (a : Arguments) : List Parameter :=
  a.entries.map (·.1)

theorem get?_eq_none_iff {a : Arguments} : a.get? i = none ↔ ∀ p ∈ a.parameters, p.position ≠ i := by
  simp [get?, parameters]

-- Among parameters with names and positions of their own, a name finds what the position finds.
theorem getByName?_eq_get? {a : Arguments} {ps : List Parameter} (h : ∀ p ∈ a.parameters, p ∈ ps)
    (hn : (ps.map (·.name)).Nodup) (hi : (ps.map (·.position)).Nodup) (hp : p ∈ ps) :
    a.getByName? p.name = a.get? p.position := by
  have hq : ∀ x ∈ a.entries, decide (x.1.name = p.name) = decide (x.1.position = p.position) := by
    intro x hx
    have hx := h x.1 (List.mem_map_of_mem hx)
    have hname : x.1.name = p.name → x.1 = p := fun he => List.inj_on_of_nodup_map hn hx hp he
    have hposition : x.1.position = p.position → x.1 = p := fun he => List.inj_on_of_nodup_map hi hx hp he
    rw [decide_eq_decide]
    exact ⟨fun he => hname he ▸ rfl, fun he => hposition he ▸ rfl⟩
  rw [getByName?, List.find?_congr hq]
  rfl

theorem parameters_insert_of_mem {a : Arguments} (v : Value)
    (h : p.position ∈ a.parameters.map (·.position)) : (a.insert p v).parameters = a.parameters := by
  have ⟨entries⟩ := a
  simp only [insert, parameters] at *
  induction entries
  case nil => contradiction
  case cons first rest hi =>
    have ⟨q, w⟩ := first
    rw [insertEntry]
    split
    case isTrue => rfl
    case isFalse hq =>
      have h := (List.mem_cons.mp h).resolve_left (Ne.symm hq)
      exact congrArg (q :: ·) (hi h)

theorem entries_insert_of_not_mem {a : Arguments} (v : Value)
    (h : p.position ∉ a.parameters.map (·.position)) : (a.insert p v).entries = a.entries ++ [(p, v)] := by
  have ⟨entries⟩ := a
  simp only [insert, parameters] at *
  induction entries
  case nil => rfl
  case cons first rest hi =>
    simp only [List.map_cons, List.mem_cons, not_or] at h
    rw [insertEntry, if_neg (Ne.symm h.1), hi h.2, List.cons_append]

/-! ## Several values -/

def insertAll (a : Arguments) (xs : List (Parameter × Value)) : Arguments :=
  xs.foldl (fun a x => a.insert x.1 x.2) a

-- What there is after the values `xs` were given: at each position the last value that was given for it, in the
-- order in which the positions were first given a value, and under the parameters of then.
structure Holds (xs : List (Parameter × Value)) (a : Arguments) : Prop where
  last  : ∀ position, a.get? position = (xs.reverse.find? (·.1.position = position)).map (·.2)
  order : a.parameters.map (·.position) = (xs.map (·.1.position)).eraseDups
  once  : (a.parameters.map (·.position)).Nodup
  first : ∀ p ∈ a.parameters, (xs.find? (·.1.position = p.position)).map (·.1) = some p

namespace Holds

variable {a : Arguments} {xs : List (Parameter × Value)}

theorem empty : Holds [] .empty where
  last _  := rfl
  order   := rfl
  once    := List.nodup_nil
  first _ := nofun

theorem mem_iff (h : Holds xs a) : i ∈ a.parameters.map (·.position) ↔ i ∈ xs.map (·.1.position) := by
  rw [h.order, List.mem_eraseDups]

-- The parameter that came first for a position stays there.
theorem first_append (h : Holds xs a) (ys : List (Parameter × Value)) (hp : p ∈ a.parameters) :
    ((xs ++ ys).find? (·.1.position = p.position)).map (·.1) = some p := by
  have ⟨x, hx, he⟩ := Option.map_eq_some_iff.mp (h.first p hp)
  simp [List.find?_append, hx, he]

theorem last_insert (h : Holds xs a) (p : Parameter) (v : Value) (position : Nat) :
    (a.insert p v).get? position =
      ((xs ++ [(p, v)]).reverse.find? (·.1.position = position)).map (·.2) := by
  rw [get?_insert, List.reverse_concat, List.find?_cons]
  split <;> simp_all [h.last]

theorem insert_of_mem (h : Holds xs a) (v : Value) (hp : p.position ∈ a.parameters.map (·.position)) :
    Holds (xs ++ [(p, v)]) (a.insert p v) where
  last := h.last_insert p v
  order := by
    have hx := h.mem_iff.mp hp
    rw [parameters_insert_of_mem v hp, h.order, List.map_append, List.eraseDups_append]
    simp [List.removeAll, hx]
  once := by
    rw [parameters_insert_of_mem v hp]
    exact h.once
  first q hq := by
    rw [parameters_insert_of_mem v hp] at hq
    exact h.first_append _ hq

theorem insert_of_not_mem (h : Holds xs a) (v : Value) (hp : p.position ∉ a.parameters.map (·.position)) :
    Holds (xs ++ [(p, v)]) (a.insert p v) := by
  have hps : (a.insert p v).parameters = a.parameters ++ [p] := by
    simp [parameters, entries_insert_of_not_mem v hp]
  have hx := mt h.mem_iff.mpr hp
  refine ⟨h.last_insert p v, ?order, ?once, fun q hq => ?first⟩
  case order =>
    rw [hps, List.map_append, h.order, List.map_append, List.eraseDups_append]
    simp [List.removeAll, hx, List.eraseDups_cons]
  case once =>
    rw [hps, List.map_append, List.nodup_append]
    exact ⟨h.once, by simp, by simpa using hp⟩
  case first =>
    rw [hps] at hq
    cases List.mem_append.mp hq
    case inl hq => exact h.first_append _ hq
    case inr hq =>
      cases List.mem_singleton.mp hq
      have hn : xs.find? (·.1.position = p.position) = none := by
        simpa using hx
      simp [List.find?_append, hn]

-- One more value is put at its position. It takes the place of the one that is there or comes last.
theorem insert (h : Holds xs a) (p : Parameter) (v : Value) : Holds (xs ++ [(p, v)]) (a.insert p v) := by
  by_cases hp : p.position ∈ a.parameters.map (·.position)
  case pos => exact h.insert_of_mem v hp
  case neg => exact h.insert_of_not_mem v hp

theorem insertAll (h : Holds xs a) (ys : List (Parameter × Value)) : Holds (xs ++ ys) (a.insertAll ys) := by
  induction ys generalizing xs a
  case nil => rwa [List.append_nil]
  case cons y ys hi =>
    rw [List.append_cons]
    exact hi (h.insert y.1 y.2)

end Holds

-- Values for different positions are kept as they are given.
theorem entries_insertAll {a : Arguments} (h : ((a.entries ++ xs).map (·.1.position)).Nodup) :
    (a.insertAll xs).entries = a.entries ++ xs := by
  induction xs generalizing a
  case nil => exact (List.append_nil _).symm
  case cons x xs hi =>
    have hx : x.1.position ∉ a.parameters.map (·.position) := by
      simp only [List.map_append, List.map_cons, List.nodup_append, List.mem_cons, parameters,
        List.map_map] at *
      exact fun hx => h.2.2 _ hx _ (.inl rfl) rfl
    have he : (a.insert x.1 x.2).entries = a.entries ++ [x] := entries_insert_of_not_mem x.2 hx
    rw [List.append_cons, ← he] at h
    exact (hi h).trans (by rw [he, List.append_assoc]; rfl)

end Arguments

namespace Evaluation

variable {host : Host} {roots : Roots} {s : Store} {as : List (Parameter × Operand)}

theorem arguments_append (given : Arguments) (as bs : List (Parameter × Operand)) :
    arguments host roots given (as ++ bs) =
      arguments host roots given as >>= fun values => arguments host roots values bs := by
  induction as generalizing given
  case nil => exact (pure_bind _ _).symm
  case cons a as hi =>
    have ⟨p, o⟩ := a
    rw [List.cons_append, arguments, arguments, bind_assoc]
    exact bind_congr fun v => hi _

-- Each argument gives a value to its parameter, one after the other.
theorem arguments_insertAll (given : Arguments) :
    (arguments host roots given as).Ends
      (fun values => ∃ vs, vs.length = as.length ∧ values = given.insertAll ((as.map (·.1)).zip vs))
      fun _ => True := by
  induction as generalizing given
  case nil => exact .pure ⟨[], rfl, rfl⟩
  case cons a as hi =>
    have ⟨p, o⟩ := a
    refine (Action.Ends.any _).bind fun v _ => (hi _).mono (fun values hv => ?_) fun _ _ => trivial
    have ⟨vs, hl, hv⟩ := hv
    exact ⟨v :: vs, congrArg (· + 1) hl, hv⟩

-- No argument is for the position.
theorem arguments_get?_other (h : ∀ a ∈ as, a.1.position ≠ position) (given : Arguments) :
    (arguments host roots given as).Ends (·.get? position = given.get? position) fun _ => True := by
  induction as generalizing given
  case nil => exact .pure rfl
  case cons a as hi =>
    have ⟨p, o⟩ := a
    simp only [List.forall_mem_cons] at h
    refine (Action.Ends.any _).bind fun v _ => (hi h.2 _).mono (fun values hv => ?_) fun _ _ => trivial
    rw [hv, Arguments.get?_insert, if_neg h.1]

-- The argument is evaluated after those before it, and those after it are for other positions.
theorem arguments_get? {before after : List (Parameter × Operand)} {p : Parameter} {o : Operand}
    (ha : ∀ a ∈ after, a.1.position ≠ p.position)
    (h : (arguments host roots given (before ++ (p, o) :: after) s).outcome = .ok values) :
    ∃ w, (argument host roots p o (arguments host roots given before s).store).outcome = .ok w ∧
      values.get? p.position = some w := by
  rw [arguments_append] at h
  cases hb : (arguments host roots given before s).outcome
  case error => simp [Action.bind_error hb] at h
  case ok first =>
    rw [Action.bind_ok hb, Ending.outcome_after, arguments] at h
    cases hw : (argument host roots p o (arguments host roots given before s).store).outcome
    case error => simp [Action.bind_error hw] at h
    case ok w =>
      rw [Action.bind_ok hw, Ending.outcome_after] at h
      refine ⟨w, rfl, ?_⟩
      rw [(arguments_get?_other ha _).of_ok h, Arguments.get?_insert, if_pos rfl]

end Evaluation

end Trivalent
