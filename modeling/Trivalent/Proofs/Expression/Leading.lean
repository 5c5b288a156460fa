import Trivalent.Evaluation
import Trivalent.Proofs.Expression.Binding
import Trivalent.Standard

/-!
# Leading parameters

Arguments that are given by position are bound to the first parameters of a function. Arguments that are given
by name are bound to the parameters of these names, of which only the number is checked, so they leave any of
the others off.
-/

namespace Trivalent

namespace Function

-- The parameters of the arguments are the first ones.
def Leads (f : Function) (as : List (Parameter × Expression)) : Prop :=
  as.map (·.1) <+: f.parameters

-- The parameters that may not be left off have arguments.
def Supplies (f : Function) (as : List (Parameter × Expression)) : Prop :=
  ∀ p ∈ f.parameters, p.position < f.leastArguments → p ∈ as.map (·.1)

namespace Search

def text : Expression :=
  .literal Standard.string (.string "abc")

def start : Expression :=
  .literal Standard.integer (.integer 1)

-- A text and a start without anything to look for.
def named : List (String × Expression) :=
  [("string", text), ("start", start)]

def bound : List (Parameter × Expression) :=
  [(⟨"string", 1, Standard.string, none⟩, text), (⟨"start", 2, Standard.integer, none⟩, start)]

end Search

variable {f : Function} {p : Parameter} {as : List (Parameter × Expression)}
  {xs : List (String × Expression)}

theorem exists_parameter (hf : f.Numbered) (h : i < f.mostArguments) :
    ∃ p ∈ f.parameters, p.position = i :=
  ⟨_, (getElem?_eq_some hf).mp (List.getElem?_eq_getElem h)⟩

theorem mem_take (hf : f.Numbered) : p ∈ f.parameters.take n ↔ p ∈ f.parameters ∧ p.position < n := by
  constructor
  case mp =>
    intro h
    have ⟨i, hi⟩ := List.mem_iff_getElem?.mp h
    rw [List.getElem?_take, Option.ite_none_right_eq_some, getElem?_eq_some hf] at hi
    exact ⟨hi.2.1, hi.2.2 ▸ hi.1⟩
  case mpr =>
    intro ⟨hp, hn⟩
    apply List.mem_of_getElem? (i := p.position)
    rw [List.getElem?_take_of_lt hn, getElem?_eq_some hf]
    exact ⟨hp, rfl⟩

theorem mem_drop (hf : f.Numbered) : p ∈ f.parameters.drop n ↔ p ∈ f.parameters ∧ n ≤ p.position := by
  constructor
  case mp =>
    intro h
    have ⟨i, hi⟩ := List.mem_iff_getElem?.mp h
    rw [List.getElem?_drop, getElem?_eq_some hf] at hi
    exact ⟨hi.1, hi.2 ▸ Nat.le_add_right ..⟩
  case mpr =>
    intro ⟨hp, hn⟩
    apply List.mem_of_getElem? (i := p.position - n)
    rw [List.getElem?_drop, Nat.add_sub_of_le hn, getElem?_eq_some hf]
    exact ⟨hp, rfl⟩

theorem leads_iff (hf : f.Numbered) (hb : f.Binds as) :
    f.Leads as ↔ ∀ a ∈ as, a.1.position < as.length := by
  rw [Leads, List.prefix_iff_eq_take, List.length_map]
  constructor
  case mp =>
    intro h a ha
    have hm : a.1 ∈ f.parameters.take as.length := h ▸ List.mem_map_of_mem ha
    exact ((mem_take hf).mp hm).2
  case mpr =>
    intro h
    have ho : (as.map (·.1)).Pairwise (·.position < ·.position) := List.pairwise_map.mpr hb.ordered
    have hd : (as.map (·.1)).Nodup := ho.imp fun hlt he => Nat.ne_of_lt hlt (congrArg _ he)
    have hs : ∀ p ∈ as.map (·.1), p ∈ f.parameters.take as.length := by
      rw [List.forall_mem_map]
      exact fun a ha => (mem_take hf).mpr ⟨hb.parameters a ha, h a ha⟩
    have hp : (as.map (·.1)).Perm (f.parameters.take as.length) := by
      apply (List.subperm_of_subset hd hs).perm_of_length_le
      rw [List.length_map]
      exact List.length_take_le ..
    have ht : (f.parameters.take as.length).Pairwise (·.position < ·.position) :=
      (parameters_ordered hf).sublist (List.take_sublist ..)
    exact eq_of_ordered Parameter.position ho ht hp

theorem leads_zip (f : Function) (es : List Expression) : f.Leads (f.parameters.zip es) := by
  rw [Leads, List.zip_eq_zip_take_min, List.map_fst_zip]
  · exact List.take_prefix ..
  · simp

theorem Leads.supplies (hf : f.Numbered) (hb : f.Binds as) (h : f.Leads as) : f.Supplies as := by
  intro p hp hl
  rw [Leads, List.prefix_iff_eq_take, List.length_map] at h
  rw [h]
  exact (mem_take hf).mpr ⟨hp, Nat.lt_of_lt_of_le hl hb.arity.1⟩

theorem position_lt (hf : f.Numbered) (hp : p ∈ f.parameters) : p.position < f.mostArguments :=
  (List.getElem?_eq_some_iff.mp ((getElem?_eq_some hf).mpr ⟨hp, rfl⟩)).1

theorem binds_of_callNamed (h : f.callNamed xs = .ok (.call t f as)) : f.Binds as := by
  have ⟨_, _, _, he, hb, _⟩ := callNamed_eq_ok.mp h
  cases he
  exact hb

-- The positions of the arguments are those of the parameters that the names stand for.
theorem positions_iff (hl : f.Finds as) (hp : (named as).Perm xs) :
    (∀ a ∈ as, a.1.position < n) ↔ ∀ x ∈ xs, ∀ p, f.parameter? x.1 = some p → p.position < n := by
  constructor
  case mp =>
    intro h x hx p hparameter
    have ⟨a, ha, he⟩ := List.mem_map.mp (hp.mem_iff.mpr hx)
    subst he
    cases (hl a ha).symm.trans hparameter
    exact h a ha
  case mpr =>
    intro h a ha
    exact h _ (hp.mem_iff.mp (List.mem_map_of_mem ha)) a.1 (hl a ha)

-- If the parameters have different names, the last ones can be given without the ones before.
theorem exists_trailing (hf : f.Numbered) (hn : (f.parameters.map (·.name)).Nodup)
    (hr : f.result.isSome) (hk : f.leastArguments ≤ k ∧ k ≤ f.mostArguments) :
    ∃ xs t as, f.callNamed xs = .ok (.call t f as) ∧ as.length = k ∧
      as.map (·.1) = f.parameters.drop (f.mostArguments - k) := by
  have ⟨t, ht⟩ := Option.isSome_iff_exists.mp hr
  let ps := f.parameters.drop (f.mostArguments - k)
  let as := ps.map fun p => (p, Expression.literal t .null)
  have hmap : as.map (·.1) = ps := by
    rw [List.map_map]
    exact List.map_id ps
  have hlength : as.length = k := by
    simp only [as, ps, List.length_map, List.length_drop, mostArguments] at hk ⊢
    omega
  have hparameters : ∀ a ∈ as, a.1 ∈ f.parameters :=
    List.forall_mem_map.mpr fun _ hp => List.mem_of_mem_drop hp
  have hordered : (as.map (·.1)).Pairwise (·.position < ·.position) :=
    hmap ▸ (parameters_ordered hf).sublist (List.drop_sublist ..)
  rw [List.pairwise_map] at hordered
  refine ⟨named as, t, as, callNamed_eq_ok.mpr ⟨t, as, ht, rfl, ?_, ?_, .rfl⟩, hlength, hmap⟩
  · exact ⟨hlength ▸ hk, hparameters, hordered⟩
  · exact fun a ha => parameter?_of_mem hn (hparameters a ha)

theorem leads_of_callNamed_iff (hf : f.Numbered) (hn : (f.parameters.map (·.name)).Nodup)
    (hr : f.result.isSome) :
    (∀ xs t as, f.callNamed xs = .ok (.call t f as) → f.Leads as) ↔
      f.mostArguments ≤ max f.leastArguments 1 := by
  constructor
  case mp =>
    intro h
    by_contra hlt
    have ⟨xs, t, as, hc, hlength, hmap⟩ := exists_trailing hf hn hr (k := max f.leastArguments 1) (by omega)
    have ⟨p, hp, hlast⟩ := exists_parameter hf (i := f.mostArguments - 1) (by omega)
    have hm : p ∈ as.map (·.1) := hmap ▸ (mem_drop hf).mpr ⟨hp, by omega⟩
    have ⟨a, ha, he⟩ := List.mem_map.mp hm
    have hlead := (leads_iff hf (binds_of_callNamed hc)).mp (h xs t as hc) a ha
    rw [he] at hlead
    omega
  case mpr =>
    intro h xs t as hc
    have hb := binds_of_callNamed hc
    refine (leads_iff hf hb).mpr fun a ha => ?_
    have hlt := position_lt hf (hb.parameters a ha)
    have hpos := List.length_pos_of_mem ha
    have hleast := hb.arity.1
    omega

theorem supplies_of_callNamed_iff (hf : f.Numbered) (hn : (f.parameters.map (·.name)).Nodup)
    (hr : f.result.isSome) :
    (∀ xs t as, f.callNamed xs = .ok (.call t f as) → f.Supplies as) ↔
      f.leastArguments = 0 ∨ f.mostArguments ≤ f.leastArguments := by
  constructor
  case mp =>
    intro h
    by_contra hlt
    have ⟨xs, t, as, hc, hlength, hmap⟩ := exists_trailing hf hn hr (k := f.leastArguments) (by omega)
    have ⟨p, hp, hfirst⟩ := exists_parameter hf (i := 0) (by omega)
    have hm := h xs t as hc p hp (by omega)
    rw [hmap] at hm
    have hle := ((mem_drop hf).mp hm).2
    omega
  case mpr =>
    intro h xs t as hc
    have hb := binds_of_callNamed hc
    cases h
    case inl h => exact fun p _ hl => by omega
    case inr h =>
      refine Leads.supplies hf hb <| (leads_iff hf hb).mpr fun a ha => ?_
      have hlt := position_lt hf (hb.parameters a ha)
      have hleast := hb.arity.1
      omega

-- Positional arguments are bound to the first parameters. Named ones are if and only if no name stands for a
-- later parameter. If the parameters have different names, every named call is bound like this if and only if
-- the function takes no number of arguments but none and all, and has the arguments that may not be left off
-- if and only if these are none or all.
theorem call_leads (hf : f.Numbered) :
    (∀ es e, f.callPositional es = .ok e →
      ∃ t as, e = .call t f as ∧ f.Binds as ∧ f.Leads as ∧ f.Supplies as) ∧
    (∀ xs e, f.callNamed xs = .ok e →
      ∃ t as, e = .call t f as ∧ f.Binds as ∧ (f.Leads as → f.Supplies as) ∧
        (f.Leads as ↔ ∀ x ∈ xs, ∀ p, f.parameter? x.1 = some p → p.position < xs.length)) ∧
    ((f.parameters.map (·.name)).Nodup → f.result.isSome →
      ((∀ xs t as, f.callNamed xs = .ok (.call t f as) → f.Leads as) ↔
        f.mostArguments ≤ max f.leastArguments 1) ∧
      ((∀ xs t as, f.callNamed xs = .ok (.call t f as) → f.Supplies as) ↔
        f.leastArguments = 0 ∨ f.mostArguments ≤ f.leastArguments)) := by
  refine ⟨fun es e h => ?positional, fun xs e h => ?named, fun hn hr => ?extent⟩
  case positional =>
    have ⟨ha, t, _, he⟩ := callPositional_eq_ok.mp h
    have hb := binds_zip hf ha
    have hl := leads_zip f es
    exact ⟨t, _, he, hb, hl, hl.supplies hf hb⟩
  case named =>
    have ⟨t, as, _, he, hb, hl, hp⟩ := callNamed_eq_ok.mp h
    refine ⟨t, as, he, hb, fun h => h.supplies hf hb, ?_⟩
    have hlength : xs.length = as.length := by rw [← hp.length_eq, named, List.length_map]
    rw [leads_iff hf hb, hlength]
    exact positions_iff hl hp
  case extent =>
    exact ⟨leads_of_callNamed_iff hf hn hr, supplies_of_callNamed_iff hf hn hr⟩

-- LOCATE takes two of its arguments or all three.
theorem call_leads_locate :
    Standard.locate.Numbered ∧ (Standard.locate.parameters.map (·.name)).Nodup ∧
      Standard.locate.result.isSome ∧
    (∃ t as, Standard.locate.callPositional [Search.text, Search.text] = .ok (.call t Standard.locate as) ∧
      Standard.locate.Leads as ∧ Standard.locate.Supplies as) ∧
    ¬(∀ xs t as, Standard.locate.callNamed xs = .ok (.call t Standard.locate as) →
      Standard.locate.Supplies as) := by
  have hf : Standard.locate.Numbered := numbered_declare ..
  have hn : (Standard.locate.parameters.map (·.name)).Nodup := by decide
  have ⟨hp, _, he⟩ := call_leads hf
  have ⟨t, as, h, _, hl, hs⟩ := hp [Search.text, Search.text] _ rfl
  refine ⟨hf, hn, rfl, ⟨t, as, congrArg _ h, hl, hs⟩, fun h => ?_⟩
  have hlocate := (he hn rfl).2.mp h
  revert hlocate
  decide

-- LOCATE takes a text and a start without anything to look for, and finds nothing.
theorem callNamed_search :
    ∃ as, Standard.locate.callNamed Search.named = .ok (.call Standard.integer Standard.locate as) ∧
      as.map (·.1.position) = [1, 2] ∧ Standard.locate.leastArguments = 2 ∧
      ¬Standard.locate.Leads as ∧ ¬Standard.locate.Supplies as ∧
      ((Expression.call Standard.integer Standard.locate as).evaluate Host.none Roots.empty ⟨[], ⟨0⟩⟩).outcome =
        .ok .null := by
  have hl : Standard.locate.Finds Search.bound := by
    simp [Finds, Search.bound, Standard.locate, parameter?, declare, numbered, Standard.parameter]
  have hb : Standard.locate.Binds Search.bound := ⟨by decide, hl.parameters, by simp [Search.bound]⟩
  refine ⟨_, callNamed_eq_ok.mpr ⟨_, _, rfl, rfl, hb, hl, .rfl⟩, rfl, rfl, fun h => ?_, fun h => ?_, rfl⟩
  · have hp : [1, 2] <+: [0, 1, 2] := h.map Parameter.position
    revert hp
    decide
  · have hm : 0 ∈ [1, 2] := List.mem_map_of_mem (f := Parameter.position) (h _ (.head _) (by decide))
    revert hm
    decide

end Function

end Trivalent
