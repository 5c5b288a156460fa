import Mathlib.Data.List.Nodup
import Mathlib.Data.List.Perm.Basic
import Trivalent.Expression.Binding
import Trivalent.Proofs.Outcome

/-!
# Names that are bound

Attribute names that can be followed become a chain of attributes. Arguments that are accepted become a call
that binds as many of them as the function takes, at positions that strictly increase: to the first parameters
if they are given by position, to those that their names find if they are given by name, in whatever order.
-/

namespace Trivalent

namespace Path

-- The attributes lead from type to type. Each of them is the attribute of its name.
inductive Chain : DataType → List Attribute → DataType → Prop
  | nil  : Chain t [] t
  | cons : t.attribute? a.name = some a → Chain a.type as last → Chain t (a :: as) last

theorem chain_of_follow {t last : DataType} {names : List String} {attributes : List Attribute}
    (h : follow t names = .ok (last, attributes)) : Chain t attributes last := by
  induction names generalizing t attributes
  case nil =>
    cases h
    exact .nil
  case cons name names hi =>
    rw [follow] at h
    split at h
    case h_1 => contradiction
    case h_2 a ha =>
      have ⟨⟨_, rest⟩, hrest, h⟩ := bind_eq_ok.mp h
      cases h
      have hname : a.name = name := by simpa using List.find?_some ha
      exact .cons (hname ▸ ha) (hi hrest)

end Path

namespace Function

-- The parameters are at their positions.
def Numbered (f : Function) : Prop :=
  ∃ ps, f.parameters = numbered ps

-- As many arguments as the function takes are bound to its parameters, in the order of their positions.
structure Binds (f : Function) (as : List (Parameter × Expression)) : Prop where
  arity      : f.leastArguments ≤ as.length ∧ as.length ≤ f.mostArguments
  parameters : ∀ a ∈ as, a.1 ∈ f.parameters
  ordered    : as.Pairwise (·.1.position < ·.1.position)

-- The expression is a call of the function with arguments among the given ones.
inductive Calls (f : Function) (es : List Expression) : Expression → Prop
  | call : f.result = some t → f.Binds as → (∀ a ∈ as, a.2 ∈ es) → Calls f es (.call t f as)

-- Arguments under the names of their parameters.
def named (as : List (Parameter × Expression)) : List (String × Expression) :=
  as.map fun a => (a.1.name, a.2)

-- Every argument is for the parameter that its name finds.
def Finds (f : Function) (as : List (Parameter × Expression)) : Prop :=
  ∀ a ∈ as, f.parameter? a.1.name = some a.1

-- Arguments in the order of their positions.
def sorted (as : List (Parameter × Expression)) : List (Parameter × Expression) :=
  as.mergeSort fun a b => a.1.position ≤ b.1.position

variable {f : Function} {p : Parameter} {e : Expression} {as : List (Parameter × Expression)}
  {xs : List (String × Expression)}

theorem numbered_declare (name : String) (ps : List Parameter) (least : Option Nat) (result : Option DataType)
    (invoker : Option Invoker) (adapter : Option Adapter) :
    (declare name ps least result invoker adapter).Numbered :=
  ⟨ps, rfl⟩

theorem position_numbered (ps : List Parameter) (h : i < (numbered ps).length) :
    (numbered ps)[i].position = i := by
  simp [numbered]

theorem getElem?_eq_some (hf : f.Numbered) :
    f.parameters[i]? = some p ↔ p ∈ f.parameters ∧ p.position = i := by
  have ⟨ps, hps⟩ := hf
  rw [hps]
  constructor
  case mp =>
    intro h
    have ⟨hi, he⟩ := List.getElem?_eq_some_iff.mp h
    exact ⟨List.mem_of_getElem? h, he ▸ position_numbered ps hi⟩
  case mpr =>
    intro ⟨hp, hi⟩
    have ⟨j, hj, he⟩ := List.mem_mapIdx.mp hp
    subst hi he
    simp [numbered, hj]

theorem parameters_ordered (hf : f.Numbered) : f.parameters.Pairwise (·.position < ·.position) := by
  have ⟨ps, hps⟩ := hf
  rw [hps]
  apply List.pairwise_iff_getElem.mpr
  intro i j hi hj hij
  simpa [position_numbered] using hij

theorem parameter?_eq_some (h : f.parameter? n = some p) : p ∈ f.parameters ∧ p.name = n :=
  ⟨List.mem_of_find?_eq_some h, by simpa using List.find?_some h⟩

theorem parameter?_of_mem (hn : (f.parameters.map (·.name)).Nodup) (hp : p ∈ f.parameters) :
    f.parameter? p.name = some p := by
  have hs : (f.parameter? p.name).isSome := List.find?_isSome.mpr ⟨p, hp, by simp⟩
  have ⟨q, hq⟩ := Option.isSome_iff_exists.mp hs
  have ⟨hm, hname⟩ := parameter?_eq_some hq
  exact List.inj_on_of_nodup_map hn hm hp hname ▸ hq

theorem Finds.parameters (h : f.Finds as) : ∀ a ∈ as, a.1 ∈ f.parameters :=
  fun a ha => (parameter?_eq_some (h a ha)).1

theorem Finds.of_perm (h : f.Finds as) (hp : bs.Perm as) : f.Finds bs :=
  fun a ha => h a (hp.mem_iff.mp ha)

theorem bound_eq_ok : (f.bound as = .ok e) ↔ ∃ t, f.result = some t ∧ e = .call t f as := by
  rw [bound]
  cases f.result <;> simp [eq_comm]

theorem checkArity_eq_ok : (f.checkArity n = .ok u) ↔ f.leastArguments ≤ n ∧ n ≤ f.mostArguments := by
  rw [checkArity]
  split <;> simp <;> omega

theorem callPositional_eq_ok {es : List Expression} :
    (f.callPositional es = .ok e) ↔
      (f.leastArguments ≤ es.length ∧ es.length ≤ f.mostArguments) ∧
        ∃ t, f.result = some t ∧ e = .call t f (f.parameters.zip es) := by
  simp only [callPositional, bind_eq_ok, checkArity_eq_ok, bound_eq_ok, exists_const]

theorem zip_ordered (hf : f.Numbered) (es : List Expression) :
    (f.parameters.zip es).Pairwise (·.1.position < ·.1.position) := by
  apply List.pairwise_iff_getElem.mpr
  intro i j hi hj hij
  simpa using List.pairwise_iff_getElem.mp (parameters_ordered hf) i j _ _ hij

theorem binds_zip (hf : f.Numbered) {es : List Expression}
    (h : f.leastArguments ≤ es.length ∧ es.length ≤ f.mostArguments) : f.Binds (f.parameters.zip es) where
  arity := by
    have hl : (f.parameters.zip es).length = es.length := by
      rw [List.length_zip]
      exact Nat.min_eq_right h.2
    exact hl ▸ h
  parameters _ ha := (List.of_mem_zip ha).1
  ordered := zip_ordered hf es

theorem calls_of_callPositional (hf : f.Numbered) {es : List Expression}
    (h : f.callPositional es = .ok e) : f.Calls es e := by
  have ⟨ha, t, ht, he⟩ := callPositional_eq_ok.mp h
  subst he
  exact .call ht (binds_zip hf ha) fun a ha => (List.of_mem_zip ha).2

theorem bindNamed_cons_eq_ok {x : String × Expression} :
    (f.bindNamed seen (x :: xs) = .ok as) ↔
      ∃ p rest, f.parameter? x.1 = some p ∧ p.position ∉ seen ∧
        f.bindNamed (p.position :: seen) xs = .ok rest ∧ (p, x.2) :: rest = as := by
  rw [bindNamed]
  cases f.parameter? x.1
  case none   => simp
  case some p =>
    by_cases hp : p.position ∈ seen
    case pos => simp [hp]
    case neg => simp [hp, bind_eq_ok, pure, Except.pure]

-- Every name finds the parameter of its argument, and no position is given twice.
theorem bindNamed_eq_ok :
    (f.bindNamed seen xs = .ok as) ↔
      named as = xs ∧ f.Finds as ∧ as.Pairwise (·.1.position ≠ ·.1.position) ∧
        ∀ a ∈ as, a.1.position ∉ seen := by
  induction xs generalizing seen as
  case nil =>
    cases as <;> simp [bindNamed, named, Finds]
  case cons x xs hi =>
    simp only [bindNamed_cons_eq_ok, hi]
    constructor
    case mp =>
      intro ⟨p, rest, hp, hs, ⟨hn, hl, hd, hf⟩, h⟩
      subst h hn
      have ⟨_, hname⟩ := parameter?_eq_some hp
      simp only [List.mem_cons, not_or] at hf
      simp only [Finds, List.forall_mem_cons, List.pairwise_cons]
      refine ⟨?_, ⟨hname ▸ hp, hl⟩, ⟨fun a ha => Ne.symm (hf a ha).1, hd⟩, hs, fun a ha => (hf a ha).2⟩
      simp [named, hname]
    case mpr =>
      intro ⟨hn, hl, hd, hf⟩
      cases as
      case nil => contradiction
      case cons a as =>
        cases hn
        simp only [Finds, List.forall_mem_cons, List.pairwise_cons] at hl hd hf
        refine ⟨a.1, as, hl.1, hf.1, ⟨rfl, hl.2, hd.2, fun b hb => ?_⟩, rfl⟩
        rw [List.mem_cons, not_or]
        exact ⟨(hd.1 b hb).symm, hf.2 b hb⟩

theorem sorted_perm (as : List (Parameter × Expression)) : (sorted as).Perm as :=
  List.mergeSort_perm ..

theorem sorted_ordered (h : as.Pairwise (·.1.position ≠ ·.1.position)) :
    (sorted as).Pairwise (·.1.position < ·.1.position) := by
  have hle : (sorted as).Pairwise fun a b => decide (a.1.position ≤ b.1.position) :=
    List.pairwise_mergeSort (by grind) (by grind) as
  have hne : (sorted as).Pairwise (·.1.position ≠ ·.1.position) :=
    (sorted_perm as).pairwise_iff (fun h => h.symm) |>.mpr h
  exact hle.imp₂ (fun _ _ hle hne => Nat.lt_of_le_of_ne (of_decide_eq_true hle) hne) hne

-- The order of the positions is the only one in which arguments can be bound.
theorem eq_of_ordered {as bs : List α} (k : α → Nat) (ha : as.Pairwise (k · < k ·))
    (hb : bs.Pairwise (k · < k ·)) (h : as.Perm bs) : as = bs :=
  h.eq_of_pairwise (fun _ _ _ _ hab hba => absurd hab (Nat.lt_asymm hba)) ha hb

-- Named arguments are bound in whatever order they are given.
theorem bindNamed_of_perm (ho : as.Pairwise (·.1.position < ·.1.position)) (hl : f.Finds as)
    (h : (named as).Perm xs) : ∃ bs, f.bindNamed [] xs = .ok bs ∧ sorted bs = as := by
  have ⟨bs, hn, hp⟩ : ∃ bs, xs = named bs ∧ bs.Perm as :=
    congrFun₂ (List.eq_map_comp_perm _) xs as |>.mpr h.symm
  have hd : bs.Pairwise (·.1.position ≠ ·.1.position) :=
    hp.pairwise_iff (fun h => h.symm) |>.mpr (ho.imp Nat.ne_of_lt)
  refine ⟨bs, bindNamed_eq_ok.mpr ⟨hn.symm, hl.of_perm hp, hd, nofun⟩, ?_⟩
  exact eq_of_ordered (·.1.position) (sorted_ordered hd) ho ((sorted_perm bs).trans hp)

theorem callNamed_of_ordered (ho : as.Pairwise (·.1.position < ·.1.position)) (hl : f.Finds as)
    (h : (named as).Perm xs) : f.callNamed xs = (do f.checkArity xs.length; f.bound as) := by
  have ⟨bs, hbs, hs⟩ := bindNamed_of_perm ho hl h
  rw [callNamed, hbs, ← hs]
  rfl

theorem callNamed_eq_ok :
    (f.callNamed xs = .ok e) ↔
      ∃ t as, f.result = some t ∧ e = .call t f as ∧ f.Binds as ∧ f.Finds as ∧ (named as).Perm xs := by
  constructor
  case mp =>
    intro h
    simp only [callNamed, bind_eq_ok, checkArity_eq_ok, bindNamed_eq_ok, bound_eq_ok, exists_const] at h
    have ⟨ha, bs, ⟨hn, hl, hd, _⟩, t, ht, he⟩ := h
    have hp := sorted_perm bs
    have hl := hl.of_perm hp
    have hlength : xs.length = (sorted bs).length := by simp [← hn, named, hp.length_eq]
    refine ⟨t, sorted bs, ht, he, ⟨hlength ▸ ha, hl.parameters, sorted_ordered hd⟩, hl, ?_⟩
    exact hn ▸ hp.map _
  case mpr =>
    intro ⟨t, as, ht, he, hb, hl, hp⟩
    rw [callNamed_of_ordered hb.ordered hl hp, ← hp.length_eq, named, List.length_map]
    exact bind_eq_ok.mpr ⟨(), checkArity_eq_ok.mpr hb.arity, bound_eq_ok.mpr ⟨t, ht, he⟩⟩

theorem calls_of_callNamed (h : f.callNamed xs = .ok e) : f.Calls (xs.map (·.2)) e := by
  have ⟨t, as, ht, he, hb, _, hp⟩ := callNamed_eq_ok.mp h
  subst he
  refine .call ht hb fun a ha => ?_
  have hm := hp.mem_iff.mp (List.mem_map_of_mem (f := fun a => (a.1.name, a.2)) ha)
  exact List.mem_map_of_mem (f := (·.2)) hm

end Function

end Trivalent
