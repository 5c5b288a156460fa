import Mathlib.Data.List.Forall2
import Mathlib.Data.List.Perm.Basic
import Trivalent.Json
import Trivalent.Proofs.Dictionary

/-!
# Records

A record is written as an object, whose members come in any order and among others that nobody knows, or as
an array of its fields in their order. A field may be missing if its value is the default one, from an array
only together with all fields after it.
-/

namespace Trivalent

theorem mapM_eq_pure {m : Type → Type} [Monad m] [LawfulMonad m] {f : α → m β}
    (h : List.Forall₂ (fun b a => f a = pure b) bs as) : as.mapM f = pure bs := by
  induction h
  case nil           => simp
  case cons hb _ hi  => simp [List.mapM_cons, hb, hi]

namespace Json

-- An array whose items satisfy `P`.
def ArrayOf (P : List Json → Prop) : Json → Prop
  | array items => P items
  | _           => False

-- An object whose members satisfy `P` in some order.
def ObjectOf (P : List (String × Json) → Prop) : Json → Prop
  | object members => ∃ ordered, ordered.Perm members ∧ P ordered
  | _              => False

end Json

-- The members of an object that gives the entries of a dictionary in some order make up the dictionary.
theorem exists_entries {m : Type → Type} [Monad m] [LawfulMonad m] {f : String × Json → m (String × α)}
    {d : Dictionary α} (hs : Dictionary.Sorted d) (hp : ordered.Perm members)
    (h : List.Forall₂ R d ordered) (hf : ∀ e ∈ d, ∀ member ∈ members, R e member → f member = pure e) :
    ∃ entries, members.mapM f = pure entries ∧ Dictionary.ofList entries = d := by
  have h : List.Forall₂ (fun e member => f member = pure e) d ordered := by
    have ⟨hl, h⟩ := List.forall₂_iff_zip.mp h
    refine List.forall₂_iff_zip.mpr ⟨hl, fun hm => ?_⟩
    have ⟨he, hm'⟩ := List.of_mem_zip hm
    exact hf _ he _ (hp.subset hm') (h hm)
  have ⟨entries, he, hm⟩ :
      Relation.Comp List.Perm (List.Forall₂ fun e member => f member = pure e) d members :=
    List.forall₂_comp_perm_eq_perm_comp_forall₂ ▸ ⟨ordered, h, hp⟩
  exact ⟨entries, mapM_eq_pure hm, Dictionary.ofList_of_perm hs he.symm⟩

-- A field of a record that has some value: the JSON which spells the value, and whether it is the default.
structure Slot where
  name      : String
  spelled   : Json → Prop
  isDefault : Prop

namespace Slot

-- A field without a default.
def required (name : String) (spelled : Json → Prop) : Slot :=
  ⟨name, spelled, False⟩

-- A string.
def text (name s : String) : Slot :=
  required name (· = .string s)

-- A string that may be null or absent.
def optional (name : String) (s : Option String) : Slot :=
  ⟨name, (· = s.elim .null .string), s = none⟩

-- A flag is false by default.
def flag (name : String) (b : Bool) : Slot :=
  ⟨name, (· = .bool b), b = false⟩

-- There are no strings by default.
def strings (name : String) (ss : List String) : Slot :=
  ⟨name, (· = .array (ss.map .string)), ss = []⟩

-- Any JSON value in canonical form.
def value (name : String) (v : Json) (isDefault : Prop) : Slot :=
  ⟨name, (·.canonical = v), isDefault⟩

-- Members give the field once, or not at all if the value is the default one.
def In (s : Slot) : List (String × Json) → Prop
  | []                      => s.isDefault
  | (name, json) :: members =>
    if name = s.name then s.spelled json ∧ s.name ∉ Dictionary.keys members else s.In members

variable {s : Slot} {name : String} {json : Json} {members : List (String × Json)}

theorem in_cons_self (hn : name = s.name) :
    s.In ((name, json) :: members) ↔ s.spelled json ∧ s.name ∉ Dictionary.keys members := by
  rw [In, if_pos hn]

theorem in_cons_of_ne (hn : name ≠ s.name) : s.In ((name, json) :: members) ↔ s.In members := by
  rw [In, if_neg hn]

theorem In.unique (h : s.In members) : (members.filter (·.1 = s.name)).length ≤ 1 := by
  induction members
  case nil => simp
  case cons member members hi =>
    have ⟨name, json⟩ := member
    by_cases hn : name = s.name
    case pos =>
      have ⟨_, hm⟩ := (in_cons_self hn).mp h
      have hnil : members.filter (·.1 = s.name) = [] := by
        simp only [List.filter_eq_nil_iff, decide_eq_true_eq]
        exact fun m hm' he => hm (he ▸ Dictionary.mem_keys_of_mem hm')
      simp [hn, hnil]
    case neg => simpa [hn] using hi ((in_cons_of_ne hn).mp h)

-- The first member of the name of the field spells the value.
theorem In.find? (h : s.In members) :
    (∃ json, Dictionary.find? members s.name = some json ∧ s.spelled json) ∨
      (Dictionary.find? members s.name = none ∧ s.isDefault) := by
  induction members
  case nil => exact .inr ⟨rfl, h⟩
  case cons member members hi =>
    have ⟨name, json⟩ := member
    by_cases hn : name = s.name
    case pos => exact .inl ⟨json, if_pos hn, ((in_cons_self hn).mp h).1⟩
    case neg =>
      rw [Dictionary.find?_cons, if_neg hn]
      exact hi ((in_cons_of_ne hn).mp h)

end Slot

namespace Record

-- The items give the values of the first slots, and all other slots have their default values.
def Positions : List Slot → List Json → Prop
  | slots, []                 => ∀ s ∈ slots, s.isDefault
  | [], _ :: _                => False
  | s :: slots, item :: items => s.spelled item ∧ Positions slots items

def Spells (slots : List Slot) : Json → Prop
  | .object members => ∀ s ∈ slots, s.In members
  | .array items    => Positions slots items
  | _               => False

-- An object of the first fields in their order is as good as the array of their values.
theorem spells_of_positions {slots : List Slot} {members : List (String × Json)}
    (hn : (slots.map (·.name)).Nodup) (hm : Dictionary.keys members <+: slots.map (·.name))
    (h : Positions slots (Dictionary.values members)) : Spells slots (.object members) := by
  induction slots generalizing members
  case nil => exact nofun
  case cons first slots hi =>
    cases members
    case nil => exact h
    case cons member members =>
      have ⟨name, json⟩ := member
      have ⟨hname, hm⟩ := List.cons_prefix_cons.mp hm
      have ⟨hfirst, hn⟩ := List.nodup_cons.mp hn
      have hname : name = first.name := hname
      refine List.forall_mem_cons.mpr ⟨?_, fun s hs => ?_⟩
      case refine_1 =>
        rw [Slot.in_cons_self hname]
        exact ⟨h.1, fun hk => hfirst (hm.subset hk)⟩
      case refine_2 =>
        have hne : name ≠ s.name := by
          rintro rfl
          exact hfirst (List.mem_map.mpr ⟨s, hs, hname⟩)
        exact (Slot.in_cons_of_ne hne).mpr (hi hn hm h.2 s hs)

theorem Positions.length_le (h : Positions slots items) : items.length ≤ slots.length := by
  induction slots generalizing items
  case nil =>
    cases items
    case nil  => exact Nat.le_refl _
    case cons => contradiction
  case cons s slots hi =>
    cases items
    case nil  => exact Nat.zero_le _
    case cons => exact Nat.succ_le_succ (hi h.2)

end Record

end Trivalent
