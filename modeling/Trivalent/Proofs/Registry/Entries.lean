import Trivalent.Proofs.Dictionary
import Trivalent.Proofs.Registry.Configured

/-!
# Entries of registries

All that can be done to a registry is to enter a type or a function under a key that is not taken. Names
therefore keep what they were given to, and the order in which entries with different keys are made does not
matter. A registry is closed if everything in it is made of types that it has.
-/

namespace Trivalent

namespace DataType

-- The types of the attributes, or of the items.
def parts (t : DataType) : List DataType :=
  match t.shape with
  | .entity attributes  => attributes.map (·.type)
  | .collection element => [element]
  | _                   => []

theorem mem_parts_of_attribute? {t : DataType} {name : String} (h : t.attribute? name = some a) :
    a.type ∈ t.parts := by
  have hm := List.mem_of_find?_eq_some h
  cases hs : t.shape <;> simp only [attributes, parts, hs] at hm ⊢
  case entity => exact List.mem_map_of_mem hm
  all_goals contradiction

-- The type is `s` or is come by from its parts.
inductive Holds (s : DataType) : DataType → Prop
  | self : Holds s s
  | part : Holds s t → p ∈ t.parts → Holds s p

end DataType

-- The types of the parameters and of the result.
def Function.parts (f : Function) : List DataType :=
  f.parameters.map (·.type) ++ f.result.toList

namespace Registry

inductive Key
  | type     (name : String)
  | function (name : String)
  deriving DecidableEq

inductive Entry
  | type     (type : DataType)
  | function (function : Function)

namespace Entry

def key : Entry → Key
  | type t     => .type t.name
  | function f => .function (Text.upper f.name)

def parts : Entry → List DataType
  | type t     => t.parts
  | function f => f.parts

-- What the entry is under the key.
def type? (name : String) : Entry → Option DataType
  | type t     => if t.name = name then some t else none
  | function _ => none

def function? (name : String) : Entry → Option Function
  | type _     => none
  | function f => if Text.upper f.name = name then some f else none

variable {e e' : Entry}

theorem type?_eq_none_or (h : e.key ≠ e'.key) (name : String) :
    e.type? name = none ∨ e'.type? name = none := by
  cases e <;> cases e' <;> simp [type?, key] at h ⊢
  grind

theorem function?_eq_none_or (h : e.key ≠ e'.key) (name : String) :
    e.function? name = none ∨ e'.function? name = none := by
  cases e <;> cases e' <;> simp [function?, key] at h ⊢
  grind

theorem name_of_type? {name : String} (h : e.type? name = some t) : t.name = name := by
  cases e <;> grind [type?]

theorem upper_of_function? {name : String} (h : e.function? name = some f) : Text.upper f.name = name := by
  cases e <;> grind [function?]

theorem parts_of_type? {name : String} (h : e.type? name = some t) : e.parts = t.parts := by
  cases e <;> simp_all [type?, parts]

theorem parts_of_function? {name : String} (h : e.function? name = some f) : e.parts = f.parts := by
  cases e <;> simp_all [function?, parts]

end Entry

-- An entry whose key is taken is dropped.
def enter (r : Registry) : Entry → Registry
  | .type t     => { r with types := if r.types.contains t.name then r.types else r.types.insert t.name t }
  | .function f =>
    let key := Text.upper f.name
    { r with functions := if r.functions.contains key then r.functions else r.functions.insert key f }

-- What `r` has registered, `r'` has registered. Functions are found whatever the case of their names.
structure Retains (r r' : Registry) : Prop where
  types     : r.Extends r'
  functions : ∀ name name' f, Text.upper name = Text.upper name' → r.function? name = some f →
              r'.function? name' = some f

-- Types and functions stand under their keys, which are in order.
structure Tidy (r : Registry) : Prop where
  types     : r.types.Sorted
  functions : r.functions.Sorted
  named     : ∀ name t, r.type? name = some t → t.name = name
  keyed     : ∀ key f, r.functions.find? key = some f → Text.upper f.name = key

-- Whatever is registered is made of types that are registered.
structure Closed (r : Registry) : Prop where
  types     : ∀ name t, r.type? name = some t → ∀ p ∈ t.parts, r.Has p
  functions : ∀ name f, r.functions.find? name = some f → ∀ p ∈ f.parts, r.Has p

variable {r r' r₁ r₂ r₃ : Registry} {e e' : Entry}

theorem type?_enter (r : Registry) (e : Entry) (name : String) :
    (r.enter e).type? name = (r.type? name).or (e.type? name) := by
  cases e
  case type t     => exact Dictionary.find?_insert_unless r.types ..
  case function f => exact (Option.or_none).symm

theorem find?_functions_enter (r : Registry) (e : Entry) (key : String) :
    (r.enter e).functions.find? key = (r.functions.find? key).or (e.function? key) := by
  cases e
  case type t     => exact (Option.or_none).symm
  case function f => exact Dictionary.find?_insert_unless r.functions ..

namespace Retains

theorem refl (r : Registry) : r.Retains r where
  types               := .refl r
  functions _ _ _ h hf := by rwa [function?, ← h]

theorem trans (h₁ : r₁.Retains r₂) (h₂ : r₂.Retains r₃) : r₁.Retains r₃ where
  types               := h₁.types.trans h₂.types
  functions _ _ _ h hf := h₂.functions _ _ _ h (h₁.functions _ _ _ rfl hf)

theorem enter (r : Registry) (e : Entry) : r.Retains (r.enter e) where
  types name t h              := by simp [type?_enter, h]
  functions name name' f hn h := by
    rw [function?, hn] at h
    simp [function?, find?_functions_enter, h]

end Retains

namespace Tidy

theorem has {name : String} (h : r.Tidy) (ht : r.type? name = some t) : r.Has t := by
  rwa [Has, h.named _ _ ht]

theorem enter (h : r.Tidy) (e : Entry) : (r.enter e).Tidy where
  types := by
    cases e <;> simp only [Registry.enter]
    case type     => split <;> simp [h.types, h.types.insert]
    case function => exact h.types
  functions := by
    cases e <;> simp only [Registry.enter]
    case type     => exact h.functions
    case function => split <;> simp [h.functions, h.functions.insert]
  named name t ht := by
    rw [type?_enter, Option.or_eq_some_iff] at ht
    cases ht
    case inl ht => exact h.named _ _ ht
    case inr ht => exact Entry.name_of_type? ht.2
  keyed key f hf := by
    rw [find?_functions_enter, Option.or_eq_some_iff] at hf
    cases hf
    case inl hf => exact h.keyed _ _ hf
    case inr hf => exact Entry.upper_of_function? hf.2

-- Which of two entries comes first makes no difference if their keys do not.
theorem enter_comm (h : r.Tidy) (hk : e.key ≠ e'.key) :
    (r.enter e).enter e' = (r.enter e').enter e := by
  have h₁ := (h.enter e).enter e'
  have h₂ := (h.enter e').enter e
  ext1
  case types =>
    apply h₁.types.ext h₂.types
    intro name
    change Registry.type? _ name = Registry.type? _ name
    simp only [type?_enter, Option.or_assoc]
    cases Entry.type?_eq_none_or hk name <;> simp [*]
  case functions =>
    apply h₁.functions.ext h₂.functions
    intro name
    simp only [find?_functions_enter, Option.or_assoc]
    cases Entry.function?_eq_none_or hk name <;> simp [*]

-- No two functions stand under one key.
theorem functions_apart (h : r.Tidy) :
    (Dictionary.values r.functions).Pairwise fun f g => Text.upper f.name ≠ Text.upper g.name := by
  have hk : (Dictionary.values r.functions).map (Text.upper ·.name) = Dictionary.keys r.functions := by
    rw [Dictionary.values, Dictionary.keys, List.map_map]
    exact List.map_congr_left fun e he => h.keyed _ _ (h.functions.mem_iff.mp he)
  exact List.pairwise_map.mp (hk ▸ h.functions.nodup_keys)

end Tidy

namespace Closed

theorem holds (h : r.Closed) (hs : r.Has s) (ht : s.Holds t) : r.Has t := by
  induction ht
  case self        => exact hs
  case part hp hi => exact h.types _ _ hi _ hp

theorem enter (h : r.Closed) (he : ∀ t ∈ e.parts, r.Has t) : (r.enter e).Closed where
  types name t ht p hp := by
    apply (Retains.enter r e).types.has
    rw [type?_enter, Option.or_eq_some_iff] at ht
    cases ht
    case inl ht => exact h.types _ _ ht p hp
    case inr ht => exact he p (Entry.parts_of_type? ht.2 ▸ hp)
  functions key f hf p hp := by
    apply (Retains.enter r e).types.has
    rw [find?_functions_enter, Option.or_eq_some_iff] at hf
    cases hf
    case inl hf => exact h.functions _ _ hf p hp
    case inr hf => exact he p (Entry.parts_of_function? hf.2 ▸ hp)

end Closed

theorem empty_tidy : Registry.empty.Tidy where
  types     := .nil
  functions := .nil
  named     := nofun
  keyed     := nofun

theorem empty_closed : Registry.empty.Closed where
  types     := nofun
  functions := nofun

theorem mem_standard_functions {key : String} (h : Registry.standard.functions.find? key = some f) :
    f.name = key ∧ f ∈ Standard.functions := by
  have hm := Dictionary.mem_ofList (Dictionary.mem_of_find? h)
  simp only [List.mem_map, Prod.mk.injEq] at hm
  have ⟨g, hg, hname, he⟩ := hm
  subst he
  exact ⟨hname, hg⟩

theorem standard_tidy : Registry.standard.Tidy where
  types       := Dictionary.sorted_ofList _
  functions   := Dictionary.sorted_ofList _
  named _ _ h := (mem_standard h).1
  keyed key f h := by
    have ⟨hname, hf⟩ := mem_standard_functions h
    subst hname
    simp only [Standard.functions, List.mem_cons, List.not_mem_nil, or_false] at hf
    rcases hf with rfl | rfl | rfl <;> decide +kernel

theorem standard_closed : Registry.standard.Closed where
  types name t h p hp := by
    cases (mem_standard h).2
    case inl ht => simp [DataType.parts, Standard.shape_of_mem ht] at hp
    case inr ht =>
      have ⟨e, he, ht⟩ := ht
      subst ht
      cases List.mem_singleton.mp hp
      exact standard_has he
  functions key f h p hp := by
    apply standard_has
    have ⟨_, hf⟩ := mem_standard_functions h
    simp only [Standard.functions, List.mem_cons, List.not_mem_nil, or_false] at hf
    rcases hf with rfl | rfl | rfl <;>
      simp [Function.parts, Standard.length, Standard.locate, Standard.random, Standard.parameter,
        Function.declare, Function.numbered, Standard.basics] at hp ⊢ <;> grind

end Registry

end Trivalent
