import Trivalent.Proofs.Registry.Growth

/-!
# Registries of configurations

The registry that a configuration declares is the standard one with more types. All of its types are
registered under their names and refer to types that are registered as well.
-/

namespace Trivalent

namespace Standard

-- The cases that a basic type can be.
inductive Basic : DataType → Prop
  | integer  : Basic integer
  | numeric  : Basic numeric
  | string   : Basic string
  | boolean  : Basic boolean
  | time     : Basic time
  | interval : Basic interval

theorem Basic.of_mem (h : t ∈ basics) : Basic t := by
  simp only [basics, List.mem_cons, List.not_mem_nil, or_false] at h
  rcases h with rfl | rfl | rfl | rfl | rfl | rfl <;> constructor

theorem integer_mem  : integer ∈ basics  := by simp [basics]
theorem numeric_mem  : numeric ∈ basics  := by simp [basics]
theorem string_mem   : string ∈ basics   := by simp [basics]
theorem boolean_mem  : boolean ∈ basics  := by simp [basics]
theorem time_mem     : time ∈ basics     := by simp [basics]
theorem interval_mem : interval ∈ basics := by simp [basics]

theorem shape_of_mem (h : t ∈ basics) : t.shape = .basic := by
  cases Basic.of_mem h <;> rfl

theorem elementName?_of_mem (h : t ∈ basics) : DataType.elementName? t.name = none := by
  cases Basic.of_mem h <;> decide

end Standard

namespace Registry

-- The types that configurations declare. Only collection types have names like `Collection<…>`, and
-- the types that a type refers to are registered.
inductive Declares (r : Registry) : DataType → Prop
  | basic       : t ∈ Standard.basics → Declares r t
  | enumeration : DataType.elementName? name = none →
                  Declares r (.enumeration name constants (some .enumeration) none)
  | entity      : DataType.elementName? name = none →
                  (∀ a ∈ attributes, r.Has a.type ∧ a.accessor = some .field ∧ a.adapter = none) →
                  Declares r (.entity name attributes none none)
  | collection  : r.Has element → Declares r (.collection element none none)

-- A type with the name of a collection is the collection of what the name says.
theorem Declares.eq_collection (h : Declares r t) (hn : DataType.elementName? t.name = some name) :
    ∃ e, r.Has e ∧ e.name = name ∧ t = .collection e none none := by
  cases h
  case basic hb         => cases (Standard.elementName?_of_mem hb).symm.trans hn
  case enumeration hn'  => cases hn'.symm.trans hn
  case entity hn' _     => cases hn'.symm.trans hn
  case collection e he  =>
    exact ⟨e, he, Option.some.inj ((DataType.elementName?_collectionName e.name).symm.trans hn), rfl⟩

structure Configured (r : Registry) : Prop where
  named     : r.type? name = some t → t.name = name
  declared  : r.type? name = some t → r.Declares t
  basics    : t ∈ Standard.basics → r.Has t
  functions : r.functions = Registry.standard.functions

variable {r r' r₁ r₂ r₃ : Registry} {t t' : DataType}

theorem Extends.declares (h : r.Extends r') (ht : r.Declares t) : r'.Declares t := by
  cases ht
  case basic ht         => exact .basic ht
  case enumeration hn   => exact .enumeration hn
  case entity hn ha     => exact .entity hn fun a hm => ⟨h.has (ha a hm).1, (ha a hm).2⟩
  case collection he    => exact .collection (h.has he)

namespace Has

theorem eq (h : r.Has t) (h' : r.Has t') (hn : t.name = t'.name) : t = t' := by
  simp only [Has] at h h'
  rw [hn, h'] at h
  exact Option.some.inj h.symm

theorem declares (h : r.Has t) (hr : r.Configured) : r.Declares t :=
  hr.declared h

end Has

-- A configured registry that declares a type that it does not have yet can have it.
theorem Configured.register (hr : r.Configured) (hn : r.type? t.name = none) (ht : r.Declares t) :
    (r.register t).Configured where
  named {name _} h := by
    rw [type?_register] at h
    split at h
    case isTrue hname => exact Option.some.inj h ▸ hname
    case isFalse      => exact hr.named h
  declared {name _} h := by
    rw [type?_register] at h
    refine (extends_register hn).declares ?_
    split at h
    case isTrue  => exact Option.some.inj h ▸ ht
    case isFalse => exact hr.declared h
  basics h := (extends_register hn).has (hr.basics h)
  functions := hr.functions

-- Registries stay configured while no enumeration or entity is named like a collection type, and what a
-- name denotes is registered.
theorem configured_invariant : Invariant (DataType.elementName? · = none) Configured Has where
  found hr h          := by rwa [Has, hr.named h]
  grow                := Extends.has
  enumeration hr ha h := hr.register h (.enumeration ha)
  entity hr ha h hq   := hr.register h (.entity ha hq)
  collection hr hq h  := hr.register h (.collection hq)

-- `r'` is a configured registry that has what `r` has.
structure Develops (r r' : Registry) : Prop where
  grows      : r.Extends r'
  configured : r'.Configured

namespace Develops

theorem refl (hr : r.Configured) : r.Develops r :=
  ⟨.refl r, hr⟩

theorem trans (h₁ : r₁.Develops r₂) (h₂ : r₂.Develops r₃) : r₁.Develops r₃ :=
  ⟨h₁.grows.trans h₂.grows, h₂.configured⟩

theorem register (hr : r.Configured) (hn : r.type? t.name = none) (ht : r.Declares t) :
    r.Develops (r.register t) :=
  ⟨extends_register hn, hr.register hn ht⟩

theorem collectionOf (hr : r.Configured) (he : r.Has t) :
    r.Develops (r.collectionOf t).2 ∧ (r.collectionOf t).2.Has (r.collectionOf t).1 :=
  have ⟨⟨hg, hr'⟩, ht⟩ := configured_invariant.collectionOf hr he
  ⟨⟨hg, hr'⟩, ht⟩

theorem addEnumerations {enumerations : Dictionary (List String)} (hr : r.Configured)
    (hn : ∀ e ∈ enumerations, DataType.elementName? e.1 = none)
    (h : enumerations.foldlM (fun r e => r.addEnumeration e.1 e.2) r = .ok r') : r.Develops r' :=
  have ⟨hg, hr'⟩ := configured_invariant.addEnumerations hr hn h
  ⟨hg, hr'⟩

theorem addEntity {name : String} (hr : r.Configured) (hn : DataType.elementName? name = none)
    (h : r.addEntity name attributes = .ok r') : r.Develops r' :=
  have ⟨hg, hr'⟩ := configured_invariant.addEntity hr hn h
  ⟨hg, hr'⟩

theorem addEntities {entities : Dictionary (Dictionary String)} (hr : r.Configured)
    (hn : ∀ e ∈ entities, DataType.elementName? e.1 = none)
    (h : r.addEntities entities = .ok r') : r.Develops r' :=
  have ⟨hg, hr'⟩ := configured_invariant.addEntities hr hn h
  ⟨hg, hr'⟩

end Develops

theorem standard_has (h : t ∈ Standard.basics) : Registry.standard.Has t := by
  cases Standard.Basic.of_mem h <;> rfl

theorem mem_standard {name : String} (h : Registry.standard.type? name = some t) :
    t.name = name ∧ (t ∈ Standard.basics ∨ ∃ e ∈ Standard.basics, t = .collection e none none) := by
  have hm := Dictionary.mem_ofList (Dictionary.mem_of_find? h)
  simp only [List.mem_map, List.mem_append, Standard.collections, Prod.mk.injEq] at hm
  have ⟨t', ht, hname, he⟩ := hm
  subst he
  exact ⟨hname, ht.imp_right fun ⟨e, he, h⟩ => ⟨e, he, h.symm⟩⟩

theorem standard_configured : Registry.standard.Configured where
  named h := (mem_standard h).1
  declared h := by
    cases (mem_standard h).2
    case inl ht => exact .basic ht
    case inr ht =>
      have ⟨e, he, ht⟩ := ht
      exact ht ▸ .collection (standard_has he)
  basics    := standard_has
  functions := rfl

end Registry

namespace Configuration

-- No declared type is named like a collection type.
def NamesNoCollection (c : Configuration) : Prop :=
  (∀ e ∈ c.enumerations, DataType.elementName? e.1 = none) ∧
    ∀ e ∈ c.entities, DataType.elementName? e.1 = none

theorem registry_configured {c : Configuration} (hn : c.NamesNoCollection)
    (h : c.registry = .ok r) : r.Configured :=
  Registry.configured_invariant.registry Registry.standard_configured hn.1 hn.2 h

end Configuration

end Trivalent
