import Trivalent.Proofs.Registry.Configured

/-!
# Regular types

Whatever the enumerations and the entities of a configuration are called, the types that it declares are
made of basic types, and only basic types have names of basic types.
-/

namespace Trivalent

-- A type of another shape than the basic one has a name of its own, and so do the types that it is made of.
inductive DataType.Regular : DataType → Prop
  | basic       : t ∈ Standard.basics → Regular t
  | enumeration : t.shape = .enumeration cs → t.name ∉ Standard.basics.map (·.name) → Regular t
  | entity      : t.shape = .entity as → t.name ∉ Standard.basics.map (·.name) →
                  (∀ a ∈ as, Regular a.type) → Regular t
  | collection  : t.shape = .collection e → t.name ∉ Standard.basics.map (·.name) → Regular e → Regular t

namespace DataType.Regular

variable {t : DataType}

theorem of_basic (h : t.Regular) (hs : t.shape = .basic) : t ∈ Standard.basics := by
  cases h
  case basic ht => exact ht
  all_goals simp_all

theorem of_enumeration (h : t.Regular) (hs : t.shape = .enumeration cs) :
    t.name ∉ Standard.basics.map (·.name) := by
  cases h
  case basic ht           => simp [Standard.shape_of_mem ht] at hs
  case enumeration hn     => exact hn
  all_goals simp_all

theorem of_collection (h : t.Regular) (hs : t.shape = .collection e) : e.Regular := by
  cases h
  case basic ht             => simp [Standard.shape_of_mem ht] at hs
  case collection he hs' _  => cases hs.symm.trans hs'; exact he
  all_goals simp_all

theorem of_attribute? {name : String} (h : t.Regular) (ha : t.attribute? name = some a) : a.type.Regular := by
  have hm := List.mem_of_find?_eq_some ha
  cases h
  case basic ht => simp [attributes, Standard.shape_of_mem ht] at hm
  case entity hr hs _ =>
    rw [attributes, hs] at hm
    exact hr a hm
  all_goals simp_all [attributes]

end DataType.Regular

namespace Registry

-- The registry has the basic types, and all of its types are regular.
structure Regular (r : Registry) : Prop where
  types  : r.type? name = some t → DataType.Regular t
  basics : t ∈ Standard.basics → r.Has t

variable {r : Registry} {t : DataType}

-- A name that is not taken is not that of a basic type.
theorem Regular.not_basic {name : String} (hr : r.Regular) (hn : r.type? name = none) :
    name ∉ Standard.basics.map (·.name) := by
  intro hm
  have ⟨t, ht, hname⟩ := List.mem_map.mp hm
  have := hr.basics ht
  simp_all [Has]

theorem Regular.register (hr : r.Regular) (hn : r.type? t.name = none) (ht : t.Regular) :
    (r.register t).Regular where
  types {name _} h := by
    rw [type?_register] at h
    split at h
    case isTrue  => exact Option.some.inj h ▸ ht
    case isFalse => exact hr.types h
  basics h := (extends_register hn).has (hr.basics h)

-- Regular registries have regular types under all names, the names of collection types among them.
theorem regular_invariant : Invariant (fun _ => True) Regular fun _ t => t.Regular where
  found hr h           := hr.types h
  grow _ ht            := ht
  enumeration hr _ h   := hr.register h (.enumeration rfl (hr.not_basic h))
  entity hr _ h ha     := by
    refine hr.register h (.entity rfl (hr.not_basic h) ?_)
    simp only [List.mem_map, forall_exists_index, and_imp, forall_apply_eq_imp_iff₂]
    exact fun a hm => (ha a hm).1
  collection hr ht h   := hr.register h (.collection rfl (hr.not_basic h) ht)

theorem standard_regular : Registry.standard.Regular where
  types h := by
    cases (mem_standard h).2
    case inl ht => exact .basic ht
    case inr ht =>
      have ⟨e, he, ht⟩ := ht
      refine ht ▸ .collection rfl ?_ (.basic he)
      cases Standard.Basic.of_mem he <;> decide
  basics := standard_has

end Registry

theorem Configuration.registry_regular {c : Configuration} (h : c.registry = .ok r) : r.Regular :=
  Registry.regular_invariant.registry Registry.standard_regular (fun _ _ => trivial) (fun _ _ => trivial) h

end Trivalent
