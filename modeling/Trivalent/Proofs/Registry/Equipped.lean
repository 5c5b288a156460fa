import Trivalent.Proofs.Registry.Configured

/-!
# Equipped types

The capabilities of the types that a configuration declares, whatever its enumerations and entities are called.
All of them are builtin. Only truth values and the values of types that are not basic cannot be calculated with,
and only those of entity and collection types cannot be compared.
-/

namespace Trivalent

-- The types with the capabilities that configurations give them. The values of all attributes can be read.
inductive DataType.Equipped : DataType → Prop
  | basic       : t ∈ Standard.basics → Equipped t
  | enumeration : t.shape = .enumeration cs → t.comparator = some .enumeration → t.calculator = none → Equipped t
  | entity      : t.shape = .entity as → t.comparator = none → t.calculator = none →
                  (∀ a ∈ as, a.accessor = some .field ∧ a.adapter = none) → (∀ a ∈ as, Equipped a.type) →
                  Equipped t
  | collection  : t.shape = .collection e → t.comparator = none → t.calculator = none → Equipped t

namespace DataType

-- Without an order or even an equality of its values.
def IsIncomparable (t : DataType) : Prop :=
  t.kind = .entity ∨ t.kind = .collection

-- Without operations that have its values as results.
def IsIncalculable (t : DataType) : Prop :=
  t.name = "BOOLEAN" ∨ t.kind = .enumeration ∨ t.kind = .entity ∨ t.kind = .collection

namespace Equipped

variable {t : DataType}

theorem comparator (h : t.Equipped) :
    t.comparator = none ∧ t.IsIncomparable ∨ ∃ c, t.comparator = some c ∧ ∀ name, c ≠ .host name := by
  cases h
  case basic hb             => cases Standard.Basic.of_mem hb <;> exact .inr ⟨_, rfl, nofun⟩
  case enumeration hs hc _  => exact .inr ⟨_, hc, nofun⟩
  case entity hs hc _       => exact .inl ⟨hc, .inl (by rw [kind, hs]; rfl)⟩
  case collection hs hc _   => exact .inl ⟨hc, .inr (by rw [kind, hs]; rfl)⟩

theorem calculator (h : t.Equipped) :
    t.calculator = none ∧ t.IsIncalculable ∨ ∃ c, t.calculator = some c ∧ ∀ name, c ≠ .host name := by
  cases h
  case basic hb =>
    cases Standard.Basic.of_mem hb
    case boolean => exact .inl ⟨rfl, .inl rfl⟩
    all_goals exact .inr ⟨_, rfl, nofun⟩
  case enumeration hs _ hc  => exact .inl ⟨hc, .inr (.inl (by rw [kind, hs]; rfl))⟩
  case entity hs _ hc       => exact .inl ⟨hc, .inr (.inr (.inl (by rw [kind, hs]; rfl)))⟩
  case collection hs _ hc   => exact .inl ⟨hc, .inr (.inr (.inr (by rw [kind, hs]; rfl)))⟩

-- Only entities have attributes.
theorem of_attribute? {name : String} (h : t.Equipped) (ha : t.attribute? name = some a) :
    (∃ as, t.shape = .entity as) ∧ a.accessor = some .field ∧ a.adapter = none ∧ a.type.Equipped := by
  have hm := List.mem_of_find?_eq_some ha
  cases h
  case basic hb => simp [attributes, Standard.shape_of_mem hb] at hm
  case entity as hr ht hs _ _ =>
    rw [attributes, hs] at hm
    exact ⟨⟨as, hs⟩, (hr a hm).1, (hr a hm).2, ht a hm⟩
  all_goals simp_all [attributes]

end Equipped

end DataType

namespace Registry

variable {r : Registry} {t : DataType}

-- All types of the registry are equipped.
def Equipped (r : Registry) : Prop :=
  ∀ name t, r.type? name = some t → t.Equipped

theorem Equipped.register (hr : r.Equipped) (ht : t.Equipped) : (r.register t).Equipped := by
  intro name t' h
  rw [type?_register] at h
  split at h
  case isTrue  => exact Option.some.inj h ▸ ht
  case isFalse => exact hr name t' h

theorem equipped_invariant : Invariant (fun _ => True) Equipped fun _ t => t.Equipped where
  found hr h           := hr _ _ h
  grow _ ht            := ht
  enumeration hr _ _   := hr.register (.enumeration rfl rfl rfl)
  entity hr _ _ ha     := by
    refine hr.register (.entity rfl rfl rfl ?_ ?_)
    · exact List.forall_mem_map.mpr fun a hm => (ha a hm).2
    · exact List.forall_mem_map.mpr fun a hm => (ha a hm).1
  collection hr _ _    := hr.register (.collection rfl rfl rfl)

theorem standard_equipped : Registry.standard.Equipped := by
  intro name t h
  cases (mem_standard h).2
  case inl ht => exact .basic ht
  case inr ht =>
    have ⟨e, _, ht⟩ := ht
    exact ht ▸ .collection rfl rfl rfl

end Registry

theorem Configuration.registry_equipped {c : Configuration} (h : c.registry = .ok r) : r.Equipped :=
  Registry.equipped_invariant.registry Registry.standard_equipped (fun _ _ => trivial) (fun _ _ => trivial) h

end Trivalent
