import Trivalent.Proofs.Registry.Configured

/-!
# Owned attributes

An attribute bears the name of the type that it was declared with. The name of its owner and its own name tell
which attribute it is, whatever the types of a configuration are called.
-/

namespace Trivalent

namespace Registry

variable {r : Registry} {s t : DataType} {a b : Attribute}

-- The attributes of registered types bear the names of these types.
def Owned (r : Registry) : Prop :=
  ∀ name t, r.type? name = some t → ∀ a ∈ t.attributes, a.owner = t.name

theorem Owned.register (hr : r.Owned) (ht : ∀ a ∈ t.attributes, a.owner = t.name) : (r.register t).Owned := by
  intro name t' h
  rw [type?_register] at h
  split at h
  case isTrue  => exact Option.some.inj h ▸ ht
  case isFalse => exact hr name t' h

theorem owned_invariant : Invariant (fun _ => True) Owned fun _ _ => True where
  found _ _            := trivial
  grow _ _             := trivial
  enumeration hr _ _   := hr.register nofun
  entity hr _ _ _      := hr.register (List.forall_mem_map.mpr fun _ _ => rfl)
  collection hr _ _    := hr.register nofun

theorem standard_owned : Registry.standard.Owned := by
  intro name t h
  have hn : t.attributes = [] := by
    cases (mem_standard h).2
    case inl ht => rw [DataType.attributes, Standard.shape_of_mem ht]
    case inr ht =>
      have ⟨e, _, ht⟩ := ht
      rw [ht]
      rfl
  rw [hn]
  nofun

-- A registered type has the attribute.
def Offers (r : Registry) (a : Attribute) : Prop :=
  ∃ t, r.Has t ∧ t.attribute? a.name = some a

-- The owner of an attribute finds its type, and its name finds the attribute among those of the type.
theorem Owned.same_iff (hr : r.Owned) (ha : r.Offers a) (hb : r.Offers b) : a.same b ↔ a = b := by
  have ⟨s, hs, ha⟩ := ha
  have ⟨t, ht, hb⟩ := hb
  constructor
  case mp =>
    intro h
    simp only [Attribute.same, Bool.and_eq_true, beq_iff_eq] at h
    have hst : s.name = t.name := by
      rw [← hr _ _ hs a (List.mem_of_find?_eq_some ha), ← hr _ _ ht b (List.mem_of_find?_eq_some hb), h.1]
    cases hs.eq ht hst
    rw [h.2, hb] at ha
    exact (Option.some.inj ha).symm
  case mpr =>
    rintro rfl
    simp [Attribute.same]

end Registry

theorem Configuration.registry_owned {c : Configuration} (h : c.registry = .ok r) : r.Owned :=
  Registry.owned_invariant.registry Registry.standard_owned (fun _ _ => trivial) (fun _ _ => trivial) h

end Trivalent
