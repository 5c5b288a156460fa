import Mathlib.Data.List.Forall2
import Trivalent.Proofs.Registry.Configured

/-!
# Denoting types

A name denotes a type if the name within all of its collections is registered. Besides what was
registered, only collection types are registered on the way.
-/

namespace Trivalent

namespace DataType

-- The name within all the collections of a name.
def strip (name : String) : String :=
  match h : elementName? name with
  | some element =>
    have := length_elementName?_lt h
    strip element
  | none => name
termination_by name.length

-- The name is `part`, or `part` is within the name of its items.
inductive Within (part : String) : String → Prop
  | self    : Within part part
  | element {name : String} :
    elementName? name = some element → Within part element → Within part name

variable {name element : String}

theorem strip_of_some (h : elementName? name = some element) : strip name = strip element := by
  rw [strip]
  split <;> simp_all

theorem strip_of_none (h : elementName? name = none) : strip name = name := by
  rw [strip]
  split <;> simp_all

theorem elementName?_strip (name : String) : elementName? (strip name) = none := by
  induction name using strip.induct
  case case1 h _ hi => rwa [strip_of_some h]
  case case2 h      => rwa [strip_of_none h]

theorem eq_collectionName (h : elementName? name = some element) : name = collectionName element := by
  unfold elementName? at h
  split at h
  case isFalse => contradiction
  case isTrue hn =>
    have ⟨hp, hl, hlen⟩ := hn
    have ⟨rest, hr⟩ := List.isPrefixOf_iff_prefix.mp hp
    cases List.eq_nil_or_concat rest
    case inl hnil =>
      rw [← String.length_toList, ← String.length_toList, ← hr, hnil] at hlen
      simp at hlen
    case inr hrest =>
      have ⟨inner, last, hrest⟩ := hrest
      rw [List.concat_eq_append] at hrest
      have hd : "Collection<".length = "Collection<".toList.length := rfl
      rw [← hr, hrest, ← List.append_assoc, List.getLast?_concat] at hl
      rw [← hr, hd, List.drop_left, hrest, List.dropLast_concat] at h
      cases hl
      cases h
      apply String.toList_injective
      simp [collectionName, String.toList_append, ← hr, hrest]

theorem Within.eq_of_none (h : Within part name) (hn : elementName? name = none) : part = name := by
  cases h
  case self        => rfl
  case element _ h => cases hn.symm.trans h

end DataType

namespace Registry

open DataType

-- `r'` has the types of `r` and collection types, all of them within the names of `types`.
structure Collects (types : List String) (r r' : Registry) : Prop where
  develops : r.Develops r'
  only     : ∀ name, (r'.type? name).isSome → (r.type? name).isSome ∨
             elementName? name ≠ none ∧ ∃ type ∈ types, Within name type

variable {r r' r₁ r₂ r₃ : Registry} {name element : String} {t : DataType} {types : List String}

namespace Collects

theorem refl (hr : r.Configured) : Collects types r r :=
  ⟨.refl hr, fun _ => .inl⟩

theorem trans (h₁ : Collects types r₁ r₂) (h₂ : Collects types r₂ r₃) : Collects types r₁ r₃ :=
  ⟨h₁.develops.trans h₂.develops, fun name h => (h₂.only name h).elim (h₁.only name) .inr⟩

theorem mono {types' : List String} (h : Collects types r r')
    (ht : ∀ type ∈ types, ∀ part, Within part type → ∃ type' ∈ types', Within part type') :
    Collects types' r r' :=
  ⟨h.develops, fun name hn => (h.only name hn).imp_right fun ⟨hc, _, hm, hw⟩ => ⟨hc, ht _ hm _ hw⟩⟩

theorem head (h : Collects [type] r r') : Collects (type :: types) r r' :=
  h.mono fun _ hm _ hw => ⟨type, .head _, List.mem_singleton.mp hm ▸ hw⟩

theorem tail (h : Collects types r r') : Collects (type :: types) r r' :=
  h.mono fun type hm _ hw => ⟨type, .tail _ hm, hw⟩

-- Under the name of no collection there is nothing new.
theorem isSome_iff (h : Collects types r r') (hn : elementName? name = none) :
    (r'.type? name).isSome ↔ (r.type? name).isSome :=
  ⟨fun hs => (h.only name hs).resolve_right fun hc => hc.1 hn, h.develops.grows.isSome⟩

theorem collectionOf (hr : r.Configured) (h : r.type? element = some t) :
    Collects [collectionName element] r (r.collectionOf t).2 ∧
      (r.collectionOf t).2.type? (collectionName element) = some (r.collectionOf t).1 := by
  have hn := hr.named h
  have hd := (Develops.collectionOf hr (by rwa [Has, hn])).1
  subst hn
  unfold Registry.collectionOf collectionType? at hd ⊢
  split at hd
  case h_1 t' hc => exact ⟨refl hr, hc⟩
  case h_2 hc =>
    refine ⟨⟨hd, fun name hs => ?_⟩, has_register⟩
    change ((r.register (.collection t none none)).type? name).isSome at hs
    rw [type?_register] at hs
    split at hs
    case isTrue hname =>
      subst hname
      refine .inr ⟨?_, _, .head _, .self⟩
      simp [DataType.collection, elementName?_collectionName]
    case isFalse => exact .inl hs

end Collects

-- What comes of a name that denotes a type.
structure Denoted (r : Registry) (name : String) (t : DataType) (r' : Registry) : Prop where
  collects   : Collects [name] r r'
  registered : r'.type? name = some t
  parts      : Within part name → (r'.type? part).isSome

theorem denote_of_some (h : elementName? name = some element) :
    r.denote name = r.denote element >>= fun d => .ok (d.2.collectionOf d.1) := by
  rw [denote]
  split <;> simp_all
  rfl

theorem denote_of_none (h : elementName? name = none) :
    r.denote name = r.requireType name >>= fun t => .ok (t, r) := by
  rw [denote]
  split <;> simp_all
  rfl

-- The induction is on the collections of the name, from the outermost one to the name within all of them.
theorem denote_error (h : r.type? (strip name) = none) :
    r.denote name = .error (.unknownType (strip name)) := by
  induction name using strip.induct
  case case1 hn _ hi =>
    rw [strip_of_some hn] at h ⊢
    rw [denote_of_some hn, hi h]
    rfl
  case case2 hn =>
    rw [strip_of_none hn] at h ⊢
    rw [denote_of_none hn, requireType, h]
    rfl

theorem denote_ok (hr : r.Configured) (h : (r.type? (strip name)).isSome) :
    ∃ t r', r.denote name = .ok (t, r') ∧ r.Denoted name t r' := by
  induction name using strip.induct
  case case1 name element hn _ hi =>
    rw [strip_of_some hn] at h
    have ⟨t, r₁, hd, hc, ht, hp⟩ := hi h
    have ⟨hc', ht'⟩ := Collects.collectionOf hc.develops.configured ht
    rw [← eq_collectionName hn] at hc' ht'
    have hin : Collects [name] r r₁ :=
      hc.mono fun _ hm _ hw => ⟨name, .head _, .element hn (List.mem_singleton.mp hm ▸ hw)⟩
    have he : r.denote name = .ok (r₁.collectionOf t) := by
      rw [denote_of_some hn]
      exact bind_eq_ok.mpr ⟨(t, r₁), hd, rfl⟩
    refine ⟨_, _, he, hin.trans hc', ht', fun {part} hw => ?_⟩
    cases hw
    case self => exact Option.isSome_of_eq_some ht'
    case element hw hn' =>
      cases hn.symm.trans hn'
      exact hc'.develops.grows.isSome (hp hw)
  case case2 name hn =>
    rw [strip_of_none hn] at h
    have ⟨t, ht⟩ := Option.isSome_iff_exists.mp h
    have he : r.denote name = .ok (t, r) := by
      rw [denote_of_none hn, requireType, ht]
      rfl
    exact ⟨t, r, he, .refl hr, ht, fun hw => hw.eq_of_none hn ▸ h⟩

theorem denoteAll_collects (hr : r.Configured) (types : List String) :
    Collects types r (r.denoteAll types).1 := by
  induction types generalizing r
  case nil => exact .refl hr
  case cons type types hi =>
    rw [denoteAll]
    cases hs : (r.type? (strip type)).isSome
    case true =>
      obtain ⟨t, r₁, hd, h⟩ := denote_ok hr hs
      rw [hd]
      exact h.collects.head.trans (hi h.collects.develops.configured).tail
    case false =>
      rw [denote_error (by simpa using hs)]
      exact .refl hr

-- Nothing that was registered on the way decides whether the next name denotes a type.
theorem denoteAll_none {types : List String} (hr : r.Configured)
    (h : r.denoteAll types = (r', none)) : ∀ type ∈ types, (r.type? (strip type)).isSome := by
  induction types generalizing r
  case nil => simp
  case cons type types hi =>
    rw [denoteAll] at h
    cases hs : (r.type? (strip type)).isSome
    case true =>
      obtain ⟨t, r₁, hd, hn⟩ := denote_ok hr hs
      rw [hd] at h
      have hi := hi hn.collects.develops.configured h
      rw [List.forall_mem_cons]
      exact ⟨hs, fun type hm => (hn.collects.isSome_iff (elementName?_strip type)).mp (hi type hm)⟩
    case false =>
      rw [denote_error (by simpa using hs)] at h
      cases h

theorem denoteAll_some {types : List String} (hr : r.Configured)
    (h : r.denoteAll types = (r', some e)) :
    ∃ type ∈ types, r.type? (strip type) = none ∧ e = .unknownType (strip type) := by
  induction types generalizing r
  case nil => cases h
  case cons type types hi =>
    rw [denoteAll] at h
    cases hs : (r.type? (strip type)).isSome
    case true =>
      obtain ⟨t, r₁, hd, hn⟩ := denote_ok hr hs
      rw [hd] at h
      obtain ⟨type, hm, hu, he⟩ := hi hn.collects.develops.configured h
      have hiff := hn.collects.isSome_iff (elementName?_strip type)
      exact ⟨type, .tail _ hm, by simpa [hu] using hiff, he⟩
    case false =>
      have hs : r.type? (strip type) = none := by simpa using hs
      rw [denote_error hs] at h
      cases h
      exact ⟨type, .head _, hs, rfl⟩

-- The attributes that the names of registered types declare, one after the other.
def HasAttributes (r : Registry) (named : Dictionary String) (attributes : List Attribute) : Prop :=
  List.Forall₂ (fun n a => ∃ t, r.type? n.2 = some t ∧ a = .declare n.1 t (some .field) none)
    named attributes

theorem HasAttributes.grow {attributes : List Attribute} (h : r.HasAttributes named attributes)
    (hg : r.Extends r') : r'.HasAttributes named attributes :=
  h.imp fun _ _ ⟨t, ht, ha⟩ => ⟨t, hg _ _ ht, ha⟩

theorem HasAttributes.names {attributes : List Attribute} (h : r.HasAttributes named attributes) :
    attributes.map (·.name) = Dictionary.keys named := by
  induction h
  case nil => rfl
  case cons ha _ hi =>
    have ⟨_, _, ha⟩ := ha
    rw [List.map_cons, hi, ha]
    rfl

-- What comes of the attributes of an entity.
structure Declared (r : Registry) (named : Dictionary String) (attributes : List Attribute)
    (r' : Registry) : Prop where
  collects      : Collects (Dictionary.values named) r r'
  hasAttributes : r'.HasAttributes named attributes
  parts         : type ∈ Dictionary.values named → Within part type → (r'.type? part).isSome

theorem denoteAttributes_ok {named : Dictionary String} (hr : r.Configured)
    (h : ∀ type ∈ Dictionary.values named, (r.type? (strip type)).isSome) :
    ∃ attributes r', r.denoteAttributes named = .ok (attributes, r') ∧
      r.Declared named attributes r' := by
  induction named generalizing r
  case nil => exact ⟨[], r, rfl, .refl hr, .nil, nofun⟩
  case cons first named hi =>
    have ⟨name, type⟩ := first
    rw [Dictionary.values_cons, List.forall_mem_cons] at h
    have ⟨t, r₁, hd, hn⟩ := denote_ok hr h.1
    have h₁ (type) (hm : type ∈ Dictionary.values named) : (r₁.type? (strip type)).isSome :=
      hn.collects.develops.grows.isSome (h.2 type hm)
    have ⟨attributes, r₂, hds, hc, ha, hp⟩ := hi hn.collects.develops.configured h₁
    have ht : r₂.type? type = some t := hc.develops.grows _ _ hn.registered
    have he : r.denoteAttributes ((name, type) :: named) =
        .ok (.declare name t (some .field) none :: attributes, r₂) :=
      bind_eq_ok.mpr ⟨(t, r₁), hd, bind_eq_ok.mpr ⟨(attributes, r₂), hds, rfl⟩⟩
    refine ⟨_, r₂, he, hn.collects.head.trans hc.tail, .cons ⟨t, ht, rfl⟩ ha, fun {_ _} hm hw => ?_⟩
    cases hm
    case head    => exact hc.develops.grows.isSome (hn.parts hw)
    case tail hm => exact hp hm hw

theorem addType_error (h : (r.type? t.name).isSome) :
    r.addType t = .error (.duplicateType t.name) :=
  if_pos h

theorem addType_ok (h : r.type? t.name = none) : r.addType t = .ok (r.register t) := by
  rw [addType, if_neg]
  case hnc =>
    rw [type?] at h
    simp [Dictionary.contains, h]
  rfl

theorem addEntity_eq {attributes : List Attribute}
    (h : r.denoteAttributes named = .ok (attributes, r')) :
    r.addEntity name named = r'.addType (.entity name attributes none none) := by
  rw [addEntity, h]
  rfl

end Registry

end Trivalent
