import Trivalent.Proofs.Registry.Rounds

/-!
# Declaring the types of a configuration

A configuration has a registry if and only if its names are apart and its entities can be ranked, and this
registry has exactly the types that the configuration declares. Otherwise the first name that is taken or
unknown is reported.
-/

namespace Trivalent

open DataType (strip Within elementName? collectionName elementName?_collectionName)

namespace Configuration

-- The type that an enumeration with its constants declares.
def enumerationType (e : String × List String) : DataType :=
  .enumeration e.1 e.2 (some .enumeration) none

-- The registry while the enumerations of a first part are declared.
structure Enumerated (c : Configuration) (before : Dictionary (List String)) (r : Registry) : Prop where
  configured   : r.Configured
  known        : ∀ name, elementName? name = none →
                 ((r.type? name).isSome ↔
                  (Registry.standard.type? name).isSome ∨ name ∈ Dictionary.keys before)
  listed       : ∀ name, (r.type? name).isSome → c.Names name
  enumerations : ∀ e ∈ before, r.type? e.1 = some (enumerationType e) ∧
                 (r.type? (collectionName e.1)).isSome

-- The ends of the declarations of the enumerations.
inductive EnumerationsEnd (c : Configuration) : Except DeclarationError Registry → Prop
  | all   : c.Enumerated c.enumerations r → EnumerationsEnd c (.ok r)
  | taken : e ∈ c.enumerations → (Registry.standard.type? e.1).isSome →
            EnumerationsEnd c (.error (.duplicateType e.1))

namespace Enumerated

variable {c : Configuration} {r : Registry} {before : Dictionary (List String)} {e : String × List String}

theorem standard : c.Enumerated [] Registry.standard where
  configured   := Registry.standard_configured
  known        := by simp [Dictionary.keys]
  listed _ hs  :=
    have ⟨_, ht⟩ := Option.isSome_iff_exists.mp hs
    .standard ht
  enumerations := nofun

-- A new enumeration joins those that are declared, and its collection comes with it.
theorem register (hn : c.NamesNoCollection) (h : c.Enumerated before r) (he : e ∈ c.enumerations)
    (hf : r.type? e.1 = none) :
    c.Enumerated (before ++ [e]) ((r.register (enumerationType e)).collectionOf (enumerationType e)).2 := by
  have hne := hn.1 e he
  have ht := r.type?_register (t := enumerationType e)
  have hd : r.Develops (r.register (enumerationType e)) := .register h.configured hf (.enumeration hne)
  obtain ⟨hc, hcollection⟩ := Registry.Collects.collectionOf hd.configured
    (Registry.has_register (r := r) (t := enumerationType e))
  refine ⟨hc.develops.configured, fun name hname => ?known, fun name hname => ?listed, ?enumerations⟩
  case known =>
    rw [hc.isSome_iff hname, ht]
    split
    case isTrue heq => simp [Dictionary.keys, ← heq, enumerationType, DataType.enumeration]
    case isFalse hne =>
      have hne : name ≠ e.1 := fun heq => hne heq.symm
      simpa [Dictionary.keys, hne] using h.known name hname
  case listed =>
    cases hc.only name hname
    case inl hs =>
      rw [ht] at hs
      split at hs
      case isTrue heq => exact heq ▸ .enumeration he
      case isFalse    => exact h.listed name hs
    case inr hw =>
      obtain ⟨hnc, type, hm, hw⟩ := hw
      cases List.mem_singleton.mp hm
      cases hw
      case self => exact .constants he
      case element hw hel =>
        cases (elementName?_collectionName e.1).symm.trans hel
        exact absurd (hw.eq_of_none hne ▸ hne) hnc
  case enumerations =>
    rw [List.forall_mem_append, List.forall_mem_singleton]
    refine ⟨fun e' he' => ?_, ?_, ?_⟩
    · obtain ⟨h₁, h₂⟩ := h.enumerations e' he'
      have hg := hd.trans hc.develops
      exact ⟨hg.grows _ _ h₁, hg.grows.isSome h₂⟩
    · exact hc.develops.grows _ _ Registry.has_register
    · exact Option.isSome_of_eq_some hcollection

theorem addEnumeration (hn : c.NamesNoCollection) (h : c.Enumerated before r) (he : e ∈ c.enumerations)
    (hm : e.1 ∉ Dictionary.keys before) :
    match r.addEnumeration e.1 e.2 with
    | .ok r'     => c.Enumerated (before ++ [e]) r'
    | .error err => (Registry.standard.type? e.1).isSome ∧ err = .duplicateType e.1 := by
  have hadd : r.addEnumeration e.1 e.2 =
      r.addType (enumerationType e) >>= fun r => .ok (r.collectionOf (enumerationType e)).2 := rfl
  rw [hadd]
  cases hf : r.type? e.1
  case some =>
    have hf := Option.isSome_of_eq_some hf
    rw [Registry.addType_error (t := enumerationType e) hf]
    exact ⟨((h.known e.1 (hn.1 e he)).mp hf).resolve_right hm, rfl⟩
  case none =>
    rw [Registry.addType_ok (t := enumerationType e) hf]
    exact h.register hn he hf

theorem addEnumerations (hs : c.Sorted) (hn : c.NamesNoCollection) (h : c.Enumerated before r)
    (hc : c.enumerations = before ++ rest) :
    c.EnumerationsEnd (rest.foldlM (fun r e => r.addEnumeration e.1 e.2) r) := by
  induction rest generalizing before r
  case nil =>
    rw [List.append_nil] at hc
    exact .all (hc ▸ h)
  case cons e rest hi =>
    have he : e ∈ c.enumerations := by simp [hc]
    have hm : e.1 ∉ Dictionary.keys before := by
      have hd := hs.enumerations.nodup_keys
      rw [hc, Dictionary.keys, List.map_append, List.nodup_append] at hd
      exact fun hm => hd.2.2 _ hm _ (.head _) rfl
    have hadd := h.addEnumeration hn he hm
    rw [List.foldlM_cons]
    cases ha : r.addEnumeration e.1 e.2 <;> rw [ha] at hadd
    case error err =>
      rw [hadd.2]
      exact .taken he hadd.1
    case ok r₁ => exact hi hadd (by simp [hc])

end Enumerated

end Configuration

theorem Registry.kind_of_standard (h : Registry.standard.type? name = some t) :
    t.kind = .basic ∨ t.kind = .collection := by
  cases (mem_standard h).2
  case inl hb => exact .inl (congrArg Shape.kind (Standard.shape_of_mem hb))
  case inr hc =>
    have ⟨_, _, ht⟩ := hc
    exact .inr (ht ▸ rfl)

theorem Registry.Configured.collection {r : Registry} (h : r.Configured)
    (hn : elementName? name = some element) (hs : (r.type? name).isSome) :
    ∃ t, r.type? element = some t ∧ r.type? name = some (.collection t none none) := by
  have ⟨t, ht⟩ := Option.isSome_iff_exists.mp hs
  have ⟨e, he, hname, heq⟩ := (h.declared ht).eq_collection (h.named ht ▸ hn)
  exact ⟨e, hname ▸ he, heq ▸ ht⟩

namespace Configuration

-- The registry has exactly the types that the configuration declares, besides the standard ones. The types
-- of attributes and of the items of collections are those that their names denote.
structure Describes (c : Configuration) (r : Registry) : Prop where
  names       : ∀ name, (r.type? name).isSome ↔ c.Names name
  standard    : Registry.standard.Extends r
  enumeration : ∀ e ∈ c.enumerations, r.type? e.1 = some (enumerationType e)
  entity      : ∀ e ∈ c.entities, ∃ attributes,
                r.type? e.1 = some (.entity e.1 attributes none none) ∧
                r.HasAttributes e.2 attributes ∧ attributes.Pairwise (·.name < ·.name)
  collection  : ∀ name element, elementName? name = some element → (r.type? name).isSome → ∃ t,
                r.type? element = some t ∧ r.type? name = some (.collection t none none)
  functions   : r.functions = Registry.standard.functions

-- The ends of the declarations of a configuration.
inductive RegistryEnds (c : Configuration) : Except DeclarationError Registry → Prop
  | ok      : c.Describes r → c.Ranked → RegistryEnds c (.ok r)
  | taken   : ¬c.NamesApart → RegistryEnds c (.error (.duplicateType name))
  | blocked : e ∈ c.entities → type ∈ Dictionary.values e.2 → ¬c.Given (strip type) →
              ¬c.Rankable (strip type) → RegistryEnds c (.error (.unknownType (strip type)))

variable {c : Configuration} {r r₀ : Registry} {names : List String}

-- An entity is no enumeration, and neither of them is a builtin type.
theorem Describes.namesApart (h : c.Describes r) : c.NamesApart where
  enumerations e he := by
    cases ht : Registry.standard.type? e.1
    case none => rfl
    case some t =>
      cases (h.standard _ _ ht).symm.trans (h.enumeration e he)
      exact (Registry.kind_of_standard ht).elim nofun nofun
  entities e he hg := by
    have ⟨_, hr, _⟩ := h.entity e he
    cases hg
    case inl hs =>
      have ⟨t, ht⟩ := Option.isSome_iff_exists.mp hs
      cases (h.standard _ _ ht).symm.trans hr
      exact (Registry.kind_of_standard ht).elim nofun nofun
    case inr hm =>
      have ⟨_, he'⟩ := Dictionary.mem_keys.mp hm
      cases (h.enumeration _ he').symm.trans hr

namespace Enumerated

theorem stage (h : c.Enumerated c.enumerations r) : c.Stage [] r where
  configured := h.configured
  ordered    := .nil
  known name hn := by simpa [Given] using h.known name hn
  listed     := h.listed
  entities   := nofun

theorem describes (hs : c.Sorted) (h₀ : c.Enumerated c.enumerations r₀) (hst : Registry.standard.Extends r₀)
    (hg : r₀.Extends r) (h : c.Stage names r) (hp : names.Perm (Dictionary.keys c.entities)) :
    c.Describes r where
  names name := by
    refine ⟨h.listed name, fun hn => ?_⟩
    have hentity {e} (he : e ∈ c.entities) : r.HasEntity e.1 e.2 :=
      h.entities e he (hp.mem_iff.mpr (Dictionary.mem_keys_of_mem he))
    cases hn
    case standard ht         => exact Option.isSome_of_eq_some (hg _ _ (hst _ _ ht))
    case enumeration he      => exact Option.isSome_of_eq_some (hg _ _ (h₀.enumerations _ he).1)
    case constants he        => exact hg.isSome (h₀.enumerations _ he).2
    case entity he           =>
      have ⟨_, ht, _⟩ := (hentity he).type
      exact Option.isSome_of_eq_some ht
    case collection he ht hw _ => exact (hentity he).parts _ ht _ hw
  standard         := hst.trans hg
  enumeration e he := hg _ _ (h₀.enumerations e he).1
  entity e he      :=
    have ⟨attributes, ht, ha⟩ := (h.entities e he (hp.mem_iff.mpr (Dictionary.mem_keys_of_mem he))).type
    have hnames : (attributes.map (·.name)).Pairwise (· < ·) :=
      ha.names ▸ List.pairwise_map.mpr (hs.attributes e he)
    ⟨attributes, ht, ha, List.pairwise_map.mp hnames⟩
  collection _ _   := h.configured.collection
  functions        := h.configured.functions

end Enumerated

theorem registry_ends (hs : c.Sorted) (hn : c.NamesNoCollection) : c.RegistryEnds c.registry := by
  have henum := Enumerated.standard.addEnumerations hs hn (List.nil_append c.enumerations).symm
  rw [registry]
  cases h₀ : c.enumerations.foldlM (fun r e => r.addEnumeration e.1 e.2) Registry.standard <;>
    rw [h₀] at henum <;> cases henum
  case error.taken he ht =>
    refine .taken fun hap => ?_
    simp [hap.enumerations _ he] at ht
  case ok.all r₀ hall =>
    have hend := hall.stage.addEntities hs hn (fun _ => id) (.refl _)
    have hst := (Registry.Develops.addEnumerations Registry.standard_configured hn.1 h₀).grows
    change c.RegistryEnds (r₀.addEntities c.entities)
    cases h : r₀.addEntities c.entities <;> rw [h] at hend <;> cases hend
    case error.taken he hg => exact .taken fun hap => hap.entities _ he hg
    case error.blocked he hb hr =>
      have ⟨type, ht, hname, hg, _⟩ := hb
      subst hname
      exact .blocked he ht hg hr
    case ok.stage names hp hstage =>
      have hg := (Registry.Develops.addEntities hall.configured hn.2 h).grows
      exact .ok (hall.describes hs hst hg hstage hp) (hstage.ordered.ranked hp)

-- A configuration has a registry if and only if its names are apart and its entities can be ranked. If an
-- unknown type is reported, some attribute is of it, and it is neither given nor can it be ranked.
theorem registry_exact (hs : c.Sorted) (hn : c.NamesNoCollection) :
    ((∃ r, c.registry = .ok r) ↔ c.NamesApart ∧ c.Ranked) ∧
      (∀ r, c.registry = .ok r → c.Describes r) ∧
      ∀ name, c.registry = .error (.unknownType name) →
        (∃ e ∈ c.entities, ∃ type ∈ Dictionary.values e.2, strip type = name) ∧
          ¬c.Given name ∧ ¬c.Rankable name := by
  have hend := registry_ends hs hn
  cases h : c.registry <;> rw [h] at hend <;> cases hend
  case ok.ok r hr hd =>
    refine ⟨⟨fun _ => ⟨hd.namesApart, hr⟩, fun _ => ⟨r, rfl⟩⟩, fun r' heq => ?_, nofun⟩
    exact Except.ok.inj heq ▸ hd
  case error.taken hap => exact ⟨⟨nofun, fun ha => absurd ha.1 hap⟩, nofun, nofun⟩
  case error.blocked e type he ht hg hr =>
    refine ⟨⟨nofun, fun ha => ?_⟩, nofun, fun name heq => ?_⟩
    · exact (((ha.2.rankable he).attribute he ht).elim hg hr).elim
    · cases heq
      exact ⟨⟨e, he, type, ht, rfl⟩, hg, hr⟩

-- An entity with items of one that comes later, and with an enumeration.
def houses : Configuration where
  entities     := [("House", [("color", "Color"), ("owners", "Collection<Person>")]),
                   ("Person", [("name", "STRING")])]
  enumerations := [("Color", ["RED", "GREEN"])]
  roots        := []

theorem houses_ranked : houses.Ranked := by
  have hcolor : strip "Color" = "Color" := DataType.strip_of_none (by decide)
  have howners : strip "Collection<Person>" = "Person" := by
    have h : elementName? "Collection<Person>" = some "Person" := by decide
    rw [DataType.strip_of_some h, DataType.strip_of_none (by decide)]
  have hname : strip "STRING" = "STRING" := DataType.strip_of_none (by decide)
  refine ⟨fun name => if name = "House" then 1 else 0, fun _ => id, ?_⟩
  simp only [houses, List.forall_mem_cons, Dictionary.values_cons, hcolor, howners, hname]
  refine ⟨fun _ => ⟨.inl (by decide), .inr (by decide), nofun⟩, fun _ => ⟨.inl (by decide), nofun⟩, nofun⟩

theorem registry_exact_houses :
    (houses.Sorted ∧ houses.NamesNoCollection) ∧
      houses.NamesApart ∧ houses.Ranked ∧ ∃ r, houses.registry = .ok r ∧ houses.Describes r := by
  have hs : houses.Sorted := ⟨by decide, by decide, by decide⟩
  have hn : houses.NamesNoCollection := ⟨by decide, by decide⟩
  have hap : houses.NamesApart := ⟨by decide +kernel, by decide⟩
  have ⟨hiff, hd, _⟩ := registry_exact hs hn
  have ⟨r, hr⟩ := hiff.mpr ⟨hap, houses_ranked⟩
  exact ⟨⟨hs, hn⟩, hap, houses_ranked, r, hr, hd r hr⟩

end Configuration

end Trivalent
