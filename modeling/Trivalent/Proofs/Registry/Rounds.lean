import Trivalent.Proofs.Registry.Ranking

/-!
# Rounds of declarations

A stage is a registry between two entities of a round: it has the entities that are declared so far, with
all that they are made of, and no others. That collection types of other entities may be registered, too,
makes no difference to what can be declared. The rounds come to their end with all entities, or with a name
that stands for nothing that can be declared.
-/

namespace Trivalent

open DataType (strip Within elementName? collectionName elementName?_strip)

namespace Registry

variable {r r' : Registry}

-- The registry has the entity with its attributes and all the types that these are made of.
structure HasEntity (r : Registry) (name : String) (named : Dictionary String) : Prop where
  type  : ∃ attributes, r.type? name = some (.entity name attributes none none) ∧
          r.HasAttributes named attributes
  parts : ∀ type ∈ Dictionary.values named, ∀ part, Within part type → (r.type? part).isSome

theorem HasEntity.grow (h : r.HasEntity name named) (hg : r.Extends r') : r'.HasEntity name named where
  type :=
    have ⟨attributes, ht, ha⟩ := h.type
    ⟨attributes, hg _ _ ht, ha.grow hg⟩
  parts type hm part hw := hg.isSome (h.parts type hm part hw)

theorem Declared.hasEntity {name : String} {attributes : List Attribute}
    (h : r.Declared named attributes r') (hf : r'.type? name = none) :
    (r'.register (.entity name attributes none none)).HasEntity name named :=
  have hg := extends_register (t := .entity name attributes none none) hf
  ⟨⟨attributes, has_register, h.hasAttributes.grow hg⟩, fun _ hm _ hw => hg.isSome (h.parts hm hw)⟩

end Registry

namespace Configuration

-- The names that have a type in the registry of the configuration.
inductive Names (c : Configuration) : String → Prop
  | standard    : Registry.standard.type? name = some t → c.Names name
  | enumeration : e ∈ c.enumerations → c.Names e.1
  -- The collections of enumerations.
  | constants   : e ∈ c.enumerations → c.Names (collectionName e.1)
  | entity      : e ∈ c.entities → c.Names e.1
  -- The collections in the types of attributes, at any depth.
  | collection  : e ∈ c.entities → type ∈ Dictionary.values e.2 → Within name type →
                  elementName? name ≠ none → c.Names name

-- The registry while the entities of some names are declared.
structure Stage (c : Configuration) (names : List String) (r : Registry) : Prop where
  configured : r.Configured
  ordered    : c.Ordered names
  known      : ∀ name, elementName? name = none →
               ((r.type? name).isSome ↔ c.Given name ∨ name ∈ names)
  listed     : ∀ name, (r.type? name).isSome → c.Names name
  entities   : ∀ e ∈ c.entities, e.1 ∈ names → r.HasEntity e.1 e.2

namespace Stage

variable {c : Configuration} {names : List String} {r r' : Registry} {e : String × Dictionary String}

theorem known_strip (h : c.Stage names r) (type : String) :
    (r.type? (strip type)).isSome ↔ c.Given (strip type) ∨ strip type ∈ names :=
  h.known _ (elementName?_strip type)

theorem collects (h : c.Stage names r) (he : e ∈ c.entities)
    (hc : r.Collects (Dictionary.values e.2) r') : c.Stage names r' where
  configured := hc.develops.configured
  ordered    := h.ordered
  known name hn := (hc.isSome_iff hn).trans (h.known name hn)
  listed name hs := by
    cases hc.only name hs
    case inl hs => exact h.listed name hs
    case inr hw =>
      have ⟨hn, type, hm, hw⟩ := hw
      exact .collection he hm hw hn
  entities e he hm := (h.entities e he hm).grow hc.develops.grows

-- A new entity joins those that are declared.
theorem register {attributes : List Attribute} (hs : c.Sorted) (h : c.Stage names r)
    (he : e ∈ c.entities) (hm : e.1 ∉ names)
    (hk : ∀ type ∈ Dictionary.values e.2, c.Given (strip type) ∨ strip type ∈ names)
    (hf : r.type? e.1 = none) (hr : (r.register (.entity e.1 attributes none none)).Configured)
    (hn : (r.register (.entity e.1 attributes none none)).HasEntity e.1 e.2) :
    c.Stage (e.1 :: names) (r.register (.entity e.1 attributes none none)) where
  configured := hr
  ordered    := h.ordered.cons hs he hm hk
  known name hname := by
    rw [Registry.type?_register]
    split
    case isTrue heq => simp [← heq, DataType.entity]
    case isFalse hne =>
      have hne : name ≠ e.1 := fun heq => hne heq.symm
      simp [h.known name hname, hne]
  listed name hname := by
    rw [Registry.type?_register] at hname
    split at hname
    case isTrue heq => exact heq ▸ .entity he
    case isFalse    => exact h.listed name hname
  entities e' he' hm' := by
    cases List.mem_cons.mp hm'
    case inl heq => exact hs.entities.eq_of_mem he' he heq ▸ hn
    case inr hm' =>
      exact (h.entities e' he' hm').grow
        (Registry.extends_register (t := .entity e.1 attributes none none) hf)

-- Once its types are known, nothing but its name can keep an entity from being declared.
theorem addEntity (hs : c.Sorted) (hn : c.NamesNoCollection) (h : c.Stage names r)
    (he : e ∈ c.entities) (hm : e.1 ∉ names)
    (hk : ∀ type ∈ Dictionary.values e.2, (r.type? (strip type)).isSome) :
    match r.addEntity e.1 e.2 with
    | .ok r'     => c.Stage (e.1 :: names) r'
    | .error err => c.Given e.1 ∧ err = .duplicateType e.1 := by
  have ⟨attributes, r₁, hd, ha⟩ := Registry.denoteAttributes_ok h.configured hk
  have h₁ := h.collects he ha.collects
  have hadd : r.addEntity e.1 e.2 = r₁.addType (.entity e.1 attributes none none) :=
    Registry.addEntity_eq hd
  cases hf : r₁.type? e.1
  case some t =>
    have hf := Option.isSome_of_eq_some hf
    rw [hadd, Registry.addType_error hf]
    exact ⟨((h₁.known e.1 (hn.2 e he)).mp hf).resolve_right hm, rfl⟩
  case none =>
    rw [Registry.addType_ok hf] at hadd
    rw [hadd]
    have hr := (Registry.Develops.addEntity h.configured (hn.2 e he) hadd).configured
    exact h₁.register hs he hm (fun type ht => (h.known_strip type).mp (hk type ht)) hf hr
      (ha.hasEntity hf)

end Stage

-- The ends of a round: its entities are either declared or blocked. If it declares none of them, each of
-- them is blocked by an attribute.
inductive RoundEnds (c : Configuration) (names : List String) (entities : Dictionary (Dictionary String)) :
    Except DeclarationError (Registry × Registry.Blocked) → Prop
  | stage : c.Stage (declared ++ names) r →
            (declared ++ Dictionary.keys (blocked.map (·.1))).Perm (Dictionary.keys entities) →
            (∀ e ∈ blocked.map (·.1), e ∈ entities) →
            (declared = [] → ∀ b ∈ blocked, ∃ name, c.Blocks names b.1.2 name ∧ b.2 = .unknownType name) →
            RoundEnds c names entities (.ok (r, blocked))
  | taken : e ∈ entities → c.Given e.1 → RoundEnds c names entities (.error (.duplicateType e.1))

namespace RoundEnds

variable {c : Configuration} {names : List String} {entities : Dictionary (Dictionary String)}
  {x : Except DeclarationError (Registry × Registry.Blocked)}

theorem declare (h : c.RoundEnds (name :: names) entities x) :
    c.RoundEnds names ((name, named) :: entities) x := by
  cases h
  case taken he hg => exact .taken (.tail _ he) hg
  case stage declared r _ hstage hp hb _ =>
    have hstage : c.Stage (declared ++ [name] ++ names) r := by simpa using hstage
    refine .stage hstage ?_ ?_ (by simp)
    · rw [List.append_assoc, List.singleton_append]
      exact List.perm_middle.trans (hp.cons name)
    · exact fun e hm => .tail _ (hb e hm)

theorem block (hn : ∃ name, c.Blocks names named name ∧ err = .unknownType name)
    (h : c.RoundEnds names entities x) :
    c.RoundEnds names ((name, named) :: entities)
      (x >>= fun y => .ok (y.1, ((name, named), err) :: y.2)) := by
  cases h
  case taken he hg => exact .taken (.tail _ he) hg
  case stage declared r blocked hstage hp hb hall =>
    refine .stage hstage (List.perm_middle.trans (hp.cons name)) ?_ fun hnil => ?_
    · rw [List.map_cons, List.forall_mem_cons]
      exact ⟨.head _, fun e hm => .tail _ (hb e hm)⟩
    · rw [List.forall_mem_cons]
      exact ⟨hn, hall hnil⟩

end RoundEnds

namespace Stage

variable {c : Configuration} {names : List String} {r r' : Registry} {e : String × Dictionary String}

-- An entity whose types are not all known is blocked by the first one that is not.
theorem blocks (h : c.Stage names r) (hb : r.denoteAll (Dictionary.values named) = (r', some err)) :
    ∃ name, c.Blocks names named name ∧ err = .unknownType name := by
  have ⟨type, hm, hu, he⟩ := Registry.denoteAll_some h.configured hb
  have hk := (not_congr (h.known_strip type)).mp (by simp [hu])
  rw [not_or] at hk
  exact ⟨strip type, ⟨type, hm, rfl, hk⟩, he⟩

-- The induction is on the entities of the round. Those that were declared before are among the names.
theorem round {entities : Dictionary (Dictionary String)} (hs : c.Sorted) (hn : c.NamesNoCollection)
    (h : c.Stage names r) (hm : ∀ e ∈ entities, e ∈ c.entities)
    (hd : (Dictionary.keys entities ++ names).Nodup) : c.RoundEnds names entities (r.round entities) := by
  induction entities generalizing r names
  case nil =>
    have h : c.Stage ([] ++ names) r := h
    exact .stage h (.refl _) nofun nofun
  case cons e entities hi =>
    have ⟨name, named⟩ := e
    rw [List.forall_mem_cons] at hm
    rw [Dictionary.keys_cons, List.cons_append, List.nodup_cons] at hd
    have ⟨hname, hd⟩ := hd
    have hc := Registry.denoteAll_collects h.configured (Dictionary.values named)
    rw [Registry.round]
    split
    case h_1 r₁ hall =>
      rw [hall] at hc
      have hk := Registry.denoteAll_none h.configured hall
      have h₁ := (h.collects hm.1 hc).addEntity hs hn hm.1 (fun hmem => hname (by simp [hmem]))
        fun type ht => hc.develops.grows.isSome (hk type ht)
      dsimp only at h₁
      cases hadd : r₁.addEntity name named
      case error err =>
        rw [hadd] at h₁
        rw [h₁.2]
        exact .taken (.head _) h₁.1
      case ok r₂ =>
        rw [hadd] at h₁
        have hd' : (Dictionary.keys entities ++ name :: names).Nodup :=
          List.perm_middle.nodup_iff.mpr (List.nodup_cons.mpr ⟨hname, hd⟩)
        exact (hi h₁ hm.2 hd').declare
    case h_2 r₁ err hall =>
      rw [hall] at hc
      exact (hi (h.collects hm.1 hc) hm.2 hd).block (h.blocks hall)

-- When all entities that are left are blocked, what blocks them cannot be ranked.
theorem not_rankable {entities : Dictionary (Dictionary String)} (hs : c.Sorted)
    (hm : ∀ e ∈ entities, e ∈ c.entities)
    (hp : (names ++ Dictionary.keys entities).Perm (Dictionary.keys c.entities))
    (hb : ∀ e ∈ entities, ∃ name, c.Blocks names e.2 name) (hn : c.Blocks names named name) :
    ¬c.Rankable name := by
  intro hr
  have ⟨_, _, _, _, hnot⟩ := hn
  refine hnot (hr.mem_of_blocks fun e he => ?_)
  have hkey := hp.mem_iff.mpr (Dictionary.mem_keys_of_mem he)
  rw [List.mem_append, Dictionary.mem_keys] at hkey
  refine hkey.imp_right fun ⟨named, hmem⟩ => ?_
  have heq := hs.entities.eq_of_mem (hm _ hmem) he rfl
  exact heq ▸ hb _ hmem

end Stage

-- The ends of the rounds.
inductive RoundsEnd (c : Configuration) : Except DeclarationError Registry → Prop
  | stage   : names.Perm (Dictionary.keys c.entities) → c.Stage names r → RoundsEnd c (.ok r)
  | taken   : e ∈ c.entities → c.Given e.1 → RoundsEnd c (.error (.duplicateType e.1))
  | blocked : e ∈ c.entities → c.Blocks names e.2 name → ¬c.Rankable name →
              RoundsEnd c (.error (.unknownType name))

-- A round that declares an entity leaves fewer of them to the next one. One that declares none leaves all
-- of them blocked.
theorem Stage.addEntities {c : Configuration} {names : List String} {r : Registry}
    {entities : Dictionary (Dictionary String)} (hs : c.Sorted) (hn : c.NamesNoCollection)
    (h : c.Stage names r) (hm : ∀ e ∈ entities, e ∈ c.entities)
    (hp : (names ++ Dictionary.keys entities).Perm (Dictionary.keys c.entities)) :
    c.RoundsEnd (r.addEntities entities) := by
  have hd : (Dictionary.keys entities ++ names).Nodup :=
    (List.perm_append_comm.trans hp).nodup_iff.mpr hs.entities.nodup_keys
  have hround := h.round hs hn hm hd
  rw [Registry.addEntities]
  split
  case isTrue hnil =>
    rw [List.isEmpty_iff] at hnil
    subst hnil
    exact .stage (by simpa [Dictionary.keys] using hp) h
  case isFalse hne =>
    cases hx : r.round entities <;> rw [hx] at hround <;> cases hround
    case error.taken he hg => exact .taken (hm _ he) hg
    case ok.stage declared r₁ blocked hstage hp' hb hall =>
      have hlen : declared.length + blocked.length = entities.length := by
        simpa [Dictionary.keys] using hp'.length_eq
      have hm' : ∀ e ∈ blocked.map (·.1), e ∈ c.entities := fun e hmem => hm e (hb e hmem)
      have hleft : (declared ++ names ++ Dictionary.keys (blocked.map (·.1))).Perm
          (Dictionary.keys c.entities) := by
        refine (List.perm_append_comm.append_right _).trans (.trans ?_ hp)
        rw [List.append_assoc]
        exact hp'.append_left names
      change c.RoundsEnd (if blocked.length < entities.length then _ else _)
      split
      case isTrue hlt => exact addEntities hs hn hstage hm' hleft
      case isFalse hlt =>
        have hnil : declared = [] := List.eq_nil_of_length_eq_zero (by omega)
        subst hnil
        have hall := hall rfl
        have hblocked : ∀ e ∈ blocked.map (·.1), ∃ name, c.Blocks names e.2 name :=
          List.forall_mem_map.mpr fun b hmem => (hall b hmem).imp fun _ h => h.1
        split
        case h_1 => exact absurd (by simpa using hlen.symm) hne
        case h_2 =>
          obtain ⟨name, hn, he⟩ := hall _ (.head _)
          subst he
          exact .blocked (hm' _ (.head _)) hn (not_rankable hs hm' hleft hblocked hn)
termination_by entities.length
decreasing_by simpa

end Configuration

end Trivalent
