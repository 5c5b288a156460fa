import Trivalent.Configuration.Declaration
import Trivalent.Proofs.Outcome

/-!
# Growing registries

To declare the types of a configuration is to register one type after the other, each of them under a name
that is not taken. What every one of these steps keeps, the whole declaration keeps.
-/

namespace Trivalent.Registry

-- The registry has the type under the name of the type.
def Has (r : Registry) (t : DataType) : Prop :=
  r.type? t.name = some t

-- What `r` has under a name, `r'` has under this name too.
def Extends (r r' : Registry) : Prop :=
  ∀ name t, r.type? name = some t → r'.type? name = some t

-- The registry with one more type. Types that it had stay as they are.
def register (r : Registry) (t : DataType) : Registry :=
  { r with types := r.types.insert t.name t }

-- The properties `P` of registries that are kept while types are registered. What a name denotes on the way
-- satisfies `Q`. Enumerations and entities only have names that are allowed.
structure Invariant (allowed : String → Prop) (P : Registry → Prop) (Q : Registry → DataType → Prop) :
    Prop where
  found       : P r → r.type? name = some t → Q r t
  grow        : r.Extends r' → Q r t → Q r' t
  enumeration : P r → allowed name → r.type? name = none →
                P (r.register (.enumeration name constants (some .enumeration) none))
  entity      : P r → allowed name → r.type? name = none →
                (∀ a ∈ attributes, Q r a.type ∧ a.accessor = some .field ∧ a.adapter = none) →
                P (r.register (.entity name attributes none none))
  collection  : P r → Q r t → r.type? (DataType.collectionName t.name) = none →
                P (r.register (.collection t none none))

variable {r r' r₁ r₂ r₃ : Registry} {t : DataType}

namespace Extends

theorem refl (r : Registry) : r.Extends r :=
  fun _ _ h => h

theorem trans (h₁ : r₁.Extends r₂) (h₂ : r₂.Extends r₃) : r₁.Extends r₃ :=
  fun _ _ h => h₂ _ _ (h₁ _ _ h)

theorem has (h : r.Extends r') (ht : r.Has t) : r'.Has t :=
  h _ _ ht

theorem isSome (h : r.Extends r') (hs : (r.type? name).isSome) : (r'.type? name).isSome :=
  have ⟨_, ht⟩ := Option.isSome_iff_exists.mp hs
  Option.isSome_of_eq_some (h _ _ ht)

end Extends

theorem type?_register (name : String) :
    (r.register t).type? name = if t.name = name then some t else r.type? name :=
  Dictionary.find?_insert r.types

theorem extends_register (hn : r.type? t.name = none) : r.Extends (r.register t) := by
  intro name t' h
  rw [type?_register, if_neg]
  case hnc => rintro rfl; simp [hn] at h
  exact h

theorem has_register : (r.register t).Has t := by
  rw [Has, type?_register, if_pos rfl]

theorem addType_eq_ok : r.addType t = .ok r' ↔ r.type? t.name = none ∧ r.register t = r' := by
  unfold addType Dictionary.contains
  split
  case isTrue h =>
    refine ⟨nofun, fun ⟨hn, _⟩ => ?_⟩
    rw [type?] at hn
    simp [hn] at h
  case isFalse h => simp_all [type?, register]

namespace Invariant

variable {allowed : String → Prop} {P : Registry → Prop} {Q : Registry → DataType → Prop}

theorem collectionOf (hi : Invariant allowed P Q) (hp : P r) (hq : Q r t) :
    (r.Extends (r.collectionOf t).2 ∧ P (r.collectionOf t).2) ∧
      Q (r.collectionOf t).2 (r.collectionOf t).1 := by
  simp only [Registry.collectionOf, collectionType?]
  split
  case h_1 t' ht => exact ⟨⟨.refl r, hp⟩, hi.found hp ht⟩
  case h_2 hn =>
    have hp' := hi.collection hp hq hn
    exact ⟨⟨extends_register hn, hp'⟩, hi.found hp' has_register⟩

theorem denote {r r' : Registry} {t : DataType} {name : String} (hi : Invariant allowed P Q) (hp : P r)
    (h : r.denote name = .ok (t, r')) : (r.Extends r' ∧ P r') ∧ Q r' t := by
  rw [Registry.denote] at h
  split at h
  case h_1 element hn =>
    obtain ⟨⟨t', r''⟩, h', h⟩ := bind_eq_ok.mp h
    have := DataType.length_elementName?_lt hn
    obtain ⟨⟨hg, hp'⟩, hq⟩ := denote hi hp h'
    obtain ⟨⟨hg', hp''⟩, hq'⟩ := hi.collectionOf hp' hq
    have h : r''.collectionOf t' = (t, r') := Except.ok.inj h
    rw [h] at hg' hp'' hq'
    exact ⟨⟨hg.trans hg', hp''⟩, hq'⟩
  case h_2 =>
    obtain ⟨t', h', h⟩ := bind_eq_ok.mp h
    cases h
    simp only [requireType] at h'
    split at h'
    case h_1 ht =>
      cases h'
      exact ⟨⟨.refl r, hp⟩, hi.found hp ht⟩
    case h_2 => contradiction
termination_by name.length

theorem denoteAll (hi : Invariant allowed P Q) (hp : P r) (names : List String) :
    r.Extends (r.denoteAll names).1 ∧ P (r.denoteAll names).1 := by
  induction names generalizing r
  case nil => exact ⟨.refl r, hp⟩
  case cons name names ih =>
    rw [Registry.denoteAll]
    split
    case h_1 h =>
      have ⟨⟨hg, hp'⟩, _⟩ := hi.denote hp h
      have ⟨hg', hp''⟩ := ih hp'
      exact ⟨hg.trans hg', hp''⟩
    case h_2 => exact ⟨.refl r, hp⟩

theorem denoteAttributes {named : List (String × String)} (hi : Invariant allowed P Q) (hp : P r)
    (h : r.denoteAttributes named = .ok (attributes, r')) :
    (r.Extends r' ∧ P r') ∧
      ∀ a ∈ attributes, Q r' a.type ∧ a.accessor = some .field ∧ a.adapter = none := by
  induction named generalizing r attributes
  case nil =>
    cases h
    exact ⟨⟨.refl _, hp⟩, by simp⟩
  case cons first named ih =>
    have ⟨⟨t, r₁⟩, h₁, h⟩ := bind_eq_ok.mp h
    have ⟨⟨rest, r₂⟩, h₂, h⟩ := bind_eq_ok.mp h
    cases h
    have ⟨⟨hg₁, hp₁⟩, hq⟩ := hi.denote hp h₁
    have ⟨⟨hg₂, hp₂⟩, ha⟩ := ih hp₁ h₂
    refine ⟨⟨hg₁.trans hg₂, hp₂⟩, ?_⟩
    simp only [List.mem_cons, forall_eq_or_imp]
    exact ⟨⟨hi.grow hg₂ hq, rfl, rfl⟩, ha⟩

theorem addEnumeration {name : String} (hi : Invariant allowed P Q) (hp : P r) (ha : allowed name)
    (h : r.addEnumeration name constants = .ok r') : r.Extends r' ∧ P r' := by
  have ⟨r₁, h₁, h⟩ := bind_eq_ok.mp h
  have ⟨hn, hr⟩ := addType_eq_ok.mp h₁
  cases h
  have hp₁ : P r₁ := hr ▸ hi.enumeration hp ha hn
  have hg : r.Extends r₁ := hr ▸ extends_register hn
  have hq : Q r₁ (.enumeration name constants (some .enumeration) none) :=
    hi.found hp₁ (hr ▸ has_register)
  have ⟨⟨hg', hp'⟩, _⟩ := hi.collectionOf hp₁ hq
  exact ⟨hg.trans hg', hp'⟩

theorem addEnumerations {enumerations : Dictionary (List String)} (hi : Invariant allowed P Q) (hp : P r)
    (ha : ∀ e ∈ enumerations, allowed e.1)
    (h : enumerations.foldlM (fun r e => r.addEnumeration e.1 e.2) r = .ok r') : r.Extends r' ∧ P r' := by
  induction enumerations generalizing r
  case nil =>
    cases h
    exact ⟨.refl _, hp⟩
  case cons first enumerations ih =>
    simp only [List.mem_cons, forall_eq_or_imp] at ha
    rw [List.foldlM_cons] at h
    obtain ⟨r₁, h₁, h⟩ := bind_eq_ok.mp h
    obtain ⟨hg, hp₁⟩ := hi.addEnumeration hp ha.1 h₁
    obtain ⟨hg', hp'⟩ := ih hp₁ ha.2 h
    exact ⟨hg.trans hg', hp'⟩

theorem addEntity {name : String} (hi : Invariant allowed P Q) (hp : P r) (ha : allowed name)
    (h : r.addEntity name attributes = .ok r') : r.Extends r' ∧ P r' := by
  have ⟨⟨attributes, r₁⟩, h₁, h⟩ := bind_eq_ok.mp h
  have ⟨⟨hg, hp₁⟩, hq⟩ := hi.denoteAttributes hp h₁
  have ⟨hn, hr⟩ := addType_eq_ok.mp h
  exact ⟨hg.trans (hr ▸ extends_register hn), hr ▸ hi.entity hp₁ ha hn hq⟩

-- The entities that a round leaves are among those that it was given.
theorem round {entities : Dictionary (Dictionary String)} (hi : Invariant allowed P Q) (hp : P r)
    (ha : ∀ e ∈ entities, allowed e.1) (h : r.round entities = .ok (r', blocked)) :
    (r.Extends r' ∧ P r') ∧ ∀ b ∈ blocked, b.1 ∈ entities := by
  induction entities generalizing r blocked
  case nil =>
    cases h
    exact ⟨⟨.refl _, hp⟩, by simp⟩
  case cons first entities ih =>
    obtain ⟨name, attributes⟩ := first
    simp only [List.mem_cons, forall_eq_or_imp] at ha
    have hd := hi.denoteAll hp (Dictionary.values attributes)
    rw [Registry.round] at h
    split at h
    case h_1 r₁ hall =>
      obtain ⟨r₂, h₂, h⟩ := bind_eq_ok.mp h
      rw [hall] at hd
      obtain ⟨hg₂, hp₂⟩ := hi.addEntity hd.2 ha.1 h₂
      obtain ⟨⟨hg₃, hp₃⟩, hb⟩ := ih hp₂ ha.2 h
      exact ⟨⟨hd.1.trans (hg₂.trans hg₃), hp₃⟩, fun b hm => List.mem_cons_of_mem _ (hb b hm)⟩
    case h_2 r₁ _ hall =>
      obtain ⟨⟨r₂, rest⟩, h₂, h⟩ := bind_eq_ok.mp h
      cases h
      rw [hall] at hd
      obtain ⟨⟨hg₂, hp₂⟩, hb⟩ := ih hd.2 ha.2 h₂
      refine ⟨⟨hd.1.trans hg₂, hp₂⟩, ?_⟩
      simp only [List.mem_cons, forall_eq_or_imp, true_or, true_and]
      exact fun b hm => .inr (hb b hm)

theorem addEntities {r r' : Registry} {entities : Dictionary (Dictionary String)}
    (hi : Invariant allowed P Q) (hp : P r) (ha : ∀ e ∈ entities, allowed e.1)
    (h : r.addEntities entities = .ok r') : r.Extends r' ∧ P r' := by
  rw [Registry.addEntities] at h
  split at h
  case isTrue =>
    cases h
    exact ⟨.refl r, hp⟩
  case isFalse =>
    have ⟨⟨r₁, blocked⟩, h₁, h⟩ := bind_eq_ok.mp h
    have ⟨⟨hg, hp₁⟩, hb⟩ := hi.round hp ha h₁
    dsimp only at h
    split at h
    case isTrue hl =>
      have hl : (blocked.map (·.1)).length < entities.length := by simpa
      have ha' : ∀ e ∈ blocked.map (·.1), allowed e.1 := by
        simp only [List.mem_map, forall_exists_index, and_imp, forall_apply_eq_imp_iff₂]
        exact fun b hm => ha _ (hb b hm)
      have ⟨hg', hp'⟩ := addEntities hi hp₁ ha' h
      exact ⟨hg.trans hg', hp'⟩
    case isFalse =>
      split at h
      case h_1 =>
        cases h
        exact ⟨hg, hp₁⟩
      case h_2 => contradiction
termination_by entities.length

-- The names of a configuration are allowed if those of its enumerations and entities are.
theorem registry {c : Configuration} (hi : Invariant allowed P Q) (hp : P Registry.standard)
    (henum : ∀ e ∈ c.enumerations, allowed e.1) (hentity : ∀ e ∈ c.entities, allowed e.1)
    (h : c.registry = .ok r) : P r := by
  have ⟨r', h', h⟩ := bind_eq_ok.mp h
  have hp' := (hi.addEnumerations hp henum h').2
  exact (hi.addEntities hp' hentity h).2

end Invariant

end Trivalent.Registry
