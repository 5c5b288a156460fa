import Trivalent.Proofs.Configuration.Sorted
import Trivalent.Proofs.Registry.Denoting

/-!
# Ranks of entities

Entities can be ranked if their attributes refer to each other in no circle. Whatever can be ranked is
declared once nothing more can be: of the entities that are left over each refers to one that is left
over, too.
-/

namespace Trivalent

namespace Configuration

open DataType (strip)

-- The name of a builtin type or of an enumeration.
def Given (c : Configuration) (name : String) : Prop :=
  (Registry.standard.type? name).isSome ∨ name ∈ Dictionary.keys c.enumerations

instance : Decidable (Given c name) :=
  inferInstanceAs (Decidable (_ ∨ _))

-- No entity or enumeration has the name of a builtin type, and no entity that of an enumeration.
structure NamesApart (c : Configuration) : Prop where
  enumerations : ∀ e ∈ c.enumerations, Registry.standard.type? e.1 = none
  entities     : ∀ e ∈ c.entities, ¬c.Given e.1

-- The attributes of the entities of the given names are, but for their collections, of given types or
-- of entities among them that have lower ranks.
structure Ranks (c : Configuration) (names : List String) (rank : String → Nat) : Prop where
  declared : ∀ name ∈ names, name ∈ Dictionary.keys c.entities
  lower    : ∀ e ∈ c.entities, e.1 ∈ names → ∀ type ∈ Dictionary.values e.2,
             c.Given (strip type) ∨ strip type ∈ names ∧ rank (strip type) < rank e.1

-- All of the entities can be ranked.
def Ranked (c : Configuration) : Prop :=
  ∃ rank, c.Ranks (Dictionary.keys c.entities) rank

-- The name of an entity that can be ranked, together with the entities that it depends on.
def Rankable (c : Configuration) (name : String) : Prop :=
  ∃ names rank, c.Ranks names rank ∧ name ∈ names

-- An attribute of the entity is neither of a given type nor of an entity of one of the names.
def Blocks (c : Configuration) (names : List String) (named : Dictionary String) (name : String) : Prop :=
  ∃ type ∈ Dictionary.values named, strip type = name ∧ ¬c.Given name ∧ name ∉ names

variable {c : Configuration} {names : List String} {rank : String → Nat}

theorem Ranked.rankable (h : c.Ranked) (he : e ∈ c.entities) : c.Rankable e.1 :=
  have ⟨rank, h⟩ := h
  ⟨_, rank, h, Dictionary.mem_keys_of_mem he⟩

-- Each type of a rankable entity is given or rankable.
theorem Rankable.attribute (h : c.Rankable e.1) (he : e ∈ c.entities)
    (ht : type ∈ Dictionary.values e.2) : c.Given (strip type) ∨ c.Rankable (strip type) := by
  have ⟨names, rank, hr, hm⟩ := h
  exact (hr.lower e he hm type ht).imp_right fun hl => ⟨names, rank, hr, hl.1⟩

-- An entity of least rank is not blocked. So if all entities but those of the names are, then none but
-- those can be ranked.
theorem Rankable.mem_of_blocks (hb : ∀ e ∈ c.entities, e.1 ∈ names ∨ ∃ name, c.Blocks names e.2 name)
    (h : c.Rankable name) : name ∈ names := by
  have ⟨ranked, rank, hr, hm⟩ := h
  induction hk : rank name using Nat.strongRecOn generalizing name
  case ind k hi =>
    have ⟨named, he⟩ := Dictionary.mem_keys.mp (hr.declared name hm)
    cases hb _ he
    case inl hn => exact hn
    case inr hn =>
      have ⟨other, type, ht, hto, hg, ho⟩ := hn
      subst hto
      have ⟨hm', hlt⟩ := (hr.lower _ he hm type ht).resolve_left hg
      exact absurd (hi _ (hk ▸ hlt) ⟨ranked, rank, hr, hm'⟩ hm' rfl) ho

-- The ranks are those of an order in which each entity comes after what it depends on.
def Ordered (c : Configuration) (names : List String) : Prop :=
  ∃ rank, c.Ranks names rank ∧ ∀ name ∈ names, rank name < names.length

namespace Ordered

theorem nil : c.Ordered [] :=
  ⟨fun _ => 0, ⟨nofun, nofun⟩, nofun⟩

theorem cons (hs : c.Sorted) (h : c.Ordered names) (he : e ∈ c.entities) (hn : e.1 ∉ names)
    (ht : ∀ type ∈ Dictionary.values e.2, c.Given (strip type) ∨ strip type ∈ names) :
    c.Ordered (e.1 :: names) := by
  have ⟨rank, hr, hlt⟩ := h
  have hrank (name) (hm : name ∈ names) : Function.update rank e.1 names.length name = rank name :=
    Function.update_of_ne (ne_of_mem_of_not_mem hm hn) ..
  refine ⟨Function.update rank e.1 names.length, ⟨?declared, ?lower⟩, ?bound⟩
  case declared =>
    rw [List.forall_mem_cons]
    exact ⟨Dictionary.mem_keys_of_mem he, hr.declared⟩
  case lower =>
    intro e' he' hm type htype
    cases List.mem_cons.mp hm
    case inl heq =>
      cases hs.entities.eq_of_mem he' he heq
      refine (ht type htype).imp_right fun hm => ⟨.tail _ hm, ?_⟩
      rw [hrank _ hm, Function.update_self]
      exact hlt _ hm
    case inr hm =>
      refine (hr.lower e' he' hm type htype).imp_right fun ⟨hm', hl⟩ => ⟨.tail _ hm', ?_⟩
      rwa [hrank _ hm', hrank _ hm]
  case bound =>
    rw [List.forall_mem_cons, Function.update_self]
    refine ⟨Nat.lt_succ_self _, fun name hm => ?_⟩
    rw [hrank name hm]
    exact Nat.lt_succ_of_lt (hlt name hm)

-- An order of all of the entities ranks them.
theorem ranked (h : c.Ordered names) (hp : names.Perm (Dictionary.keys c.entities)) : c.Ranked := by
  have ⟨rank, hr, _⟩ := h
  refine ⟨rank, fun _ hm => hm, fun e he hm type ht => ?_⟩
  simp only [← hp.mem_iff] at hm ⊢
  exact hr.lower e he hm type ht

end Ordered

end Configuration

end Trivalent
