import Trivalent.Proofs.Typing.WellFormed

/-!
# Collection types

Collection types are found by their names, which other types may have taken. What is found is the collection
type unless another type was added under its name: in a configuration, unless an entity or an enumeration is
called like the collection type.
-/

namespace Trivalent

open DataType (elementName? collectionName elementName?_collectionName)

theorem DataType.collectionName_injective {a b : String} (h : collectionName a = collectionName b) : a = b := by
  have h := congrArg elementName? h
  simpa only [elementName?_collectionName, Option.some.injEq] using h

namespace Registry

variable {r start : Registry} {op : Operation} {ops : List Operation} {t : DataType} {name : String}
  {taken : String → Prop}

-- The type has the name and the shape of the collections of a registered type.
def Collection (r : Registry) (t : DataType) : Prop :=
  ∃ e, r.Has e ∧ t.name = collectionName e.name ∧ t.shape = .collection e

-- A type that is called like a collection type is one if and only if its name is not taken.
def Tells (r : Registry) (taken : String → Prop) (t : DataType) : Prop :=
  (elementName? t.name).isSome → (r.Collection t ↔ ¬taken t.name)

-- Registered types that are called like collection types are such types, and so is what is found for an
-- element, if and only if the names are not taken.
structure Collecting (r : Registry) (taken : String → Prop) : Prop where
  named   : ∀ t, r.Has t → r.Tells taken t
  found   : ∀ element, r.Has element → ∀ t, r.collectionType? element = some t →
            (t.shape = .collection element ↔ ¬taken (collectionName element.name))
  element : ∀ element, r.Has element →
            ((r.collectionOf element).1.shape = .collection element ↔ ¬taken (collectionName element.name))

theorem Collection.shape_eq {element : DataType} (h : r.Collection t) (he : r.Has element)
    (hn : t.name = collectionName element.name) : t.shape = .collection element := by
  have ⟨e, hhas, hname, hs⟩ := h
  have he' : e.name = element.name := DataType.collectionName_injective (hname.symm.trans hn)
  rw [Has, he'] at hhas
  cases hhas.symm.trans he
  exact hs

-- It is enough that taken names have types of another kind and that nothing else has.
theorem Tidy.collecting (h : r.Tidy) (ht : ∀ name, taken name → ∃ t, r.type? name = some t ∧ ¬r.Collection t)
    (hc : ∀ t, r.Has t → (elementName? t.name).isSome → r.Collection t ∨ taken t.name) :
    r.Collecting taken := by
  have named : ∀ t, r.Has t → r.Tells taken t := by
    intro t hh hn
    refine ⟨fun hcoll htaken => ?_, (hc t hh hn).resolve_right⟩
    have ⟨t', ht', hnot⟩ := ht _ htaken
    cases hh.symm.trans ht'
    exact hnot hcoll
  have found : ∀ element, r.Has element → ∀ t, r.collectionType? element = some t →
      (t.shape = .collection element ↔ ¬taken (collectionName element.name)) := by
    intro element he t hf
    have hname : t.name = collectionName element.name := h.named _ _ hf
    have hsome : (elementName? t.name).isSome := by simp [hname, elementName?_collectionName]
    rw [← hname, ← named t (h.has hf) hsome]
    exact ⟨fun hs => ⟨element, he, hname, hs⟩, fun hcoll => hcoll.shape_eq he hname⟩
  refine ⟨named, found, fun element he => ?_⟩
  rcases r.collectionOf_eq element with ⟨t, hf, heq⟩ | ⟨hn, heq⟩ <;> rw [heq]
  case inl => exact found element he t hf
  case inr =>
    refine ⟨fun _ htaken => ?_, fun _ => rfl⟩
    have ⟨_, hf, _⟩ := ht _ htaken
    cases hn.symm.trans hf

/-! ## Where types come from -/

theorem perform_origin (h : (r.perform op).2.type? name = some t) :
    r.type? name = some t ∨ op.entry? = some (.type t) := by
  rw [perform_registry] at h
  cases he : op.entry? <;> rw [he, Option.elim] at h
  case none   => exact .inl h
  case some e =>
    rw [type?_enter, Option.or_eq_some_iff] at h
    cases e <;> grind [Entry.type?]

-- What is registered was there before or came of an operation.
theorem run_origin (h : (r.run ops).type? name = some t) :
    r.type? name = some t ∨ ∃ op ∈ ops, op.entry? = some (.type t) := by
  induction ops generalizing r
  case nil => exact .inl h
  case cons op ops hi =>
    rcases hi h with h | ⟨op', hm, he⟩
    case inr => exact .inr ⟨op', .tail _ hm, he⟩
    case inl => exact (perform_origin h).imp_right fun he => ⟨op, .head _, he⟩

-- The types that operations are given are registered when they are done.
theorem has_of_given (ht : start.Tidy) (hc : start.Closed) (hs : start.Sourced ops) (hop : op ∈ ops)
    (hg : t ∈ op.given) : (start.run ops).Has t := by
  have ⟨before, after, hops⟩ := List.append_of_mem hop
  have hb : start.Sourced before := fun b o a h => hs b o (a ++ op :: after) (by simp [hops, h])
  have ⟨hclosed, ha⟩ := run_closed ht hc hb
  have ⟨a, ham, s, hsm, hh⟩ := hs before op after hops t hg
  rw [hops, run_append]
  exact (run_retains _ _).types.has (hclosed.holds (ha a ham s hsm) hh)

theorem collection_of_standard (h : Registry.standard.Has t) (hn : (elementName? t.name).isSome)
    (ops : List Operation) : (Registry.standard.run ops).Collection t := by
  cases (mem_standard h).2
  case inl ht => simp [Standard.elementName?_of_mem ht] at hn
  case inr ht =>
    have ⟨e, he, ht⟩ := ht
    exact ⟨e, (run_retains _ ops).types.has (standard_has he), ht ▸ rfl, ht ▸ rfl⟩

-- Building starts without types that are called like collection types and are none.
theorem collection_or_entered (hstart : start = .empty ∨ start = .standard) (h : (start.run ops).Has t)
    (hn : (elementName? t.name).isSome) :
    (start.run ops).Collection t ∨ ∃ op ∈ ops, op.entry? = some (.type t) := by
  rcases run_origin h with h | h
  case inr => exact .inr h
  case inl =>
    cases hstart <;> subst start
    case inl => contradiction
    case inr => exact .inl (collection_of_standard h hn ops)

-- The collection types of registered types are such types. All others have been added.
theorem collection_or_added (hstart : start = .empty ∨ start = .standard) (hs : start.Sourced ops)
    (h : (start.run ops).Has t) (hn : (elementName? t.name).isSome) :
    (start.run ops).Collection t ∨ .addType t ∈ ops := by
  rcases collection_or_entered hstart h hn with h | ⟨op, hop, he⟩
  case inl => exact .inl h
  case inr =>
    have ⟨htidy, hclosed⟩ := building hstart
    cases op <;> cases he
    case addType      => exact .inr hop
    case collectionOf e => exact .inl ⟨e, has_of_given htidy hclosed hs hop (.head _), rfl, rfl⟩

-- The name has been given to one of the types, which is not the collection type that it says.
def Mistaken (r : Registry) (added : DataType → Prop) (name : String) : Prop :=
  ∃ t, added t ∧ r.type? name = some t ∧ ¬r.Collection t

theorem Tidy.collecting_of_added {added : DataType → Prop} (h : r.Tidy)
    (hc : ∀ t, r.Has t → (elementName? t.name).isSome → r.Collection t ∨ added t) :
    r.Collecting (r.Mistaken added) := by
  apply h.collecting
  case ht => exact fun _ ⟨t, _, hf, hnot⟩ => ⟨t, hf, hnot⟩
  case hc =>
    intro t hh hn
    by_cases hcoll : r.Collection t
    case pos => exact .inl hcoll
    case neg => exact .inr ⟨t, (hc t hh hn).resolve_left hcoll, hh, hcoll⟩

end Registry

namespace Configuration

variable {c : Configuration} {r : Registry} {t : DataType}

-- In a configuration the names of the enumerations and of the entities are taken.
theorem registry_collecting (h : c.registry = .ok r) : r.Collecting c.Declares := by
  apply (registry_built h).tidy.collecting
  case hc =>
    intro t ht hn
    have ⟨ops, hr, hs, ha, _⟩ := registry_built h
    subst hr
    exact (Registry.collection_or_added (.inr rfl) hs ht hn).imp_right (ha t)
  case ht =>
    intro name hd
    have ⟨t, ht, hk⟩ := registry_hasDeclared h hd
    refine ⟨t, ht, fun ⟨_, _, _, hs⟩ => ?_⟩
    simp [DataType.kind, hs, Shape.kind] at hk

end Configuration

-- Where a registry is being built, and in the registries of configurations with all that refers to them, types
-- that are called like collection types are such types if and only if the name has not been given to another
-- type. Only additions and handles of other registries can do so, and in configurations only declarations.
theorem Registry.collections_exact (r : Registry) :
    (∀ (start : Registry) ops, (start = .empty ∨ start = .standard) → start.run ops = r →
      r.Collecting (r.Mistaken fun t => ∃ op ∈ ops, op.entry? = some (.type t)) ∧
      (start.Sourced ops → r.Collecting (r.Mistaken fun t => .addType t ∈ ops))) ∧
    ∀ c : Configuration, c.registry = .ok r →
      r.Collecting c.Declares ∧
      (∀ s t, r.Has s → s.Holds t → r.Tells c.Declares t) ∧
      ∀ roots (d : Document) e, c.bind r = .ok roots → d.resolve r roots = .ok e →
        ∀ n ∈ e.nodes, r.Tells c.Declares n.type := by
  constructor
  case left =>
    intro start ops hstart hr
    subst hr
    have htidy := (building hstart).1.run ops
    constructor
    · exact htidy.collecting_of_added fun _ => collection_or_entered hstart
    · exact fun hs => htidy.collecting_of_added fun _ => collection_or_added hstart hs
  case right =>
    intro c h
    have hc := c.registry_collecting h
    refine ⟨hc, fun s t hs ht => ?_, fun roots d e hb hd n hn => ?_⟩
    · exact hc.named t ((c.registry_built h).closed.holds hs ht)
    · exact hc.named n.type (Document.resolve_wellFormed h hb hd n hn).type

-- A shop with items.
namespace Stocked

def item : DataType :=
  .entity "Item" [] none none

def items : DataType :=
  .collection item none none

def shop : DataType :=
  .entity "Shop" [.declare "items" items (some .field) none] none none

def configuration : Configuration where
  entities     := [("Item", []), ("Shop", [("items", "Collection<Item>")])]
  enumerations := []
  roots        := [("shop", ⟨"Shop", .object [("items", .array [])]⟩)]

def registry : Registry :=
  ((Registry.standard.register item).register items).register shop

def roots : Roots where
  types   := [("shop", shop)]
  objects := [("shop", .object [("items", .collection [])])]

-- The name of the collection type is that of an entity.
def counted : Configuration where
  entities     := [("Collection<Item>", [("size", "INTEGER")]), ("Item", [])]
  enumerations := []
  roots        := [("items", ⟨"Collection<Item>", .object [("size", .number (.integer 3))]⟩)]

def count : DataType :=
  .entity "Collection<Item>" [.declare "size" Standard.integer (some .field) none] none none

end Stocked

namespace Registry

open Stocked

-- There are collections of people in the census and collections of items in the shop.
theorem collections_exact_stocked :
    Registry.standard.Sourced census ∧ (Registry.standard.run census).Has person ∧
      ((Registry.standard.run census).collectionOf person).1.shape = .collection person ∧
      configuration.registry = .ok registry ∧ configuration.bind registry = .ok roots ∧
      registry.Has item ∧ (registry.collectionOf item).1.shape = .collection item ∧
      ∃ e, (Document.isEmpty (.path "shop" ["items"]) false).resolve registry roots = .ok e ∧
        (∀ n ∈ e.nodes, n.type.name = "Collection<Item>" → registry.Collection n.type) ∧
        ∃ n ∈ e.nodes, n.type.name = "Collection<Item>" := by
  have ⟨hbuilding, _⟩ := collections_exact (Registry.standard.run census)
  have hcensus := (hbuilding _ census (.inr rfl) rfl).2 census_sourced
  have hdeclares : configuration.registry = .ok registry := by with_unfolding_all rfl
  have hbinds : configuration.bind registry = .ok roots := by with_unfolding_all rfl
  have ⟨hshop, _, hnodes⟩ := (collections_exact registry).2 configuration hdeclares
  let path := Expression.path ⟨items, "shop", [⟨"Shop", "items", items, some .field, none⟩]⟩
  have he : (Document.isEmpty (.path "shop" ["items"]) false).resolve registry roots =
      .ok (.isEmpty Standard.boolean path false) := by
    with_unfolding_all rfl
  have hperson : ¬(Registry.standard.run census).Mistaken (.addType · ∈ census) "Collection<Person>" := by
    rintro ⟨t, hadded, ht, hnot⟩
    cases (rfl : (Registry.standard.run census).type? "Collection<Person>" = some people).symm.trans ht
    exact hnot ⟨person, rfl, rfl, rfl⟩
  have hitem : ¬configuration.Declares "Collection<Item>" := by decide
  refine ⟨census_sourced, rfl, (hcensus.element person rfl).mpr hperson, hdeclares, hbinds, rfl,
    (hshop.element item rfl).mpr hitem, _, he, fun n hn hname => ?_, path, ?_, rfl⟩
  case refine_1 =>
    have hn := hnodes roots _ _ hbinds he n hn
    rw [Tells, hname] at hn
    exact (hn rfl).mpr hitem
  case refine_2 => simp [Expression.nodes_eq, Expression.children, path]

-- If an entity has the name of the collections of items, then it is taken for them.
theorem collections_mistaken :
    ∃ r, counted.registry = .ok r ∧ r.Has item ∧ r.collectionType? item = some count ∧
      (r.collectionOf item).1 = count ∧ count.kind = .entity ∧ ∀ t, count.shape ≠ .collection t := by
  have h : counted.registry = .ok ((Registry.standard.register count).register item) := by
    with_unfolding_all rfl
  exact ⟨_, h, rfl, rfl, rfl, rfl, nofun⟩

end Registry

end Trivalent
