import Trivalent.Proofs.Dictionary
import Trivalent.Proofs.Registry.Regular
import Trivalent.Proofs.Typing.Soundness

/-!
# Bound roots

The value of a root fits its declared type, at every depth, exactly if the JSON that it is read from has
objects in the places of entities and arrays in those of collections: JSON of another form is taken there
as it is. In all other places JSON that cannot be read as a value of the declared type is refused.
-/

namespace Trivalent

namespace Value

@[simp]
theorem ofNumber_ne_null (n : Json.Number) : ofNumber n ≠ null := by
  cases n <;> simp [ofNumber]

@[simp]
theorem ofNumber_ne_object (n : Json.Number) : ofNumber n ≠ object fields := by
  cases n <;> simp [ofNumber]

@[simp]
theorem ofNumber_ne_collection (n : Json.Number) : ofNumber n ≠ collection items := by
  cases n <;> simp [ofNumber]

end Value

-- A value fits its type if it conforms to it at every depth, the items of collections included.
inductive Fits : DataType → Value → Prop
  | null        : Fits t .null
  | basic       : t.shape = .basic → v.basicName? = some t.name → Fits t v
  | enumeration : t.shape = .enumeration constants → s ∈ constants → Fits t (.string s)
  | entity      : t.shape = .entity attributes →
                  (∀ field ∈ fields, ∀ a, t.attribute? field.1 = some a → Fits a.type field.2) →
                  Fits t (.object fields)
  | collection  : t.shape = .collection element → (∀ item ∈ items, Fits element item) →
                  Fits t (.collection items)

-- Basic types and enumerations.
def DataType.IsScalar (t : DataType) : Prop :=
  t.shape = .basic ∨ ∃ constants, t.shape = .enumeration constants

-- JSON follows a type if, at every depth, an object stands for an entity and an array for a collection,
-- unless it is null. Any JSON may stand for a scalar.
inductive Follows : DataType → Json → Prop
  | null       : Follows t .null
  | scalar     : t.IsScalar → Follows t json
  | entity     : t.shape = .entity attributes →
                 (∀ member ∈ members, ∀ a, t.attribute? member.1 = some a → Follows a.type member.2) →
                 Follows t (.object members)
  | collection : t.shape = .collection element → (∀ item ∈ items, Follows element item) →
                 Follows t (.array items)

namespace Fits

variable {t element : DataType} {v : Value}

-- To fit a type is more than to conform to it.
theorem conforms (h : Fits t v) : Conforms t v := by
  induction h
  case null                 => exact .null
  case basic hs hn          => exact .basic hs hn
  case enumeration hs hm    => exact .enumeration hs hm
  case collection hs _ _    => exact .collection hs
  case entity fields hs _ hi =>
    exact .entity hs fun name a v ha hf => hi (name, v) (Dictionary.mem_of_find? hf) a ha

theorem entity_iff (hs : t.shape = .entity attributes) :
    Fits t v ↔ v = .null ∨ ∃ fields, v = .object fields ∧
      ∀ field ∈ fields, ∀ a, t.attribute? field.1 = some a → Fits a.type field.2 := by
  constructor
  case mp =>
    intro h
    cases h
    case null        => exact .inl rfl
    case entity _ hf => exact .inr ⟨_, rfl, hf⟩
    all_goals simp_all
  case mpr =>
    rintro (rfl | ⟨fields, rfl, hf⟩)
    case inl => exact .null
    case inr => exact .entity hs hf

theorem collection_iff (hs : t.shape = .collection element) :
    Fits t v ↔ v = .null ∨ ∃ items, v = .collection items ∧ ∀ item ∈ items, Fits element item := by
  constructor
  case mp =>
    intro h
    cases h
    case null              => exact .inl rfl
    case collection hi hs' => cases hs.symm.trans hs'; exact .inr ⟨_, rfl, hi⟩
    all_goals simp_all
  case mpr =>
    rintro (rfl | ⟨items, rfl, hi⟩)
    case inl => exact .null
    case inr => exact .collection hs hi

end Fits

namespace Follows

variable {t element : DataType} {json : Json}

theorem entity_iff (hs : t.shape = .entity attributes) :
    Follows t json ↔ json = .null ∨ ∃ members, json = .object members ∧
      ∀ member ∈ members, ∀ a, t.attribute? member.1 = some a → Follows a.type member.2 := by
  constructor
  case mp =>
    intro h
    cases h
    case null        => exact .inl rfl
    case scalar hk   => simp_all [DataType.IsScalar]
    case entity _ hm => exact .inr ⟨_, rfl, hm⟩
    all_goals simp_all
  case mpr =>
    rintro (rfl | ⟨members, rfl, hm⟩)
    case inl => exact .null
    case inr => exact .entity hs hm

theorem collection_iff (hs : t.shape = .collection element) :
    Follows t json ↔ json = .null ∨ ∃ items, json = .array items ∧ ∀ item ∈ items, Follows element item := by
  constructor
  case mp =>
    intro h
    cases h
    case null              => exact .inl rfl
    case scalar hk         => simp_all [DataType.IsScalar]
    case collection hi hs' => cases hs.symm.trans hs'; exact .inr ⟨_, rfl, hi⟩
    all_goals simp_all
  case mpr =>
    rintro (rfl | ⟨items, rfl, hi⟩)
    case inl => exact .null
    case inr => exact .collection hs hi

end Follows

namespace Literal

variable {t : DataType} {json : Json} {v : Value}

theorem value_fits (ht : t.Regular) (hk : t.IsScalar) (h : value t json = .ok v) : Fits t v := by
  have h := mapError_eq_ok.mp h
  by_cases hv : v = .null
  case pos => exact hv ▸ .null
  case neg =>
    cases ht
    case basic hb => exact .basic (Standard.shape_of_mem hb) (read_basicName hb h hv)
    case enumeration hs hn =>
      have ⟨s, hm, hv⟩ := read_constant hn hs h hv
      exact hv ▸ .enumeration hs hm
    all_goals simp_all [DataType.IsScalar]

theorem form_of_shape (ht : t.name ∉ ["INTEGER", "NUMERIC", "STRING", "BOOLEAN", "TIME", "INTERVAL"])
    (hs : ∀ constants, t.shape ≠ .enumeration constants) : form t = .any := by
  simp only [List.mem_cons, List.not_mem_nil, or_false, not_or] at ht
  simp only [form]
  split <;> simp_all

-- JSON of an entity or a collection type is taken as it is.
theorem value_of_not_scalar (ht : t.Regular) (hk : ¬ t.IsScalar) : value t json = .ok (.ofJson json) := by
  simp only [DataType.IsScalar, not_or, not_exists] at hk
  have hf : form t = .any := by
    cases ht
    case basic hb             => exact absurd (Standard.shape_of_mem hb) hk.1
    case enumeration hs hn    => exact absurd hs (hk.2 _)
    case entity _ hs hn       => exact form_of_shape hn hk.2
    case collection _ hs hn   => exact form_of_shape hn hk.2
  simp only [value, read, hf]
  cases json <;> rfl

theorem hostValue_of_scalar (hk : t.IsScalar) : hostValue t json = value t json := by
  rcases hk with hs | ⟨constants, hs⟩ <;> cases json <;> simp [hostValue, hs]

theorem hostFields_cons :
    hostFields t ((name, json) :: members) =
      (match t.attribute? name with
        | some a => hostValue a.type json
        | none   => .ok (.ofJson json)) >>= fun v =>
      hostFields t members >>= fun fields => .ok ((name, v) :: fields) := by
  rw [hostFields]
  cases t.attribute? name <;> rfl

mutual

theorem hostValue_fits {t : DataType} {v : Value} (ht : t.Regular) (json : Json)
    (h : hostValue t json = .ok v) : Fits t v ↔ Follows t json := by
  by_cases hk : t.IsScalar
  case pos =>
    rw [hostValue_of_scalar hk] at h
    exact iff_of_true (value_fits ht hk h) (.scalar hk)
  case neg =>
    cases ht
    case basic hb          => exact absurd (.inl (Standard.shape_of_mem hb)) hk
    case enumeration hs hn => exact absurd (.inr ⟨_, hs⟩) hk
    case entity attributes hr hs hn =>
      have ht : t.Regular := .entity hs hn hr
      rw [Fits.entity_iff hs, Follows.entity_iff hs]
      cases json
      case object members =>
        simp only [hostValue, hs] at h
        have ⟨fields, hf, h⟩ := map_eq_ok.mp h
        subst h
        simpa using hostFields_fits ht members hf
      all_goals
        simp only [hostValue, hs, value_of_not_scalar ht hk] at h
        cases h
        simp [Value.ofJson]
    case collection e hr hs hn =>
      have ht : t.Regular := .collection hs hn hr
      rw [Fits.collection_iff hs, Follows.collection_iff hs]
      cases json
      case array items =>
        simp only [hostValue, hs] at h
        have ⟨values, hv, h⟩ := map_eq_ok.mp h
        subst h
        simpa using hostItems_fits hr items hv
      all_goals
        simp only [hostValue, hs, value_of_not_scalar ht hk] at h
        cases h
        simp [Value.ofJson]

theorem hostFields_fits {t : DataType} {fields : List (String × Value)} (ht : t.Regular)
    (members : List (String × Json)) (h : hostFields t members = .ok fields) :
    (∀ field ∈ fields, ∀ a, t.attribute? field.1 = some a → Fits a.type field.2) ↔
      ∀ member ∈ members, ∀ a, t.attribute? member.1 = some a → Follows a.type member.2 := by
  match members with
  | [] =>
    cases h
    simp
  | (name, json) :: members =>
    rw [hostFields_cons] at h
    have ⟨v, hv, h⟩ := bind_eq_ok.mp h
    have ⟨vs, hvs, h⟩ := bind_eq_ok.mp h
    cases h
    rw [List.forall_mem_cons, List.forall_mem_cons]
    refine and_congr (forall₂_congr fun a ha => ?_) (hostFields_fits ht members hvs)
    simp only [ha] at hv
    exact hostValue_fits (ht.of_attribute? ha) json hv

theorem hostItems_fits {t : DataType} {values : List Value} (ht : t.Regular) (items : List Json)
    (h : hostItems t items = .ok values) :
    (∀ v ∈ values, Fits t v) ↔ ∀ item ∈ items, Follows t item := by
  match items with
  | [] =>
    cases h
    simp
  | json :: items =>
    have ⟨v, hv, h⟩ := bind_eq_ok.mp h
    have ⟨vs, hvs, h⟩ := bind_eq_ok.mp h
    cases h
    rw [List.forall_mem_cons, List.forall_mem_cons]
    exact and_congr (hostValue_fits ht json hv) (hostItems_fits ht items hvs)

end

end Literal

-- The items with a price and a root that is a price.
def Priced.bare : Configuration :=
  { Priced.configuration with roots := [("item", ⟨"Item", .number (.integer 3)⟩)] }

namespace Configuration

variable {r : Registry} {roots roots' : Roots} {c : Configuration}

-- The name is bound to the declared type of the binding and to the value that its JSON is read as.
def Binds (r : Registry) (roots : Roots) (name : String) (b : Binding) : Prop :=
  ∃ t v, r.type? b.type = some t ∧ Literal.hostValue t b.value = .ok v ∧
    roots.type? name = some t ∧ roots.object? name = some v

theorem bindRoots_of_not_mem {bindings : Dictionary Binding} {name : String}
    (h : bindRoots r roots bindings = .ok roots') (hn : name ∉ Dictionary.keys bindings) :
    roots'.type? name = roots.type? name ∧ roots'.object? name = roots.object? name := by
  induction bindings generalizing roots
  case nil =>
    cases h
    exact ⟨rfl, rfl⟩
  case cons first bindings hi =>
    obtain ⟨t, _, h⟩ := bind_eq_ok.mp h
    obtain ⟨v, _, h⟩ := bind_eq_ok.mp h
    obtain ⟨hn, hrest⟩ : first.1 ≠ name ∧ name ∉ Dictionary.keys bindings := by
      simpa [Dictionary.keys, eq_comm] using hn
    obtain ⟨ht, ho⟩ := hi h hrest
    rw [ht, ho]
    simp [Roots.type?, Roots.object?, Roots.bind, Dictionary.find?_insert, hn]

theorem bindRoots_binds {bindings : Dictionary Binding} (hs : Dictionary.Sorted bindings)
    (h : bindRoots r roots bindings = .ok roots') (hm : (name, b) ∈ bindings) : Binds r roots' name b := by
  induction bindings generalizing roots
  case nil => contradiction
  case cons first bindings hi =>
    have ⟨t, ht, h⟩ := bind_eq_ok.mp h
    have ⟨v, hv, h⟩ := bind_eq_ok.mp h
    cases hm
    case head =>
      have hn : name ∉ Dictionary.keys bindings := (List.nodup_cons.mp hs.nodup_keys).1
      have ⟨hname, hobject⟩ := bindRoots_of_not_mem h hn
      refine ⟨t, v, Registry.requireType_eq_ok.mp (mapError_eq_ok.mp ht), hv, ?_⟩
      rw [hname, hobject]
      simp [Roots.type?, Roots.object?, Roots.bind, Dictionary.find?_insert]
    case tail hm => exact hi hs.of_cons h hm

-- All roots of a configuration are bound, and no others. Their values fit the declared types exactly if
-- the JSON follows them.
theorem bind_fits (hs : Dictionary.Sorted c.roots) (hregistry : c.registry = .ok r)
    (h : c.bind r = .ok roots) (name : String) :
    match c.roots.find? name with
    | some b => ∃ t v, r.type? b.type = some t ∧ roots.type? name = some t ∧
                  roots.object? name = some v ∧ (Fits t v ↔ Follows t b.value)
    | none   => roots.type? name = none ∧ roots.object? name = none := by
  split
  case h_1 b hb =>
    have ⟨t, v, ht, hv, hname, hobject⟩ := bindRoots_binds hs h (Dictionary.mem_of_find? hb)
    have hregular := (registry_regular hregistry).types ht
    exact ⟨t, v, ht, hname, hobject, Literal.hostValue_fits hregular b.value hv⟩
  case h_2 hn => exact bindRoots_of_not_mem h (Dictionary.find?_eq_none.mp hn)

-- Roots whose JSON follows their types conform to them.
theorem bind_conform (hs : Dictionary.Sorted c.roots) (hregistry : c.registry = .ok r)
    (h : c.bind r = .ok roots)
    (hf : ∀ e ∈ c.roots, ∀ t, r.type? e.2.type = some t → Follows t e.2.value) : roots.Conform := by
  intro name t v ht hv
  cases hb : c.roots.find? name
  case none =>
    have hn := (bindRoots_of_not_mem h (Dictionary.find?_eq_none.mp hb)).1
    cases ht.symm.trans hn
  case some b =>
    have hm := Dictionary.mem_of_find? hb
    obtain ⟨t', v', hreg, hread, ht', hv'⟩ := bindRoots_binds hs h hm
    cases ht'.symm.trans ht
    cases hv'.symm.trans hv
    have hfits := Literal.hostValue_fits ((registry_regular hregistry).types hreg) b.value hread
    exact (hfits.mpr (hf _ hm t hreg)).conforms

-- The item that has a price.
theorem bind_fits_price :
    Dictionary.Sorted Priced.configuration.roots ∧
      Priced.configuration.registry = .ok Priced.registry ∧
      Priced.configuration.bind Priced.registry = .ok Priced.roots ∧
      ∃ t v, Priced.registry.type? "Item" = some t ∧ Priced.roots.type? "item" = some t ∧
        Priced.roots.object? "item" = some v ∧
        (Fits t v ↔ Follows t (.object [("price", .number (.integer 3))])) := by
  have hs : Dictionary.Sorted Priced.configuration.roots := List.pairwise_singleton ..
  exact ⟨hs, Priced.declares, Priced.binds, bind_fits hs Priced.declares Priced.binds "item"⟩

-- Where the bare price is given for the item, it is bound as it is.
theorem bind_unfit_price :
    Priced.bare.registry = .ok Priced.registry ∧
      ∃ roots v, Priced.bare.bind Priced.registry = .ok roots ∧
        roots.type? "item" = some Priced.item ∧ roots.object? "item" = some v ∧
        ¬ Fits Priced.item v := by
  have hb : Priced.bare.bind Priced.registry = .ok ⟨[("item", Priced.item)], [("item", .integer 3)]⟩ := by
    with_unfolding_all rfl
  refine ⟨Priced.declares, _, .integer 3, hb, rfl, rfl, ?_⟩
  rw [Fits.entity_iff rfl]
  simp

end Configuration

end Trivalent
