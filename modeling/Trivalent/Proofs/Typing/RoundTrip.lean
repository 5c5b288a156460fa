import Trivalent.Proofs.Registry.Entries
import Trivalent.Proofs.TimeOfDay
import Trivalent.Proofs.Typing.Hosted

/-!
# Values through JSON

Writing a value as JSON does not tell its type, reading it back does what the type says. Both agree, at every
depth, on what fits the type and is exact in JSON. Only intervals are written in another form than they are
read in.
-/

namespace Trivalent

-- JSON has no other doubles than finite ones, and the text of a time no parts of seconds.
def Value.IsExact : Value → Prop
  | numeric x => x.isFinite
  | time t    => secondNanos ∣ t.nanos
  | _         => True

-- A value that fits its type and is exact, without fields that the type does not declare, at every depth.
inductive Portable : DataType → Value → Prop
  | null        : Portable t .null
  | basic       : t.shape = .basic → v.basicName? = some t.name → v.IsExact → Portable t v
  | enumeration : t.shape = .enumeration constants → s ∈ constants → Portable t (.string s)
  | entity      : t.shape = .entity attributes →
                  (∀ field ∈ fields, (t.attribute? field.1).isSome) →
                  (∀ field ∈ fields, ∀ a, t.attribute? field.1 = some a → Portable a.type field.2) →
                  Portable t (.object fields)
  | collection  : t.shape = .collection element → (∀ item ∈ items, Portable element item) →
                  Portable t (.collection items)

-- To be portable is more than to fit.
theorem Portable.fits (h : Portable t v) : Fits t v := by
  induction h
  case null                 => exact .null
  case basic hs hn _        => exact .basic hs hn
  case enumeration hs hm    => exact .enumeration hs hm
  case entity hs _ _ hi     => exact .entity hs hi
  case collection hs _ hi   => exact .collection hs hi

theorem Portable.object (hs : t.shape = .entity attributes)
    (h : ∀ field ∈ fields, ∃ a, t.attribute? field.1 = some a ∧ Portable a.type field.2) :
    Portable t (.object fields) := by
  apply Portable.entity hs
  · intro field hf
    have ⟨a, ha, _⟩ := h field hf
    simp [ha]
  · intro field hf a ha
    have ⟨b, hb, hp⟩ := h field hf
    cases ha.symm.trans hb
    exact hp

-- What a part of the type holds, the type holds.
theorem DataType.Holds.of_part {s t p : DataType} (h : p.Holds s) (hp : p ∈ t.parts) : t.Holds s := by
  induction h
  case self         => exact .part .self hp
  case part _ hq hi => exact .part hi hq

namespace Literal

variable {t : DataType} {v : Value}

theorem value_toJson_basic (ht : t ∈ Standard.basics) (hi : t ≠ Standard.interval)
    (hn : v.basicName? = some t.name) (he : v.IsExact) : value t v.toJson = .ok v := by
  apply mapError_eq_ok.mpr
  cases Standard.Basic.of_mem ht <;> cases v
  case integer.integer => rfl
  case string.string   => rfl
  case boolean.boolean => rfl
  case numeric.numeric x =>
    have hx : Json.Number.ofFloat? x = some (.float x he) := dif_pos he
    simp only [Value.toJson, hx]
    rfl
  case time.time s =>
    change readTime (.string s.text) = .ok (.time s)
    simp only [readTime, TimeOfDay.ofText_text he]
    rfl
  case interval.interval => contradiction
  all_goals simp [Value.basicName?, Standard.integer, Standard.numeric, Standard.string, Standard.boolean,
    Standard.time, Standard.interval, DataType.basic] at hn

theorem value_toJson_constant (hs : t.shape = .enumeration constants)
    (hn : t.name ∉ Standard.basics.map (·.name)) (hm : s ∈ constants) :
    value t (Value.string s).toJson = .ok (.string s) := by
  apply mapError_eq_ok.mpr
  have hf : form t = .constant constants := form_enumeration hn hs
  simp only [read, Value.toJson, Json.isNull, hf]
  exact if_pos hm

-- The fields of an object that have attributes are read along their types.
theorem hostFields_toJson {fields : List (String × Value)}
    (h : ∀ field ∈ fields, ∃ a, t.attribute? field.1 = some a ∧
      hostValue a.type field.2.toJson = .ok field.2) :
    hostFields t (Value.toJsonMembers fields) = .ok fields := by
  induction fields
  case nil => rfl
  case cons field fields hi =>
    have ⟨name, v⟩ := field
    simp only [List.forall_mem_cons] at h
    have ⟨⟨a, ha, hv⟩, hrest⟩ := h
    simp only [Value.toJsonMembers, hostFields_cons, ha, hv, hi hrest]
    rfl

theorem hostItems_toJson {items : List Value} (h : ∀ v ∈ items, hostValue t v.toJson = .ok v) :
    hostItems t (Value.toJsonItems items) = .ok items := by
  induction items
  case nil => rfl
  case cons v items hi =>
    simp only [List.forall_mem_cons] at h
    simp only [Value.toJsonItems, hostItems, h.1, hi h.2]
    rfl

-- The induction is over the value as it fits its type. The types of its parts are regular and hold no
-- interval, either.
theorem hostValue_toJson (ht : t.Regular) (hi : ¬ t.Holds Standard.interval) (h : Portable t v) :
    hostValue t v.toJson = .ok v := by
  induction h
  case null => rfl
  case basic hs hn he =>
    have hb : _ ∈ Standard.basics := ht.of_basic hs
    rw [hostValue_of_scalar (.inl hs)]
    apply value_toJson_basic hb _ hn he
    intro h
    exact hi (h ▸ .self)
  case enumeration hs hm =>
    rw [hostValue_of_scalar (.inr ⟨_, hs⟩)]
    exact value_toJson_constant hs (ht.of_enumeration hs) hm
  case entity hs hd _ ih =>
    simp only [Value.toJson, hostValue, hs]
    apply map_eq_ok.mpr
    refine ⟨_, hostFields_toJson fun field hf => ?_, rfl⟩
    have ⟨a, ha⟩ := Option.isSome_iff_exists.mp (hd field hf)
    have hp := DataType.mem_parts_of_attribute? ha
    exact ⟨a, ha, ih field hf a ha (ht.of_attribute? ha) fun h => hi (h.of_part hp)⟩
  case collection hs _ ih =>
    simp only [Value.toJson, hostValue, hs]
    apply map_eq_ok.mpr
    refine ⟨_, hostItems_toJson fun item hm => ?_, rfl⟩
    exact ih item hm (ht.of_collection hs) fun h => hi (h.of_part (by simp [DataType.parts, hs]))

end Literal

-- A shop that closes with a leap second, and its rate, which is a whole number.
namespace Shop

def color : DataType :=
  .enumeration "Color" ["RED", "GREEN"] (some .enumeration) none

def hours : DataType :=
  .entity "Hours" [.declare "closes" Standard.time (some .field) none] none none

def week : DataType :=
  .collection hours none none

def shop : DataType :=
  .entity "Shop" [.declare "color" color (some .field) none, .declare "hours" week (some .field) none,
    .declare "rate" Standard.numeric (some .field) none] none none

def configuration : Configuration where
  entities     := [("Hours", [("closes", "TIME")]),
                   ("Shop", [("color", "Color"), ("hours", "Collection<Hours>"), ("rate", "NUMERIC")])]
  enumerations := [("Color", ["RED", "GREEN"])]
  roots        := []

def registry : Registry :=
  let colored := (((Registry.standard.register color).collectionOf color).2.register hours)
  (colored.register week).register shop

def midnight : TimeOfDay :=
  ⟨86399, secondNanos, by decide, by decide, by decide⟩

def value : Value :=
  .object
    [("color", .string "RED"), ("hours", .collection [.object [("closes", .time midnight)], .null]),
     ("rate", .numeric 2)]

theorem portable : Portable shop value := by
  have hhours : Portable hours (.object [("closes", .time midnight)]) := by
    apply Portable.object rfl
    simp only [List.forall_mem_cons]
    exact ⟨⟨_, rfl, .basic rfl rfl (Nat.dvd_refl _)⟩, nofun⟩
  have hweek : Portable week (.collection [.object [("closes", .time midnight)], .null]) := by
    apply Portable.collection rfl
    simp only [List.forall_mem_cons]
    exact ⟨hhours, .null, nofun⟩
  apply Portable.object rfl
  simp only [List.forall_mem_cons]
  refine ⟨⟨_, rfl, ?_⟩, ⟨_, rfl, hweek⟩, ⟨_, rfl, ?_⟩, nofun⟩
  · exact .enumeration rfl (.head _)
  · exact .basic rfl rfl (by decide : (2 : Float).isFinite)

theorem mem_of_holds (h : shop.Holds t) :
    t ∈ [shop, color, week, hours, Standard.numeric, Standard.time] := by
  induction h
  case self => exact .head _
  case part hp hi =>
    simp only [List.mem_cons, List.not_mem_nil, or_false] at hi
    rcases hi with rfl | rfl | rfl | rfl | rfl | rfl
    case inl =>
      change _ ∈ [color, week, Standard.numeric] at hp
      grind
    case inr.inr.inl =>
      change _ ∈ [hours] at hp
      simp_all
    case inr.inr.inr.inl =>
      change _ ∈ [Standard.time] at hp
      simp_all
    all_goals contradiction

end Shop

namespace Configuration

variable {c : Configuration} {r : Registry} {t : DataType} {v : Value}

-- Whatever a configuration declares, a value comes back from JSON if its type holds no intervals.
theorem hostValue_returns (h : c.registry = .ok r) (ht : r.type? name = some t)
    (hi : ¬ t.Holds Standard.interval) (hv : Portable t v) : Literal.hostValue t v.toJson = .ok v :=
  Literal.hostValue_toJson ((registry_regular h).types ht) hi hv

theorem hostValue_returns_shop :
    Shop.configuration.registry = .ok Shop.registry ∧ Shop.registry.type? "Shop" = some Shop.shop ∧
      ¬ Shop.shop.Holds Standard.interval ∧ Portable Shop.shop Shop.value ∧
      Literal.hostValue Shop.shop Shop.value.toJson = .ok Shop.value := by
  have h : Shop.configuration.registry = .ok Shop.registry := by with_unfolding_all rfl
  have ht : Shop.registry.type? "Shop" = some Shop.shop := by with_unfolding_all rfl
  have hi : ¬ Shop.shop.Holds Standard.interval := fun h => by
    have hm := List.mem_map_of_mem (f := DataType.name) (Shop.mem_of_holds h)
    revert hm
    decide
  exact ⟨h, ht, hi, Shop.portable, hostValue_returns h ht hi Shop.portable⟩

end Configuration

end Trivalent
