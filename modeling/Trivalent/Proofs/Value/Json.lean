import Trivalent.Proofs.Value
import Trivalent.Value.Json

/-!
# Values through JSON without types

Values that JSON has a form of its own for are written in this form and are read of it again. These are all
values without times, intervals and doubles that are not finite, and their forms are all JSON values without
integers that are too large for a signed word. An integer is never written like a double, be it whole.
-/

namespace Trivalent

theorem map_eq_self_iff {f : α → α} {as : List α} : as.map f = as ↔ ∀ a ∈ as, f a = a := by
  conv_lhs => rhs; rw [← List.map_id as]
  exact List.map_eq_map_iff

namespace Dictionary

variable {d : Dictionary α}

theorem mapValues_mapValues (f : α → β) (g : β → γ) (d : Dictionary α) :
    mapValues g (mapValues f d) = mapValues (g ∘ f) d :=
  List.map_map

theorem values_mapValues (f : α → β) (d : Dictionary α) : values (mapValues f d) = (values d).map f := by
  simp [values, mapValues]

theorem mapValues_eq_self_iff {f : α → α} : mapValues f d = d ↔ ∀ v ∈ values d, f v = v := by
  simp only [mapValues, values, map_eq_self_iff, List.forall_mem_map, Prod.ext_iff, true_and]

theorem sorted_mapValues_iff {f : α → β} : Sorted (mapValues f d) ↔ Sorted d :=
  List.pairwise_map

-- Entries come out of a dictionary as they were put in if they are sorted.
theorem ofList_mapValues_eq_self_iff {f : α → α} :
    ofList (mapValues f d) = d ↔ Sorted d ∧ ∀ v ∈ values d, f v = v := by
  rw [← mapValues_eq_self_iff]
  constructor
  case mp =>
    intro h
    have hs : Sorted d := h ▸ sorted_ofList _
    have hf : ofList (mapValues f d) = mapValues f d :=
      ofList_of_perm (sorted_mapValues_iff.mpr hs) (.refl _)
    exact ⟨hs, hf.symm.trans h⟩
  case mpr =>
    intro ⟨hs, hf⟩
    rw [hf]
    exact ofList_of_perm hs (.refl _)

end Dictionary

namespace Json

def parts : Json → List Json
  | array items    => items
  | object members => Dictionary.values members
  | _              => []

theorem sizeOf_lt_of_mem_parts (j : Json) : ∀ k ∈ j.parts, sizeOf k < sizeOf j := by
  intro k h
  cases j <;> simp only [parts, List.not_mem_nil] at h
  case array =>
    have := List.sizeOf_lt_of_mem h
    simp
    omega
  case object =>
    have := Dictionary.sizeOf_lt_of_mem_values h
    simp
    omega

theorem induction {P : Json → Prop} (node : ∀ j, (∀ k ∈ j.parts, P k) → P j) (j : Json) : P j :=
  parts_induction sizeOf_lt_of_mem_parts node j

-- No integer in the value is too large for a signed word.
def IsSigned (j : Json) : Prop :=
  Throughout parts (fun k => ∀ n large, k ≠ .number (.unsigned n large)) j

theorem isSigned_iff {j : Json} :
    j.IsSigned ↔ (∀ n large, j ≠ .number (.unsigned n large)) ∧ ∀ k ∈ j.parts, k.IsSigned :=
  throughout_iff

end Json

namespace Value

theorem ofJsonItems_eq_map (items : List Json) : ofJsonItems items = items.map ofJson := by
  induction items
  case nil         => rfl
  case cons _ _ hi => rw [ofJsonItems, hi, List.map_cons]

theorem ofJsonMembers_eq_mapValues (members : List (String × Json)) :
    ofJsonMembers members = Dictionary.mapValues ofJson members := by
  induction members
  case nil         => rfl
  case cons _ _ hi => rw [ofJsonMembers, hi]; rfl

theorem toJsonItems_eq_map (items : List Value) : toJsonItems items = items.map toJson := by
  induction items
  case nil         => rfl
  case cons _ _ hi => rw [toJsonItems, hi, List.map_cons]

theorem toJsonMembers_eq_mapValues (fields : List (String × Value)) :
    toJsonMembers fields = Dictionary.mapValues toJson fields := by
  induction fields
  case nil         => rfl
  case cons _ _ hi => rw [toJsonMembers, hi]; rfl

-- JSON has a form of its own for the value, its parts aside.
def HasJson : Value → Prop
  | numeric x  => x.isFinite
  | time _     => False
  | interval _ => False
  | _          => True

-- There are neither times and intervals nor doubles that are not finite in the value.
def IsJson (v : Value) : Prop :=
  Throughout parts HasJson v

-- The fields of all objects in the value are a dictionary.
def IsOrdered (v : Value) : Prop :=
  Throughout parts (fun w => ∀ fields, w = object fields → Dictionary.Sorted fields) v

theorem isJson_iff {v : Value} : v.IsJson ↔ v.HasJson ∧ ∀ w ∈ v.parts, w.IsJson :=
  throughout_iff

theorem isOrdered_iff {v : Value} :
    v.IsOrdered ↔ (∀ fields, v = object fields → Dictionary.Sorted fields) ∧ ∀ w ∈ v.parts, w.IsOrdered :=
  throughout_iff

theorem ofJson_toJson_numeric (x : Float) : ofJson (numeric x).toJson = numeric x ↔ x.isFinite := by
  by_cases hx : x.isFinite
  case pos =>
    have hn : Json.Number.ofFloat? x = some (.float x hx) := dif_pos hx
    simp [toJson, hn, ofJson, ofNumber, Json.Number.toFloat, hx]
  case neg =>
    have hn : Json.Number.ofFloat? x = none := dif_neg hx
    simp [toJson, hn, ofJson, hx]

theorem toJson_numeric_ne_unsigned (x : Float) : (numeric x).toJson ≠ .number (.unsigned n large) := by
  by_cases hx : x.isFinite <;> simp [toJson, Json.Number.ofFloat?, hx]

theorem toJson_integer_ne_numeric (i : Int64) (x : Float) : (integer i).toJson ≠ (numeric x).toJson := by
  by_cases hx : x.isFinite <;> simp [toJson, Json.Number.ofFloat?, hx]

theorem toJson_ofJson_number (n : Json.Number) :
    (ofJson (.number n)).toJson = .number n ↔ ∀ m large, n ≠ .unsigned m large := by
  cases n
  case integer => simp [ofJson, ofNumber, toJson]
  case float x hx =>
    have hn : Json.Number.ofFloat? x = some (.float x hx) := dif_pos hx
    simp [ofJson, ofNumber, Json.Number.toFloat, toJson, hn]
  case unsigned m large =>
    exact iff_of_false (toJson_numeric_ne_unsigned _) fun h => h m large rfl

theorem canonical_toJson_numeric (x : Float) : (numeric x).toJson.canonical = (numeric x).toJson := by
  by_cases hx : x.isFinite <;> simp [toJson, Json.Number.ofFloat?, hx, Json.canonical]

-- The induction is over the value. What comes back of its parts comes back of the value.
theorem ofJson_toJson_iff (v : Value) : ofJson v.toJson = v ↔ v.IsJson := by
  induction v using Value.induction
  case node v hi =>
    rw [isJson_iff]
    cases v
    case null | boolean | integer | string => simp [toJson, ofJson, ofNumber, HasJson, parts]
    case time | interval                   => simp [toJson, ofJson, HasJson]
    case numeric x                         => simp [ofJson_toJson_numeric, HasJson, parts]
    case collection items =>
      rw [toJson, toJsonItems_eq_map, ofJson, ofJsonItems_eq_map, List.map_map, collection.injEq, map_eq_self_iff]
      simp only [HasJson, true_and]
      exact forall₂_congr hi
    case object fields =>
      rw [toJson, toJsonMembers_eq_mapValues, ofJson, ofJsonMembers_eq_mapValues, Dictionary.mapValues_mapValues,
        object.injEq, Dictionary.mapValues_eq_self_iff]
      simp only [HasJson, true_and]
      exact forall₂_congr hi

theorem toJson_ofJson_iff (j : Json) : (ofJson j).toJson = j ↔ j.IsSigned := by
  induction j using Json.induction
  case node j hi =>
    rw [Json.isSigned_iff]
    cases j
    case null | bool | string => simp [toJson, ofJson, Json.parts]
    case number n             => simp [toJson_ofJson_number, Json.parts]
    case array items =>
      rw [ofJson, ofJsonItems_eq_map, toJson, toJsonItems_eq_map, List.map_map, Json.array.injEq, map_eq_self_iff]
      simp only [ne_eq, reduceCtorEq, not_false_eq_true, implies_true, true_and]
      exact forall₂_congr hi
    case object members =>
      rw [ofJson, ofJsonMembers_eq_mapValues, toJson, toJsonMembers_eq_mapValues, Dictionary.mapValues_mapValues,
        Json.object.injEq, Dictionary.mapValues_eq_self_iff]
      simp only [ne_eq, reduceCtorEq, not_false_eq_true, implies_true, true_and]
      exact forall₂_congr hi

theorem canonical_toJson_iff (v : Value) : v.toJson.canonical = v.toJson ↔ v.IsOrdered := by
  induction v using Value.induction
  case node v hi =>
    rw [isOrdered_iff]
    cases v
    case null | boolean | integer | string | time | interval => simp [toJson, Json.canonical, parts]
    case numeric x => simp [canonical_toJson_numeric, parts]
    case collection items =>
      rw [toJson, toJsonItems_eq_map, Json.canonical, Json.canonicalItems_eq_map, List.map_map, Json.array.injEq,
        List.map_eq_map_iff]
      simp only [reduceCtorEq, false_implies, implies_true, true_and]
      exact forall₂_congr hi
    case object fields =>
      rw [toJson, toJsonMembers_eq_mapValues, Json.canonical, Json.canonicalMembers_eq_mapValues, Json.object.injEq,
        Dictionary.ofList_mapValues_eq_self_iff, Dictionary.sorted_mapValues_iff, Dictionary.values_mapValues,
        List.forall_mem_map]
      simp only [object.injEq, forall_eq']
      exact and_congr_right' (forall₂_congr hi)

-- Values without times, intervals and doubles that are not finite come back from JSON, and JSON without integers
-- that are too large comes back from values. On the way, fields in order stay in order, and an integer differs
-- from all doubles.
theorem json_bijective :
    (∀ v : Value, ofJson v.toJson = v ↔ v.IsJson) ∧ (∀ j : Json, (ofJson j).toJson = j ↔ j.IsSigned) ∧
      (∀ v : Value, v.toJson.canonical = v.toJson ↔ v.IsOrdered) ∧
      ∀ i x, (integer i).toJson ≠ (numeric x).toJson :=
  ⟨ofJson_toJson_iff, toJson_ofJson_iff, canonical_toJson_iff, toJson_integer_ne_numeric⟩

end Value

end Trivalent
