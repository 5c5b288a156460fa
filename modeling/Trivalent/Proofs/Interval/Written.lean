import Mathlib
import Trivalent.Proofs.Interval
import Trivalent.Value.Json

/-!
# Intervals and their texts

The text of an interval is a row of amounts and units with blanks between them. No amount and no unit has a
blank in it, so that the words of a text show where each of them begins and ends. An amount that is not named is
zero, which is why the text determines the interval.
-/

namespace Trivalent

namespace Interval

variable {a b : Interval} {part : Int × String} {parts : List (Int × String)}

/-! ## Words -/

-- Every two words are an amount and its unit.
def readParts? : List (List Char) → Option (List (Int × String))
  | [] => some []
  | [_] => none
  | amount :: unit :: words => do
    let z ← (String.ofList amount).toInt?
    let parts ← readParts? words
    return (z, String.ofList unit) :: parts

-- The amounts and units that a text names.
def ofText? (s : String) : Option (List (Int × String)) :=
  readParts? (s.toList.splitOn ' ')

-- The words of one amount and its unit.
def partWords (part : Int × String) : List (List Char) :=
  [(toString part.1).toList, part.2.toList]

theorem blank_notMem_repr (n : Nat) : ' ' ∉ n.repr.toList := by
  intro h
  rw [Nat.repr, String.toList_ofList] at h
  have hd := Nat.isDigit_of_mem_toDigits (by decide) (by decide) h
  contradiction

theorem blank_notMem_amount (z : Int) : ' ' ∉ (toString z).toList := by
  cases z
  case ofNat n   => exact blank_notMem_repr n
  case negSucc n =>
    change ' ' ∉ ("-" ++ n.succ.repr).toList
    rw [String.toList_append, List.mem_append, not_or]
    exact ⟨by decide, blank_notMem_repr _⟩

theorem toList_partText (part : Int × String) :
    (partText part).toList = (toString part.1).toList ++ ' ' :: part.2.toList := by
  simp [partText, String.toList_append]

-- The induction is on the parts. The blank after an amount and the one after a unit are the first ones.
theorem splitOn_intercalate (hp : parts ≠ []) (hb : ∀ part ∈ parts, ' ' ∉ part.2.toList) :
    (" ".intercalate (parts.map partText)).toList.splitOn ' ' = parts.flatMap partWords := by
  induction parts
  case nil => contradiction
  case cons part parts hi =>
    have ⟨hu, hb⟩ := List.forall_mem_cons.mp hb
    cases parts
    case nil =>
      rw [List.map_singleton, String.intercalate_singleton, toList_partText,
        List.splitOn_append_cons_self_of_not_mem (blank_notMem_amount _), List.splitOn_eq_singleton hu]
      rfl
    case cons next parts =>
      have hi := hi (List.cons_ne_nil _ _) hb
      rw [List.map_cons] at hi
      have hblank : " ".toList = [' '] := rfl
      rw [List.map_cons, List.map_cons, String.intercalate_cons_cons, String.toList_append, String.toList_append,
        toList_partText, hblank, List.append_assoc, List.append_assoc, List.cons_append,
        List.splitOn_append_cons_self_of_not_mem (blank_notMem_amount _), List.singleton_append,
        List.splitOn_append_cons_self_of_not_mem hu, hi]
      rfl

theorem readParts?_words (parts : List (Int × String)) : readParts? (parts.flatMap partWords) = some parts := by
  induction parts
  case nil => rfl
  case cons part parts hi =>
    have hz : (toString part.1).toInt? = some part.1 := Int.toInt?_repr part.1
    simp only [List.flatMap_cons, partWords, List.cons_append, List.nil_append, readParts?,
      String.ofList_toList, hz, hi]
    rfl

theorem ofText?_intercalate (hp : parts ≠ []) (hb : ∀ part ∈ parts, ' ' ∉ part.2.toList) :
    ofText? (" ".intercalate (parts.map partText)) = some parts := by
  rw [ofText?, splitOn_intercalate hp hb, readParts?_words]

/-! ## Named components -/

def units : List String :=
  ["YEARS", "MONTHS", "DAYS", "HOURS", "MINUTES", "SECONDS"]

-- The components that the text of an interval names. Of an interval without length it names the seconds.
def named (a : Interval) : List (Int × String) :=
  if a = zero then [(0, "SECONDS")] else a.parts.filter (·.1 ≠ 0)

theorem parts_units (a : Interval) : a.parts.map (·.2) = units :=
  rfl

theorem amounts_injective (h : a.amounts = b.amounts) : a = b := by
  simp only [amounts, parts, List.map_cons, List.map_nil, List.cons.injEq, Int32.toInt_inj, and_true] at h
  obtain ⟨hy, hmo, hd, hh, hmi, hs⟩ := h
  exact Interval.ext hy hmo hd hh hmi hs

theorem eq_zero_iff : a = zero ↔ a.parts.filter (·.1 ≠ 0) = [] := by
  constructor
  case mp =>
    rintro rfl
    decide
  case mpr =>
    intro h
    apply amounts_injective
    simpa [amounts, parts, zero] using h

theorem text_eq (a : Interval) : a.text = " ".intercalate (a.named.map partText) := by
  rw [text, named]
  split
  case h_1 h =>
    rw [if_pos (eq_zero_iff.mpr h), List.map_singleton, String.intercalate_singleton]
  case h_2 h =>
    rw [if_neg fun hz => h (eq_zero_iff.mp hz)]

theorem named_ne_nil (a : Interval) : a.named ≠ [] := by
  rw [named]
  split
  case isTrue    => exact List.cons_ne_nil _ _
  case isFalse h => exact fun hn => h (eq_zero_iff.mpr hn)

theorem blank_notMem_unit (h : part ∈ a.named) : ' ' ∉ part.2.toList := by
  rw [named] at h
  split at h
  case isTrue =>
    cases List.mem_singleton.mp h
    decide
  case isFalse =>
    have hm : part.2 ∈ a.parts.map (·.2) := List.mem_map_of_mem (List.mem_filter.mp h).1
    rw [parts_units] at hm
    exact (by decide : ∀ unit ∈ units, ' ' ∉ unit.toList) _ hm

theorem ofText?_text (a : Interval) : ofText? a.text = some a.named := by
  rw [text_eq]
  exact ofText?_intercalate a.named_ne_nil fun _ => blank_notMem_unit

/-! ## Amounts of units -/

-- The sum of the amounts of one unit.
def total (unit : String) (parts : List (Int × String)) : Int :=
  ((parts.filter (·.2 = unit)).map (·.1)).sum

theorem total_cons (unit : String) (part : Int × String) (parts : List (Int × String)) :
    total unit (part :: parts) = (if part.2 = unit then part.1 else 0) + total unit parts := by
  by_cases h : part.2 = unit <;> simp [total, h]

theorem total_filter (unit : String) (parts : List (Int × String)) :
    total unit (parts.filter (·.1 ≠ 0)) = total unit parts := by
  induction parts
  case nil => rfl
  case cons part parts hi =>
    by_cases h : part.1 = 0
    case pos => simp [total_cons, h, ← hi]
    case neg => simp [total_cons, h, ← hi]

theorem total_named (unit : String) (a : Interval) : total unit a.named = total unit a.parts := by
  rw [← total_filter unit a.parts, named]
  split
  case isFalse => rfl
  case isTrue h =>
    rw [eq_zero_iff.mp h, total_cons]
    simp

theorem amounts_eq (a : Interval) : a.amounts = units.map fun unit => total unit a.parts := by
  simp [amounts, parts, units, total]

theorem named_injective (h : a.named = b.named) : a = b := by
  apply amounts_injective
  simp only [amounts_eq, ← total_named, h]

-- The text of an interval, which is its form in JSON as well, is read as the components that are not zero, in
-- the order of their units, or as no seconds if there are none. Different intervals have different texts.
theorem text_determines (a b : Interval) :
    (a.text = b.text ↔ a = b) ∧ (Value.interval a).toJson = .string a.text ∧ a.text ≠ "" ∧
      ofText? a.text = some (if a = zero then [(0, "SECONDS")] else a.parts.filter (·.1 ≠ 0)) := by
  refine ⟨⟨fun h => ?injective, congrArg text⟩, rfl, fun h => ?empty, ofText?_text a⟩
  case injective =>
    apply named_injective
    apply Option.some.inj
    rw [← ofText?_text, ← ofText?_text, h]
  case empty =>
    have hn := ofText?_text a
    rw [h] at hn
    contradiction

end Interval

end Trivalent
