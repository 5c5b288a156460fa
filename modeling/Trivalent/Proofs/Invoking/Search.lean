import Mathlib.Order.Bounds.Basic
import Trivalent.Evaluation.Invoking

/-!
# The place of a string in another one

The bytes of a string stand in those of another one only where its characters stand in the characters. The
search for bytes therefore finds the least index from the start on where the characters stand.
-/

namespace Trivalent.Invoking

-- The items of `needle` stand at the index.
def Occurs (needle haystack : List α) (index : Nat) : Prop :=
  index + needle.length ≤ haystack.length ∧ needle <+: haystack.drop index

-- The least index with a property, or nothing if there is none.
inductive Least (P : Nat → Prop) : Option Nat → Prop
  | found   : IsLeast {i | P i} i → Least P (some i)
  | missing : (∀ i, ¬P i) → Least P none

/-! ## Occurrences -/

namespace Occurs

variable {needle haystack : List α}

theorem le_length (h : Occurs needle haystack i) : i ≤ haystack.length :=
  Nat.le_of_add_right_le h.1

theorem nil_iff : Occurs ([] : List α) haystack i ↔ i ≤ haystack.length := by
  simp [Occurs]

theorem of_nil (h : Occurs needle [] i) : needle = [] :=
  List.prefix_nil.mp (by simpa using h.2)

theorem zero_iff : Occurs needle haystack 0 ↔ needle <+: haystack := by
  simpa [Occurs] using List.IsPrefix.length_le

-- Beyond the first items, an occurrence is one in the rest.
theorem add_iff : Occurs needle (front ++ haystack) (front.length + i) ↔ Occurs needle haystack i := by
  simp [Occurs, List.drop_append, List.drop_eq_nil_of_le, Nat.add_assoc]

-- The occurrences that do not start in the first items are those in the rest, moved on.
theorem append_iff (front : List α) :
    front.length ≤ i ∧ Occurs needle (front ++ haystack) i ↔
      ∃ j, i = front.length + j ∧ Occurs needle haystack j := by
  constructor
  case mp =>
    intro ⟨hi, h⟩
    have ⟨j, hj⟩ := Nat.exists_eq_add_of_le hi
    exact ⟨j, hj, add_iff.mp (hj ▸ h)⟩
  case mpr =>
    intro ⟨j, hj, h⟩
    exact ⟨hj ▸ Nat.le_add_right .., hj ▸ add_iff.mpr h⟩

theorem succ_iff : Occurs needle (a :: haystack) (i + 1) ↔ Occurs needle haystack i := by
  simp [Occurs, Nat.add_right_comm i 1]

end Occurs

/-! ## Least indices -/

namespace Least

variable {P Q : Nat → Prop} {o : Option Nat}

theorem eq_some_iff (h : Least P o) : o = some i ↔ IsLeast {i | P i} i := by
  cases h
  case found j hj   => exact ⟨fun h => Option.some.inj h ▸ hj, fun hi => congrArg some (hj.unique hi)⟩
  case missing hn => simpa using fun hi => absurd hi.1 (hn i)

theorem eq_none_iff (h : Least P o) : o = none ↔ ∀ i, ¬P i := by
  cases h
  case found j hj => simpa using ⟨j, hj.1⟩
  case missing hn => simpa using hn

-- The indices with one property are those with another one, each moved on by `n`.
theorem add (h : Least P o) (hq : ∀ j, Q j ↔ ∃ i, j = n + i ∧ P i) : Least Q (o.map (n + ·)) := by
  cases h
  case found i hi =>
    refine .found ⟨(hq _).mpr ⟨i, rfl, hi.1⟩, fun j hj => ?_⟩
    have ⟨_, hj, hp⟩ := (hq j).mp hj
    exact hj ▸ Nat.add_le_add_left (hi.2 hp) n
  case missing hn =>
    refine .missing fun j hj => ?_
    have ⟨i, _, hp⟩ := (hq j).mp hj
    exact hn i hp

end Least

/-! ## Bytes -/

section

variable {c : Char} {cs ds : List Char}

theorem bytes_cons : bytes (c :: cs) = String.utf8EncodeChar c ++ bytes cs :=
  rfl

theorem bytes_append : bytes (cs ++ ds) = bytes cs ++ bytes ds :=
  List.flatMap_append

theorem length_le_bytes : cs.length ≤ (bytes cs).length := by
  induction cs
  case nil => exact Nat.zero_le _
  case cons c cs hi =>
    have hc := c.utf8Size_pos
    simp only [bytes_cons, List.length_append, List.length_cons, String.length_utf8EncodeChar]
    omega

-- No two lists of characters begin with the same bytes unless they begin with the same characters.
theorem bytes_prefix_iff : bytes cs <+: bytes ds ↔ cs <+: ds := by
  constructor
  case mp =>
    intro ⟨rest, h⟩
    apply List.isPrefix_of_utf8Encode_append_eq_utf8Encode rest.toByteArray
    rw [List.utf8Encode, List.utf8Encode, ← List.toByteArray_append]
    exact congrArg List.toByteArray h
  case mpr =>
    intro ⟨rest, h⟩
    exact ⟨bytes rest, h ▸ bytes_append.symm⟩

-- No character starts with a byte that is inside of another one.
theorem not_prefix_inside (h₀ : 0 < k) (hk : k < c.utf8Size) (bs : List UInt8) :
    ¬bytes (d :: ds) <+: (String.utf8EncodeChar c ++ bs).drop k := by
  intro h
  have hd : 0 < (String.utf8EncodeChar d).length := by simp [d.utf8Size_pos]
  have hc : k < (String.utf8EncodeChar c).length := by simpa using hk
  have he := List.prefix_iff_getElem?.mp h 0 (by rw [bytes_cons, List.length_append]; omega)
  rw [List.getElem?_drop, Nat.add_zero, List.getElem?_append_left hc, List.getElem?_eq_getElem hc] at he
  have he : (String.utf8EncodeChar c)[k] = (String.utf8EncodeChar d)[0] := by
    simpa [bytes_cons, List.getElem_append_left hd] using he
  have hf : (String.utf8EncodeChar d)[0].IsUTF8FirstByte := UInt8.isUTF8FirstByte_getElem_zero_utf8EncodeChar
  rw [← he, UInt8.isUTF8FirstByte_getElem_utf8EncodeChar] at hf
  exact Nat.ne_of_gt h₀ hf

-- The bytes of a string that is not empty stand only where a character starts.
theorem occurs_of_bytes (hn : cs ≠ []) (h : Occurs (bytes cs) (bytes ds) k) :
    ∃ i, k = (bytes (ds.take i)).length ∧ Occurs cs ds i := by
  induction ds generalizing k
  case nil =>
    have hb := List.length_eq_zero_iff.mpr h.of_nil
    exact absurd (List.length_eq_zero_iff.mp (Nat.le_zero.mp (hb ▸ length_le_bytes))) hn
  case cons d ds hi =>
    have hd := String.length_utf8EncodeChar d
    -- The bytes stand behind those of the first character, at their start or inside of them.
    rcases Nat.lt_or_ge k d.utf8Size with hk | hk
    case inr =>
      have ⟨j, hj⟩ := Nat.exists_eq_add_of_le hk
      rw [hj, bytes_cons, ← hd, Occurs.add_iff] at h
      have ⟨i, hij, h⟩ := hi h
      exact ⟨i + 1, by simp [bytes_cons, hj, hij], Occurs.succ_iff.mpr h⟩
    case inl =>
      rcases Nat.eq_zero_or_pos k with h₀ | h₀
      case inl =>
        subst h₀
        exact ⟨0, rfl, Occurs.zero_iff.mpr (bytes_prefix_iff.mp (Occurs.zero_iff.mp h))⟩
      case inr =>
        have ⟨c, cs, hc⟩ := List.exists_cons_of_ne_nil hn
        subst hc
        exact absurd h.2 (not_prefix_inside h₀ hk _)

theorem Occurs.bytes (h : Occurs cs ds i) :
    Occurs (bytes cs) (bytes ds) (bytes (ds.take i)).length := by
  have hd : Invoking.bytes ds = Invoking.bytes (ds.take i) ++ Invoking.bytes (ds.drop i) := by
    rw [← bytes_append, List.take_append_drop]
  rw [hd]
  exact Occurs.add_iff (i := 0).mpr (Occurs.zero_iff.mpr (bytes_prefix_iff.mpr h.2))

theorem bytes_take_lt (h : i < j) (hj : j ≤ cs.length) :
    (bytes (cs.take i)).length < (bytes (cs.take j)).length := by
  have ht : cs.take j = cs.take i ++ (cs.drop i).take (j - i) := by
    rw [← List.take_add, Nat.add_sub_cancel' (Nat.le_of_lt h)]
  have hl : ((cs.drop i).take (j - i)).length ≤ _ := length_le_bytes
  rw [ht, bytes_append, List.length_append]
  rw [List.length_take, List.length_drop] at hl
  omega

/-! ## Offsets -/

theorem offset?_append : offset? cs.length (cs ++ ds) = some (bytes cs).length := by
  induction cs
  case nil          => rfl
  case cons c cs hi => simp [offset?, hi, bytes_cons]

theorem offset?_of_lt (h : cs.length < i) : offset? i cs = none := by
  induction cs generalizing i
  case nil =>
    cases i
    case zero => contradiction
    case succ => rfl
  case cons c cs hi =>
    cases i
    case zero => contradiction
    case succ i => simp [offset?, hi (Nat.lt_of_succ_lt_succ h)]

theorem charsBefore_add (cs ds : List Char) (k : Nat) :
    charsBefore ((bytes cs).length + k) (cs ++ ds) = cs.length + charsBefore k ds := by
  induction cs
  case nil => simp [bytes]
  case cons c cs hi =>
    have hc := c.utf8Size_pos
    have ⟨n, hn⟩ := Nat.exists_eq_succ_of_ne_zero (n := (bytes (c :: cs)).length + k) (by
      simp [bytes_cons, Nat.ne_of_gt hc])
    have hk : n + 1 - c.utf8Size = (bytes cs).length + k := by
      simp [bytes_cons] at hn
      omega
    rw [hn, List.cons_append, charsBefore, hk, hi, List.length_cons]
    omega

theorem charsBefore_take (h : i ≤ cs.length) : charsBefore (bytes (cs.take i)).length cs = i := by
  have hc := charsBefore_add (cs.take i) (cs.drop i) 0
  rw [List.take_append_drop, List.length_take_of_le h] at hc
  simpa [charsBefore] using hc

/-! ## The search -/

theorem find?_least (needle bs : List UInt8) : Least (Occurs needle bs) (find? needle bs) := by
  induction bs
  case nil =>
    simp only [find?, List.isEmpty_iff]
    split
    case isTrue hn  => exact .found ⟨hn ▸ Occurs.nil_iff.mpr (Nat.zero_le _), fun _ _ => Nat.zero_le _⟩
    case isFalse hn => exact .missing fun _ h => hn h.of_nil
  case cons b bs hi =>
    simp only [find?, List.isPrefixOf_iff_prefix]
    split
    case isTrue hp  => exact .found ⟨Occurs.zero_iff.mpr hp, fun _ _ => Nat.zero_le _⟩
    case isFalse hp =>
      simp only [Nat.add_comm _ 1]
      refine hi.add fun j => ?_
      cases j
      case zero   => simpa [Occurs.zero_iff, Nat.add_comm 1] using hp
      case succ j => simp [Occurs.succ_iff, Nat.add_comm 1]

-- The least place of the bytes is the one of the characters.
theorem Least.chars (h : Least (Occurs (bytes cs) (bytes ds)) o) :
    Least (Occurs cs ds) (o.map (charsBefore · ds)) := by
  cases h
  case missing hn => exact .missing fun i hi => hn _ hi.bytes
  case found k hk =>
    -- The empty string stands inside of characters as well, but stands at the offset zero before.
    have ⟨i, hi, ho⟩ : ∃ i, k = (bytes (ds.take i)).length ∧ Occurs cs ds i := by
      cases cs
      case nil =>
        have h₀ : k ≤ 0 := hk.2 (Occurs.nil_iff.mpr (Nat.zero_le _))
        exact ⟨0, Nat.le_zero.mp h₀, Occurs.nil_iff.mpr (Nat.zero_le _)⟩
      case cons => exact occurs_of_bytes (List.cons_ne_nil _ _) hk.1
    subst hi
    rw [Option.map_some, charsBefore_take ho.le_length]
    refine .found ⟨ho, fun j hj => Nat.le_of_not_lt fun hl => ?_⟩
    exact Nat.lt_irrefl _ (Nat.lt_of_lt_of_le (bytes_take_lt hl ho.le_length) (hk.2 hj.bytes))

theorem locateChars_append (needle cs ds : List Char) :
    locateChars needle (cs ++ ds) cs.length =
      ((find? (bytes needle) (bytes ds)).map (charsBefore · ds)).map (cs.length + ·) := by
  simp [locateChars, offset?_append, bytes_append, charsBefore_add, Function.comp_def]

theorem locateChars_least (needle haystack : List Char) (start : Nat) :
    Least (fun i => start ≤ i ∧ Occurs needle haystack i) (locateChars needle haystack start) := by
  rcases Nat.lt_or_ge haystack.length start with h | h
  case inl =>
    rw [locateChars, offset?_of_lt h]
    exact .missing fun i hi => Nat.not_le_of_lt h (Nat.le_trans hi.1 hi.2.le_length)
  case inr =>
    have hl := locateChars_append needle (haystack.take start) (haystack.drop start)
    have hf := (find?_least (bytes needle) (bytes (haystack.drop start))).chars.add
      fun _ => Occurs.append_iff (haystack.take start)
    rwa [← hl, List.take_append_drop, List.length_take_of_le h] at hf

end

end Trivalent.Invoking
