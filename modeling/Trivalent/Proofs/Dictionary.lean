import Mathlib.Data.List.Nodup
import Mathlib.Data.String.Basic
import Trivalent.Dictionary

/-!
# Sorted dictionaries

A dictionary that is made by insertion is sorted. It has each name once, and the order in which its entries
are inserted does not matter.
-/

namespace Trivalent

namespace Dictionary

variable {d d' : Dictionary α}

instance : Decidable (Sorted d) :=
  inferInstanceAs (Decidable (List.Pairwise _ d))

theorem mem_keys_of_mem (h : e ∈ d) : e.1 ∈ keys d :=
  List.mem_map_of_mem h

theorem sizeOf_lt_of_mem_values [SizeOf α] {d : Dictionary α} (h : v ∈ values d) : sizeOf v < sizeOf d := by
  have ⟨e, he, hv⟩ := List.mem_map.mp h
  have := List.sizeOf_lt_of_mem he
  cases e
  subst hv
  simp at this ⊢
  omega

theorem find?_eq_none : find? d key = none ↔ key ∉ keys d := by
  induction d
  case nil => simp [keys]
  case cons first rest hi =>
    obtain ⟨k, v⟩ := first
    rw [find?_cons, keys_cons, List.mem_cons, not_or, ← hi]
    split
    case isTrue hk  => simp [hk]
    case isFalse hk => simp [Ne.symm hk]

theorem find?_mapValues {f : α → β} : find? (mapValues f d) key = (find? d key).map f := by
  induction d
  case nil => rfl
  case cons first rest hi =>
    have ⟨k, v⟩ := first
    change (if k = key then some (f v) else find? (mapValues f rest) key) = _
    rw [find?_cons, hi]
    split <;> rfl

-- A value that is inserted unless its name is taken.
theorem find?_insert_unless (d : Dictionary α) (key : String) (v : α) (other : String) :
    find? (if d.contains key then d else d.insert key v) other =
      (find? d other).or (if key = other then some v else none) := by
  by_cases hk : key = other
  case neg => split <;> simp [find?_insert, hk]
  case pos =>
    subst hk
    cases hf : find? d key <;> simp [contains, hf, find?_insert]

namespace Sorted

theorem nodup_keys (h : Sorted d) : (keys d).Nodup := by
  rw [List.Nodup, keys, List.pairwise_map]
  exact h.imp ne_of_lt

theorem eq_of_mem (h : Sorted d) (h₁ : e₁ ∈ d) (h₂ : e₂ ∈ d) (he : e₁.1 = e₂.1) : e₁ = e₂ :=
  List.inj_on_of_nodup_map h.nodup_keys h₁ h₂ he

theorem insert (h : Sorted d) (key : String) (v : α) : Sorted (d.insert key v) := by
  induction d
  case nil => exact List.pairwise_singleton ..
  case cons first rest hi =>
    have ⟨k, w⟩ := first
    have ⟨hk, hr⟩ := List.pairwise_cons.mp h
    rw [Dictionary.insert]
    split
    case h_1 hlt =>
      rw [compare_lt_iff_lt] at hlt
      refine List.pairwise_cons.mpr ⟨?_, h⟩
      rw [List.forall_mem_cons]
      exact ⟨hlt, fun e hm => hlt.trans (hk e hm)⟩
    case h_2 heq =>
      rw [compare_eq_iff_eq] at heq
      exact heq ▸ List.pairwise_cons.mpr ⟨hk, hr⟩
    case h_3 hgt =>
      rw [compare_gt_iff_gt] at hgt
      refine List.pairwise_cons.mpr ⟨fun e hm => ?_, hi hr⟩
      cases mem_insert hm
      case inl he => exact he ▸ hgt
      case inr hm => exact hk e hm

theorem mem_iff (h : Sorted d) : (key, v) ∈ d ↔ find? d key = some v := by
  refine ⟨fun hm => ?_, mem_of_find?⟩
  cases hf : find? d key
  case none   => exact absurd (mem_keys_of_mem hm) (find?_eq_none.mp hf)
  case some w => cases h.eq_of_mem hm (mem_of_find? hf) rfl; rfl

theorem eq_of_perm (h : Sorted d) (h' : Sorted d') (hp : d.Perm d') : d = d' :=
  hp.eq_of_pairwise (fun _ _ _ _ hab hba => absurd hab (lt_asymm hba)) h h'

-- Sorted dictionaries are the same if they hold the same values.
theorem ext (h : Sorted d) (h' : Sorted d') (hf : ∀ key, find? d key = find? d' key) : d = d' := by
  apply h.eq_of_perm h'
  apply (List.perm_ext_iff_of_nodup (.of_map _ h.nodup_keys) (.of_map _ h'.nodup_keys)).mpr
  intro e
  rw [h.mem_iff, h'.mem_iff, hf]

end Sorted

theorem sorted_ofList (entries : List (String × α)) : Sorted (ofList entries) :=
  List.foldlRecOn entries _ List.Pairwise.nil fun _ h e _ => h.insert e.1 e.2

theorem insert_perm {d : Dictionary α} (h : key ∉ keys d) : (insert d key v).Perm ((key, v) :: d) := by
  induction d
  case nil => exact .refl _
  case cons first rest hi =>
    have ⟨k, w⟩ := first
    have ⟨hk, hr⟩ : key ≠ k ∧ key ∉ keys rest := by simpa [keys] using h
    rw [insert]
    split
    case h_1     => exact .refl _
    case h_2 heq => exact absurd (compare_eq_iff_eq.mp heq) hk
    case h_3     => exact ((hi hr).cons _).trans (.swap ..)

theorem foldl_insert_perm {entries : List (String × α)} {d : Dictionary α}
    (h : (keys (entries ++ d)).Nodup) :
    (entries.foldl (fun d e => insert d e.1 e.2) d).Perm (entries ++ d) := by
  induction entries generalizing d
  case nil => exact .refl _
  case cons first rest hi =>
    have ⟨hk, hr⟩ := List.nodup_cons.mp h
    have hd : first.1 ∉ keys d := fun hm => hk (by simp_all [keys])
    have hp : (rest ++ insert d first.1 first.2).Perm (first :: (rest ++ d)) :=
      ((insert_perm hd).append_left rest).trans List.perm_middle
    have hn : (keys (rest ++ insert d first.1 first.2)).Nodup := (hp.map Prod.fst).nodup_iff.mpr h
    exact (hi hn).trans hp

-- A sorted dictionary can be made of its entries in any order.
theorem ofList_of_perm (hs : Sorted d) (h : entries.Perm d) : ofList entries = d := by
  have hn : (keys (entries ++ [])).Nodup := by
    rw [List.append_nil]
    exact (h.map Prod.fst).nodup_iff.mpr hs.nodup_keys
  have hp : (ofList entries).Perm d := (foldl_insert_perm hn).trans (by rwa [List.append_nil])
  exact (sorted_ofList entries).eq_of_perm hs hp

theorem ofList_ofList (entries : List (String × α)) : ofList (ofList entries) = ofList entries :=
  ofList_of_perm (sorted_ofList entries) (.refl _)

theorem mapValues_of_mem {f : α → α} (h : ∀ e ∈ d, f e.2 = e.2) :
    mapValues f d = d := by
  refine (List.map_congr_left fun e he => ?_).trans (List.map_id d)
  rw [h e he]
  rfl

end Dictionary

end Trivalent
