/-!
# Dictionaries

A dictionary holds one value for each of some names and is kept in strictly increasing order of
the names, by code point. Two dictionaries that hold the same values are therefore the same list.
-/

namespace Trivalent

-- Named values in increasing order of their names.
abbrev Dictionary (α : Type) := List (String × α)

namespace Dictionary

variable {α β : Type}

-- Names strictly increase.
def Sorted (d : Dictionary α) : Prop :=
  d.Pairwise (·.1 < ·.1)

def find? : Dictionary α → String → Option α
  | [], _ => none
  | (k, v) :: rest, key => if k = key then some v else find? rest key

def contains (d : Dictionary α) (key : String) : Bool :=
  (find? d key).isSome

-- An entry of the same name is replaced.
def insert : Dictionary α → String → α → Dictionary α
  | [], key, v => [(key, v)]
  | (k, w) :: rest, key, v =>
    match compare key k with
    | .lt => (key, v) :: (k, w) :: rest
    | .eq => (key, v) :: rest
    | .gt => (k, w) :: insert rest key v

def erase : Dictionary α → String → Dictionary α
  | [], _ => []
  | (k, v) :: rest, key => if k = key then rest else (k, v) :: erase rest key

-- Of several entries of one name the last one stays.
def ofList (entries : List (String × α)) : Dictionary α :=
  entries.foldl (fun d entry => insert d entry.1 entry.2) []

def keys (d : Dictionary α) : List String :=
  d.map Prod.fst

def values (d : Dictionary α) : List α :=
  d.map Prod.snd

def mapValues (f : α → β) (d : Dictionary α) : Dictionary β :=
  d.map fun entry => (entry.1, f entry.2)

@[simp]
theorem keys_cons : keys ((k, v) :: d) = k :: keys d :=
  rfl

@[simp]
theorem values_cons : values ((k, v) :: d) = v :: values d :=
  rfl

theorem mem_keys {d : Dictionary α} : key ∈ keys d ↔ ∃ v, (key, v) ∈ d := by
  simp [keys]

@[simp]
theorem find?_nil : find? ([] : Dictionary α) key = none :=
  rfl

theorem find?_cons :
    find? ((k, v) :: d) key = if k = key then some v else find? d key :=
  rfl

theorem find?_insert_self (d : Dictionary α) : find? (insert d key v) key = some v := by
  induction d with
  | nil => simp [insert, find?]
  | cons entry rest ih =>
    obtain ⟨k, w⟩ := entry
    rw [insert]
    split
    · simp [find?]
    · simp [find?]
    · next h =>
      have : k ≠ key := by
        rintro rfl
        simp at h
      simp [find?, this, ih]

theorem find?_insert_of_ne (d : Dictionary α) (h : key ≠ other) :
    find? (insert d key v) other = find? d other := by
  induction d with
  | nil => simp [insert, find?, h]
  | cons entry rest ih =>
    obtain ⟨k, w⟩ := entry
    rw [insert]
    split
    · simp [find?, h]
    · next he =>
      have : key = k := by simpa using he
      subst this
      simp [find?, h]
    · simp [find?, ih]

theorem find?_insert (d : Dictionary α) :
    find? (insert d key v) other = if key = other then some v else find? d other := by
  split
  · next h => exact h ▸ find?_insert_self d
  · next h => exact find?_insert_of_ne d h

theorem mem_of_find? {d : Dictionary α} (h : find? d key = some v) : (key, v) ∈ d := by
  induction d
  case nil => simp at h
  case cons entry _ hi =>
    have ⟨k, w⟩ := entry
    rw [find?_cons] at h
    split at h
    case isTrue hk  => simp_all
    case isFalse hk => exact List.mem_cons_of_mem _ (hi h)

theorem mem_insert {d : Dictionary α} (h : entry ∈ insert d key v) :
    entry = (key, v) ∨ entry ∈ d := by
  induction d
  case nil => simpa [insert] using h
  case cons first _ hi =>
    have ⟨k, w⟩ := first
    rw [insert] at h
    split at h <;> simp only [List.mem_cons] at h ⊢
    · exact h
    · exact h.imp_right .inr
    · cases h
      case inl h => exact .inr (.inl h)
      case inr h => exact (hi h).imp_right .inr

theorem mem_foldl_insert {entries : List (String × α)} {d : Dictionary α}
    (h : entry ∈ entries.foldl (fun d e => insert d e.1 e.2) d) : entry ∈ d ∨ entry ∈ entries := by
  induction entries generalizing d
  case nil => exact .inl h
  case cons first _ hi =>
    cases hi h
    case inl h => exact (mem_insert h).elim (fun he => .inr (by simp [he])) .inl
    case inr h => exact .inr (List.mem_cons_of_mem _ h)

theorem mem_ofList {entries : List (String × α)} (h : entry ∈ ofList entries) : entry ∈ entries :=
  (mem_foldl_insert h).resolve_left (List.not_mem_nil)

end Dictionary

end Trivalent
