/-!
# Words

Integers that fit a machine word, made from integers of any size.
-/

namespace Trivalent

-- The integer as a word of 64 bits, if it fits.
def word64? (z : Int) : Option Int64 :=
  if -0x8000000000000000 ≤ z ∧ z < 0x8000000000000000 then some (Int64.ofInt z) else none

-- The integer as a word of 32 bits, if it fits.
def word32? (z : Int) : Option Int32 :=
  if -0x80000000 ≤ z ∧ z < 0x80000000 then some (Int32.ofInt z) else none

theorem word64?_eq_some_iff {z : Int} {i : Int64} : word64? z = some i ↔ i.toInt = z := by
  unfold word64?
  have lo := i.le_toInt
  have hi := i.toInt_lt
  constructor
  · intro h
    split at h
    · next hz =>
      obtain rfl := Option.some.inj h
      exact Int64.toInt_ofInt_of_le hz.1 hz.2
    · contradiction
  · rintro rfl
    rw [if_pos ⟨lo, hi⟩, Int64.ofInt_toInt]

theorem word32?_eq_some_iff {z : Int} {i : Int32} : word32? z = some i ↔ i.toInt = z := by
  unfold word32?
  have lo := i.le_toInt
  have hi := i.toInt_lt
  constructor
  · intro h
    split at h
    · next hz =>
      obtain rfl := Option.some.inj h
      exact Int32.toInt_ofInt_of_le hz.1 hz.2
    · contradiction
  · rintro rfl
    rw [if_pos ⟨lo, hi⟩, Int32.ofInt_toInt]

theorem word64?_eq_none_iff {z : Int} :
    word64? z = none ↔ z < -0x8000000000000000 ∨ 0x8000000000000000 ≤ z := by
  unfold word64?
  split <;> simp <;> omega

theorem word32?_eq_none_iff {z : Int} :
    word32? z = none ↔ z < -0x80000000 ∨ 0x80000000 ≤ z := by
  unfold word32?
  split <;> simp <;> omega

end Trivalent
