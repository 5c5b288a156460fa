import Mathlib.Data.List.Forall2
import Trivalent.Proofs.Dictionary
import Trivalent.Value

/-!
# Values and their parts

A value is a tree of the values in it. What holds of a value whenever it holds of its parts holds of every value.
Equality of values is that of what they denote, which only differs from being the same value where there are
doubles.
-/

namespace Trivalent

-- The property holds of something and of whatever is in it, at every depth.
inductive Throughout (parts : α → List α) (P : α → Prop) : α → Prop
  | intro : P a → (∀ b ∈ parts a, Throughout parts P b) → Throughout parts P a

theorem throughout_iff {parts : α → List α} {P : α → Prop} :
    Throughout parts P a ↔ P a ∧ ∀ b ∈ parts a, Throughout parts P b :=
  ⟨fun | .intro ha hb => ⟨ha, hb⟩, fun ⟨ha, hb⟩ => .intro ha hb⟩

-- What holds of something whenever it holds of its parts, if these are smaller.
theorem parts_induction [SizeOf α] {parts : α → List α} (smaller : ∀ a, ∀ b ∈ parts a, sizeOf b < sizeOf a)
    {P : α → Prop} (node : ∀ a, (∀ b ∈ parts a, P b) → P a) (a : α) : P a :=
  node a fun b hb => have := smaller a b hb; parts_induction smaller node b
termination_by sizeOf a

-- Lists are equal if they are related by what relates their items to equal items only.
theorem forall₂_iff_eq {R : α → α → Prop} {as bs : List α} (h : ∀ a ∈ as, ∀ b ∈ bs, R a b ↔ a = b) :
    List.Forall₂ R as bs ↔ as = bs := by
  constructor
  case mp =>
    intro hr
    have ⟨hl, hz⟩ := List.forall₂_iff_zip.mp hr
    rw [← List.forall₂_eq_eq_eq]
    refine List.forall₂_iff_zip.mpr ⟨hl, fun {a b} hab => ?_⟩
    have ⟨ha, hb⟩ := List.of_mem_zip hab
    exact (h a ha b hb).mp (hz hab)
  case mpr =>
    intro he
    subst he
    exact List.forall₂_same.mpr fun a ha => (h a ha a ha).mpr rfl

namespace Value

variable {v w : Value}

def parts : Value → List Value
  | collection items => items
  | object fields    => Dictionary.values fields
  | _                => []

theorem sizeOf_lt_of_mem_parts (v : Value) : ∀ w ∈ v.parts, sizeOf w < sizeOf v := by
  intro w h
  cases v <;> simp only [parts, List.not_mem_nil] at h
  case collection =>
    have := List.sizeOf_lt_of_mem h
    simp
    omega
  case object =>
    have := Dictionary.sizeOf_lt_of_mem_values h
    simp
    omega

theorem induction {P : Value → Prop} (node : ∀ v, (∀ w ∈ v.parts, P w) → P v) (v : Value) : P v :=
  parts_induction sizeOf_lt_of_mem_parts node v

/-! ## Equality -/

theorem sameItems_iff {as bs : List Value} : sameItems as bs ↔ List.Forall₂ (·.same ·) as bs := by
  induction as generalizing bs
  case nil          => cases bs <;> simp [sameItems]
  case cons _ _ hi  => cases bs <;> simp [sameItems, hi]

theorem sameFields_iff {as bs : List (String × Value)} :
    sameFields as bs ↔ List.Forall₂ (fun a b => a.1 = b.1 ∧ a.2.same b.2) as bs := by
  induction as generalizing bs
  case nil          => cases bs <;> simp [sameFields]
  case cons _ _ hi  => cases bs <;> simp [sameFields, hi]

-- There is no double in the value.
def Discrete (v : Value) : Prop :=
  Throughout parts (fun w => ∀ x, w ≠ numeric x) v

-- Without doubles, to be equal is to be the same.
theorem same_iff (hv : v.Discrete) : v.same w ↔ v = w := by
  induction v using Value.induction generalizing w
  case node v hi =>
    have ⟨hn, hp⟩ := throughout_iff.mp hv
    cases v <;> cases w <;> simp only [same, beq_iff_eq, reduceCtorEq, Bool.false_eq_true]
    case boolean.boolean | integer.integer | string.string | time.time | interval.interval => simp
    case numeric.numeric x _ => exact absurd rfl (hn x)
    case collection.collection as bs =>
      rw [sameItems_iff, collection.injEq]
      exact forall₂_iff_eq fun a ha b _ => hi a ha (hp a ha)
    case object.object as bs =>
      rw [sameFields_iff, object.injEq]
      refine forall₂_iff_eq fun a ha b _ => ?_
      have ha : a.2 ∈ (object as).parts := List.mem_map_of_mem ha
      rw [hi a.2 ha (hp a.2 ha), Prod.ext_iff]

end Value

end Trivalent
