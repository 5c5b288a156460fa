import Trivalent.Proofs.Comparing.Coherence

/-!
# The order of doubles

A double that is not NaN has a place in a line that leads from minus infinity to infinity. Finite doubles are
placed by their signs first, then by their exponents and at last by their mantissas. The order of two doubles is
the order of their places.
-/

namespace Trivalent

namespace Double

open Float.Model (UnpackedFloat)

variable {x y : Float}

theorem compare_natCast (m n : Nat) : compare (m : Int) n = compare m n := by
  simp only [compare, compareOfLessAndEq, Int.ofNat_lt, Int.ofNat_inj]

theorem compare_neg (i k : Int) : compare (-i) (-k) = (compare i k).swap := by
  rw [Int.compare_swap]
  exact Comparing.compare_eq_of_sub_eq (by omega)

/-! ## Places -/

-- Infinities, negative and positive doubles have places of different ranks, with the zeros between them.
structure Place where
  rank     : Int
  exponent : Int
  mantissa : Int

namespace Place

def order (p q : Place) : Ordering :=
  (compare p.rank q.rank).then <|
    (compare p.exponent q.exponent).then <|
      compare p.mantissa q.mantissa

instance order_trans : Std.TransCmp Place.order :=
  inferInstanceAs (Std.TransCmp (compareLex (compareOn Place.rank)
    (compareLex (compareOn Place.exponent) (compareOn Place.mantissa))))

def ofUnpacked? : UnpackedFloat → Option Place
  | .notANumber             => none
  | .infinity .negative     => some ⟨-2, 0, 0⟩
  | .finite .negative m e _ => some ⟨-1, -e, -m⟩
  | .zero _                 => some ⟨0, 0, 0⟩
  | .finite .positive m e _ => some ⟨1, e, m⟩
  | .infinity .positive     => some ⟨2, 0, 0⟩

theorem compare_unpacked (u v : UnpackedFloat) :
    u.compare v = (ofUnpacked? u).bind fun p => (ofUnpacked? v).map p.order := by
  cases u
  case notANumber => rfl
  case zero =>
    cases v
    case finite s _ _ _ => cases s <;> rfl
    case infinity s => cases s <;> rfl
    all_goals rfl
  case infinity s =>
    cases v
    case infinity s' => cases s <;> cases s' <;> rfl
    case finite s' _ _ _ => cases s <;> cases s' <;> rfl
    all_goals cases s <;> rfl
  case finite s m e _ =>
    cases v
    case infinity s' => cases s <;> cases s' <;> rfl
    case finite s' m' e' _ =>
      cases s <;> cases s'
      case negative.negative =>
        change some ((compare e e').then (compare m m')).swap = some ((compare (-e) (-e')).then _)
        rw [compare_neg, compare_neg, compare_natCast, Ordering.swap_then]
      case positive.positive =>
        change some ((compare e e').then (compare m m')) = some ((compare e e').then _)
        rw [compare_natCast]
      all_goals rfl
    all_goals cases s <;> rfl

end Place

-- NaN has no place.
def place? (x : Float) : Option Place :=
  Place.ofUnpacked? x.toModel.unpack

theorem order?_eq (x y : Float) : order? x y = (place? x).bind fun p => (place? y).map p.order := by
  have lt_iff (x y : Float) : x < y ↔ x.toModel.unpack.compare y.toModel.unpack = some .lt :=
    (decide_eq_true_iff (p := x.toModel < y.toModel)).trans beq_iff_eq
  have beq_iff : x == y ↔ x.toModel.unpack.compare y.toModel.unpack = some .eq := by
    change (x.toModel.unpack.compare y.toModel.unpack == some .eq) = true ↔ _
    exact beq_iff_eq
  simp only [order?, lt_iff, beq_iff, Place.compare_unpacked, place?]
  cases Place.ofUnpacked? x.toModel.unpack
  case none   => cases Place.ofUnpacked? y.toModel.unpack <;> rfl
  case some p =>
    cases Place.ofUnpacked? y.toModel.unpack
    case none   => rfl
    case some q =>
      have hswap : q.order p = (p.order q).swap := Std.OrientedCmp.eq_swap
      simp only [Option.bind_some, Option.map_some, Option.some.injEq, hswap]
      cases p.order q <;> rfl

theorem order?_eq_some :
    order? x y = some o ↔ ∃ p q, place? x = some p ∧ place? y = some q ∧ p.order q = o := by
  simp [order?_eq, Option.bind_eq_some_iff]

end Double

end Trivalent
