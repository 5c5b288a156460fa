import Trivalent.Proofs.Evaluation.Readapted
import Trivalent.Standard

/-!
# The boundary of evaluation

Adapters convert values where they enter the evaluation and where they leave it. What an expression computes
is internal. Callers see it converted by one adapter, which is that of the last attribute of a path or that
of the function of a call, and see it as it is if there is no such adapter.
-/

namespace Trivalent

open Trivalent.Action (Agrees)

namespace Expression

open Evaluation

-- A null before the last attribute is the value of the path.
theorem path_null {p : Path} (hp : p.attributes = before ++ fields) (hf : fields ≠ [])
    (hw : (walk host roots (roots.object p.root) before s).outcome = .ok v) (hv : v.value = .null) :
    ((path p).meaning host roots s).outcome = .ok (.plain .null) := by
  rw [meaning, Evaluation.path, hp, walk_append host roots hf, Action.bind_ok hw, hv, walk_null]
  rfl

theorem not_leaves_of_plain {e : Expression} (h : (e.meaning host roots s).outcome = .ok (.plain v))
    (a : Adapter) : ¬Leaves host roots s a e :=
  fun hl => nomatch (meaning_pending_iff h).mpr hl

end Expression

-- Weights that are computed with in grams. They are shown in kilograms, and elsewhere in pounds.
namespace Weighed

def kilograms : Adapter :=
  ⟨"kilograms"⟩

def pounds : Adapter :=
  ⟨"pounds"⟩

def weight : Attribute :=
  ⟨"Parcel", "weight", Standard.integer, some .field, some kilograms⟩

def roots : Roots where
  types   := [("parcel", ⟨"Parcel", .entity [weight], none, none⟩)]
  objects := [("parcel", .object [("weight", .integer 3)])]

def scaled (f : Int64 → Int64) : Conversion
  | _, _, .integer n, ps => (.ok (.integer (f n)), ps)
  | _, _, v, ps          => (.ok v, ps)

-- The function of the host gives back its first argument.
def host : Host :=
  { Host.none with
    toInternal := fun _ => scaled (· * 1000)
    toModel    := fun _ => scaled (· / 1000)
    invoke     := fun _ _ _ values => .done (.ok ((values.get? 0).getD .null)) }

def elsewhere : Host :=
  { host with toModel := fun name => scaled fun n => if name = "kilograms" then n / 1000 else n / 454 }

def gross : Function :=
  ⟨"GROSS", [⟨"weight", 0, Standard.integer, some kilograms⟩], none, some Standard.integer,
    some (.host "gross" []), some kilograms⟩

def parcel : Expression :=
  .path ⟨Standard.integer, "parcel", [weight]⟩

def nobody : Expression :=
  .path ⟨Standard.integer, "nobody", [weight]⟩

def sum : Expression :=
  .arithmetic Standard.integer .plus parcel
    (.call Standard.integer gross [(⟨"weight", 0, Standard.integer, some kilograms⟩, parcel)])

-- The adapter of the parameter stays.
def abroad : Readapting where
  field _ _  := pounds
  result _ _ := pounds

theorem readapts : Host.Readapts abroad host elsewhere where
  compare      := rfl
  calculate    := rfl
  access _ _   := rfl
  field _ _ _  := rfl
  result _ _ _ := rfl
  invoke _ _ _ := rfl

theorem sum_everyCall : sum.EveryCall (host.Keeps elsewhere roots) := by
  refine ⟨trivial, ⟨fun _ _ _ _ => .done, ?_⟩, trivial, trivial⟩
  rintro p hp a ha
  cases List.mem_singleton.mp hp
  cases ha
  rfl

end Weighed

namespace Expression

open Evaluation

-- If the root is neither a path nor a call, it makes no difference how the adapters along the paths and those
-- of the functions convert values into their model form. Otherwise the value is converted by the adapter that
-- is pending, once, and is the internal value if there is none, as for a path that meets a null on its way.
theorem evaluate_boundary (host : Host) (roots : Roots) (e : Expression) :
    (e.isBoundary = false → ∀ σ host', Host.Readapts σ host host' →
      e.EveryCall (host.Keeps host' roots) →
        (e.evaluate host roots).Agrees ((e.readapt σ).evaluate host' roots)) ∧
    (∀ s a, Leaves host roots s a e →
      e.evaluate host roots s = (e.internal host roots >>= toModel host roots a e.type) s) ∧
    (∀ s, (∀ a, ¬Leaves host roots s a e) → e.evaluate host roots s = e.internal host roots s) ∧
    ∀ p before fields s v, e = path p → p.attributes = before ++ fields → fields ≠ [] →
      (walk host roots (roots.object p.root) before s).outcome = .ok v → v.value = .null →
        e.evaluate host roots s = e.internal host roots s ∧
          (e.evaluate host roots s).outcome = .ok .null := by
  refine ⟨fun hb σ host' hh h => evaluate_readapt hh hb h, fun s a h => evaluate_of_leaves h,
    fun s h => evaluate_of_not_leaves h, ?_⟩
  rintro p before fields s v rfl hp hf hw hv
  have hm := path_null hp hf hw hv
  have he := evaluate_of_not_leaves (not_leaves_of_plain hm)
  refine ⟨he, ?_⟩
  rw [he, internal, operand, Operand.value, Action.map_apply, hm]
  rfl

-- The weight of a parcel is three thousand inside and three outside. A parcel that is not there has none.
theorem evaluate_boundary_weighed :
    (Weighed.sum.isBoundary = false ∧
      (Weighed.sum.evaluate Weighed.host Weighed.roots).Agrees
        ((Weighed.sum.readapt Weighed.abroad).evaluate Weighed.elsewhere Weighed.roots) ∧
      (Weighed.sum.evaluate Weighed.host Weighed.roots ⟨[], ⟨0⟩⟩).outcome = .ok (.integer 6000)) ∧
    (Leaves Weighed.host Weighed.roots ⟨[], ⟨0⟩⟩ Weighed.kilograms Weighed.parcel ∧
      Weighed.parcel.evaluate Weighed.host Weighed.roots ⟨[], ⟨0⟩⟩ =
        (Weighed.parcel.internal Weighed.host Weighed.roots >>=
          toModel Weighed.host Weighed.roots Weighed.kilograms Standard.integer) ⟨[], ⟨0⟩⟩ ∧
      (Weighed.parcel.internal Weighed.host Weighed.roots ⟨[], ⟨0⟩⟩).outcome = .ok (.integer 3000) ∧
      (Weighed.parcel.evaluate Weighed.host Weighed.roots ⟨[], ⟨0⟩⟩).outcome = .ok (.integer 3)) ∧
    (∀ a, ¬Leaves Weighed.host Weighed.roots ⟨[], ⟨0⟩⟩ a Weighed.nobody) ∧
    Weighed.nobody.evaluate Weighed.host Weighed.roots ⟨[], ⟨0⟩⟩ =
      Weighed.nobody.internal Weighed.host Weighed.roots ⟨[], ⟨0⟩⟩ ∧
    (Weighed.nobody.evaluate Weighed.host Weighed.roots ⟨[], ⟨0⟩⟩).outcome = .ok .null := by
  have hl : Leaves Weighed.host Weighed.roots ⟨[], ⟨0⟩⟩ Weighed.kilograms Weighed.parcel :=
    .path (rfl : _ = [] ++ [Weighed.weight]) rfl nofun rfl
  have hn : ∀ a, ¬Leaves Weighed.host Weighed.roots ⟨[], ⟨0⟩⟩ a Weighed.nobody :=
    not_leaves_of_plain (path_null (rfl : _ = [] ++ [Weighed.weight]) (by simp) rfl rfl)
  have ⟨hsum, _⟩ := evaluate_boundary Weighed.host Weighed.roots Weighed.sum
  have ⟨_, hparcel, _⟩ := evaluate_boundary Weighed.host Weighed.roots Weighed.parcel
  have ⟨_, _, hnobody, hnull⟩ := evaluate_boundary Weighed.host Weighed.roots Weighed.nobody
  refine ⟨⟨rfl, hsum rfl _ _ Weighed.readapts Weighed.sum_everyCall, ?sum⟩,
    ⟨hl, hparcel _ _ hl, ?inside, ?outside⟩, hn, hnobody _ hn, ?null⟩
  case sum     => with_unfolding_all rfl
  case inside  => with_unfolding_all rfl
  case outside => with_unfolding_all rfl
  case null    => exact (hnull _ [] _ _ _ rfl rfl (by simp) rfl rfl).2

end Expression

end Trivalent
