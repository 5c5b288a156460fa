import Trivalent.Evaluation

/-!
# Walks

A walk along several attributes is a walk along the first of them, followed by one along the others from
the value that the first ones lead to. A null that is met on the way is all that comes of it.
-/

namespace Trivalent.Evaluation

variable (host : Host) (roots : Roots) {before after : List Attribute}

theorem walk_null (attributes : List Attribute) :
    walk host roots .null attributes = pure (.plain .null) := by
  match attributes with
  | [] | [_] | _ :: _ :: _ => rfl

theorem walk_singleton (object : Value) (last : Attribute) :
    walk host roots object [last] =
      if object.isNull then pure (.plain .null)
      else step host roots last object >>= fun v => pure ⟨v, last.adapter⟩ :=
  rfl

theorem walk_cons_of_ne_nil {rest : List Attribute} (hr : rest ≠ []) (object : Value) (field : Attribute) :
    walk host roots object (field :: rest) =
      if object.isNull then pure (.plain .null)
      else step host roots field object >>= (walk host roots · rest) := by
  cases rest
  case nil  => contradiction
  case cons => rfl

-- An adapter that the first attributes leave pending is dropped if the walk goes on.
theorem walk_append (ha : after ≠ []) (object : Value) :
    walk host roots object (before ++ after) =
      walk host roots object before >>= fun e => walk host roots e.value after := by
  induction before generalizing object
  case nil => exact (pure_bind _ _).symm
  case cons field fields hi =>
    rw [List.cons_append, walk_cons_of_ne_nil host roots (by simp [ha])]
    cases fields
    case nil =>
      rw [walk_singleton]
      split <;> simp [Evaluated.plain, walk_null]
    case cons next fields =>
      rw [walk_cons_of_ne_nil host roots (by simp)]
      split
      case isTrue  => simp [Evaluated.plain, walk_null]
      case isFalse =>
        rw [bind_assoc]
        exact bind_congr hi

end Trivalent.Evaluation
