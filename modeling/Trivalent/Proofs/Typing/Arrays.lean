import Trivalent.Document.Resolution
import Trivalent.Proofs.Typing.RoundTrip

/-!
# Arrays of scalars

A collection of scalars can be written as one literal that is an array, as a collection of literals, or be bound
to a root as an array. All of them read the items in turn as values of the item type, so that they agree on the
collection and on the first item that is refused.
-/

namespace Trivalent

open Expression Resolution

-- The tree has the value whatever its host and its roots are. There is neither of them if both fail alike.
inductive Computes : Except ResolutionError Expression → Except ResolutionError Value → Prop
  | ok    : (∀ host roots, e.evaluate host roots = pure v) → Computes (.ok e) (.ok v)
  | error : Computes (.error err) (.error err)

variable {registry : Registry} {t ct : DataType} {xs : List Json} {vs : List Value}

namespace Expression

variable (host : Host) (roots : Roots)

theorem items_literals (t : DataType) (vs : List Value) :
    Evaluation.items (operands host roots (vs.map (.literal t))) = pure vs := by
  induction vs
  case nil          => rfl
  case cons v vs hi =>
    simp only [List.map_cons, operands, Evaluation.items, hi, Operand.value, meaning, map_pure, pure_bind]
    rfl

theorem evaluate_literals (ct t : DataType) (vs : List Value) :
    (collection ct (vs.map (.literal t))).evaluate host roots = pure (.collection vs) := by
  simp only [evaluate, Evaluation.finish, operand, meaning, items_literals, pure_bind]
  rfl

end Expression

namespace Literal

theorem hostItems_cons (hk : t.IsScalar) (x : Json) (xs : List Json) :
    hostItems t (x :: xs) = value t x >>= fun v => hostItems t xs >>= fun vs => .ok (v :: vs) := by
  rw [hostItems, hostValue_of_scalar hk]
  rfl

-- The items of an array are read from the first one to the last one, be they those of a literal or of a root.
theorem mapM_literalOf (hk : t.IsScalar) (xs : List Json) :
    xs.mapM (literalOf t) = (hostItems t xs).map (List.map (.literal t)) := by
  induction xs
  case nil          => rfl
  case cons x xs hi =>
    rw [List.mapM_cons, hi, hostItems_cons hk, literalOf]
    cases value t x
    case error => rfl
    case ok    => cases hostItems t xs <;> rfl

end Literal

namespace Document

theorem requireType_of_has (ht : registry.Has t) : requireType registry t.name = pure t :=
  requireType_of_type? ht

theorem collectionType_of_some (hc : registry.collectionType? t = some ct) :
    collectionType registry t = pure ct :=
  requireType_of_type? hc

theorem resolve_literal (ht : registry.Has t) (hx : ∀ items, x ≠ .array items) (roots : Roots) :
    (literal x (some t.name)).resolve registry roots = literalOf t x := by
  cases x
  case array items => exact absurd rfl (hx items)
  all_goals simp only [resolve, Resolution.literal, scalar, requireType_of_has ht, pure_bind]

theorem resolveAll_literals (ht : registry.Has t) (hx : ∀ x ∈ xs, ∀ items, x ≠ .array items) (roots : Roots) :
    resolveAll registry roots (xs.map (literal · (some t.name))) = xs.mapM (literalOf t) := by
  induction xs
  case nil          => rfl
  case cons x xs hi =>
    simp only [List.forall_mem_cons] at hx
    rw [List.map_cons, resolveAll, resolve_literal ht hx.1, hi hx.2, List.mapM_cons]

-- What the items are read as decides about the collection.
theorem resolve_array (ht : registry.Has t) (hk : t.IsScalar) (hc : registry.collectionType? t = some ct)
    (xs : List Json) (roots : Roots) :
    (literal (.array xs) (some t.name)).resolve registry roots =
      (Literal.hostItems t xs).map fun vs => .collection ct (vs.map (.literal t)) := by
  simp only [resolve, Resolution.literal, array, elementType, requireType_of_has ht, pure_bind,
    Literal.mapM_literalOf hk, collectionType_of_some hc]
  cases Literal.hostItems t xs <;> rfl

theorem resolve_collection (ht : registry.Has t) (hk : t.IsScalar) (hc : registry.collectionType? t = some ct)
    (hx : ∀ x ∈ xs, ∀ items, x ≠ .array items) (roots : Roots) :
    (collection (xs.map (literal · (some t.name))) (some t.name)).resolve registry roots =
      (Literal.hostItems t xs).map fun vs => .collection ct (vs.map (.literal t)) := by
  simp only [resolve, resolveAll_literals ht hx, Resolution.collection, itemType, requireType_of_has ht,
    pure_bind, Literal.mapM_literalOf hk, collectionType_of_some hc]
  cases Literal.hostItems t xs <;> rfl

-- An array of scalars is one collection in all places where it can be written.
theorem resolve_scalars (ht : registry.Has t) (hk : t.IsScalar) (hc : registry.collectionType? t = some ct)
    (hs : ct.shape = .collection t) (xs : List Json) (hx : ∀ x ∈ xs, ∀ items, x ≠ .array items)
    (roots : Roots) :
    (literal (.array xs) (some t.name)).resolve registry roots =
        (collection (xs.map (literal · (some t.name))) (some t.name)).resolve registry roots ∧
      Computes ((literal (.array xs) (some t.name)).resolve registry roots)
        (Literal.hostValue ct (.array xs)) := by
  rw [resolve_array ht hk hc, resolve_collection ht hk hc hx]
  refine ⟨rfl, ?_⟩
  simp only [Literal.hostValue, hs]
  cases Literal.hostItems t xs
  case error => exact .error
  case ok vs => exact .ok fun host roots => evaluate_literals host roots ct t vs

-- Colors of which one is missing, and colors of which the second and the third one are unknown.
theorem resolve_scalars_colors :
    let ct := DataType.collection Shop.color none none
    let colors := [.string "GREEN", .null]
    let unknown := [.string "RED", .string "BLUE", .bool true]
    Shop.registry.Has Shop.color ∧ Shop.color.IsScalar ∧ Shop.registry.collectionType? Shop.color = some ct ∧
      (literal (.array colors) (some "Color")).resolve Shop.registry .empty =
        (collection (colors.map (literal · (some "Color"))) (some "Color")).resolve Shop.registry .empty ∧
      Computes ((literal (.array colors) (some "Color")).resolve Shop.registry .empty)
        (.ok (.collection [.string "GREEN", .null])) ∧
      Computes ((literal (.array unknown) (some "Color")).resolve Shop.registry .empty)
        (.error (.invalidLiteral (.string "BLUE") "Color" .notConstant)) := by
  have ht : Shop.registry.Has Shop.color := by with_unfolding_all rfl
  have hk : Shop.color.IsScalar := .inr ⟨_, rfl⟩
  have hc : Shop.registry.collectionType? Shop.color = some (.collection Shop.color none none) := by
    with_unfolding_all rfl
  have h := resolve_scalars ht hk hc rfl [.string "GREEN", .null] (by simp) .empty
  have hu := resolve_scalars ht hk hc rfl [.string "RED", .string "BLUE", .bool true] (by simp) .empty
  exact ⟨ht, hk, hc, h.1, h.2, hu.2⟩

end Document

end Trivalent
