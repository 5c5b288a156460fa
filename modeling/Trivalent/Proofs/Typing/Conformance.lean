import Trivalent.Configuration.Objects
import Trivalent.Evaluation
import Trivalent.Expression.Binding
import Trivalent.Proofs.Registry.Configured

/-!
# Conformance

Which values conform to a declared type. Every value that a path leads to conforms to the type of its
last attribute if the object at its root conforms to the declared type of the root.
-/

namespace Trivalent

namespace DataType

variable {t : DataType}

theorem enumeration_of_kind (h : t.kind = .enumeration) :
    ∃ constants, t.shape = .enumeration constants := by
  simp only [kind, Shape.kind] at h
  split at h <;> cases h
  exact ⟨_, ‹_›⟩

theorem collection_of_kind (h : t.kind = .collection) : ∃ element, t.shape = .collection element := by
  simp only [kind, Shape.kind] at h
  split at h <;> cases h
  exact ⟨_, ‹_›⟩

end DataType

-- The name of the basic type that a value is of.
def Value.basicName? : Value → Option String
  | integer _  => some "INTEGER"
  | numeric _  => some "NUMERIC"
  | string _   => some "STRING"
  | boolean _  => some "BOOLEAN"
  | time _     => some "TIME"
  | interval _ => some "INTERVAL"
  | _          => none

-- A value conforms to its type. Null conforms to all types. An object may lack attributes and may have
-- fields that its type does not declare. Nothing is asked of the items of a collection.
inductive Conforms : DataType → Value → Prop
  | null        : Conforms t .null
  | basic       : t.shape = .basic → v.basicName? = some t.name → Conforms t v
  | enumeration : t.shape = .enumeration constants → s ∈ constants → Conforms t (.string s)
  | entity      : t.shape = .entity attributes →
                  (∀ name a v, t.attribute? name = some a → Dictionary.find? fields name = some v →
                    Conforms a.type v) →
                  Conforms t (.object fields)
  | collection  : t.shape = .collection element → Conforms t (.collection items)

namespace Conforms

variable {t : DataType} {v : Value}

theorem basicName (h : Conforms t v) (hv : v ≠ .null) (ht : t.shape = .basic) :
    v.basicName? = some t.name := by
  cases h
  case null       => contradiction
  case basic h    => exact h
  all_goals simp [ht] at *

theorem constant (h : Conforms t v) (hv : v ≠ .null) (ht : t.shape = .enumeration constants) :
    ∃ s ∈ constants, v = .string s := by
  cases h
  case null              => contradiction
  case enumeration hm hs => cases hs.symm.trans ht; exact ⟨_, hm, rfl⟩
  all_goals simp [ht] at *

theorem object (h : Conforms t v) (hv : v ≠ .null) (ht : t.shape = .entity attributes) :
    ∃ fields, v = .object fields ∧ ∀ name a w, t.attribute? name = some a →
      Dictionary.find? fields name = some w → Conforms a.type w := by
  cases h
  case null     => contradiction
  case entity h => exact ⟨_, rfl, h⟩
  all_goals simp [ht] at *

theorem items (h : Conforms t v) (hv : v ≠ .null) (ht : t.kind = .collection) :
    ∃ items, v = .collection items := by
  cases h
  case null       => contradiction
  case collection => exact ⟨_, rfl⟩
  all_goals simp_all [DataType.kind, Shape.kind]

end Conforms

namespace Registry.Declares

variable {r : Registry} {t : DataType}

theorem of_attribute? {name : String} (h : r.Declares t) (ha : t.attribute? name = some a) :
    (∃ attributes, t.shape = .entity attributes) ∧ r.Has a.type ∧ a.accessor = some .field ∧
      a.adapter = none := by
  have hm := List.mem_of_find?_eq_some ha
  cases h
  case basic ht =>
    cases Standard.Basic.of_mem ht <;> cases hm
  case enumeration => cases hm
  case collection  => cases hm
  case entity attributes _ h =>
    refine ⟨⟨_, rfl⟩, ?_⟩
    simp only [DataType.attributes, DataType.entity, List.mem_map] at hm
    have ⟨b, hb, he⟩ := hm
    subst he
    exact h b hb

end Registry.Declares

namespace Roots

-- All objects conform to the types of their names.
def Conform (roots : Roots) : Prop :=
  ∀ name t v, roots.type? name = some t → roots.object? name = some v → Conforms t v

-- All types are those that the registry has under their names.
def Registered (roots : Roots) (r : Registry) : Prop :=
  ∀ name t, roots.type? name = some t → r.Has t

variable {roots : Roots} {r : Registry}

theorem Conform.object (h : roots.Conform) (ht : roots.type? name = some t) :
    Conforms t (roots.object name) := by
  simp only [Roots.object]
  cases ho : roots.object? name
  case none => exact .null
  case some => exact h name t _ ht ho

theorem Registered.bind (h : roots.Registered r) (ht : r.Has t) :
    (roots.bind name t v).Registered r := by
  intro other t' h'
  simp only [type?, Roots.bind, Dictionary.find?_insert] at h'
  split at h'
  case isTrue  => cases h'; exact ht
  case isFalse => exact h _ _ h'

end Roots

namespace Registry

variable {r : Registry} {name : String}

theorem requireType_eq_ok : r.requireType name = .ok t ↔ r.type? name = some t := by
  simp only [requireType]
  cases r.type? name <;> simp

theorem name_of_requireType (hr : r.Configured) (h : r.requireType name = .ok t) : t.name = name :=
  hr.named (requireType_eq_ok.mp h)

theorem has_of_requireType (hr : r.Configured) (h : r.requireType name = .ok t) : r.Has t := by
  rw [Has, name_of_requireType hr h]
  exact requireType_eq_ok.mp h

end Registry

namespace Configuration

variable {r : Registry} {roots roots' : Roots}

theorem bindRoots_registered {bindings : Dictionary Binding} (hr : r.Configured)
    (hroots : roots.Registered r) (h : bindRoots r roots bindings = .ok roots') :
    roots'.Registered r := by
  induction bindings generalizing roots
  case nil =>
    cases h
    exact hroots
  case cons first bindings hi =>
    have ⟨t, ht, h⟩ := bind_eq_ok.mp h
    have ⟨v, _, h⟩ := bind_eq_ok.mp h
    exact hi (hroots.bind (Registry.has_of_requireType hr (mapError_eq_ok.mp ht))) h

theorem bind_registered {c : Configuration} (hr : r.Configured) (h : c.bind r = .ok roots) :
    roots.Registered r :=
  bindRoots_registered hr (fun _ _ h => by simp [Roots.type?, Roots.empty] at h) h

end Configuration

namespace Evaluation

open Trivalent.Action (Ends)

variable (host : Host) (roots : Roots) {r : Registry} {t : DataType} {v : Value}

theorem step_ends {name : String} (ht : r.Declares t) (ha : t.attribute? name = some a)
    (hv : Conforms t v) (hn : v ≠ .null) :
    (step host roots a v).Ends (Conforms a.type) fun _ => False := by
  have ⟨⟨_, hs⟩, _, hacc, hada⟩ := ht.of_attribute? ha
  have ⟨fields, hf, hc⟩ := hv.object hn hs
  have hname : a.name = name := by simpa using List.find?_some ha
  subst hf
  simp only [step, access, hacc, hada]
  refine Ends.bind (Q := Conforms a.type) ?access fun w hw => .pure hw
  refine (Ends.note _).bind fun _ _ => .ofExcept <| .ok ?_
  cases hw : Dictionary.find? fields a.name
  case none   => exact .null
  case some w => exact hc name a w ha (hname ▸ hw)

-- Without adapters the last step of a walk is like all others.
theorem walk_cons (ha : a.adapter = none) (v : Value) (rest : List Attribute) :
    walk host roots v (a :: rest) =
      if v.isNull then pure (.plain .null) else step host roots a v >>= (walk host roots · rest) := by
  cases rest
  case nil  => simp only [walk, ha]; rfl
  case cons => rfl

-- The walk from an object that conforms to the type in which the attributes are found. It never fails,
-- and it leaves no adapter pending.
theorem walk_ends {names : List String} (hr : r.Configured) (ht : r.Has t) (hv : Conforms t v)
    (hf : Path.follow t names = .ok (last, attributes)) :
    (walk host roots v attributes).Ends (fun e => e.pending = none ∧ Conforms last e.value)
      fun _ => False := by
  induction names generalizing t v attributes
  case nil =>
    cases hf
    exact .pure ⟨rfl, hv⟩
  case cons name names hi =>
    rw [Path.follow] at hf
    split at hf
    case h_1 => contradiction
    case h_2 a ha =>
      have ⟨⟨_, rest⟩, hf', hf⟩ := bind_eq_ok.mp hf
      cases hf
      have hd := ht.declares hr
      have ⟨_, hat, _, hada⟩ := hd.of_attribute? ha
      rw [walk_cons host roots hada]
      split
      case isTrue     => exact .pure ⟨rfl, .null⟩
      case isFalse hn =>
        have hs := step_ends host roots hd ha hv (by simpa using hn)
        exact hs.bind fun w hw => hi hat hw hf'

end Evaluation

end Trivalent
