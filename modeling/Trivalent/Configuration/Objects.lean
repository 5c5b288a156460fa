import Trivalent.Configuration
import Trivalent.Literal
import Trivalent.Registry
import Trivalent.Roots

/-!
# Binding the roots of a configuration

Objects are read from JSON along their declared types, so that a time among the attributes of an
entity is a time. Fields that an entity does not declare are taken as they are.
-/

namespace Trivalent

namespace Literal

mutual

-- A value of a type from JSON, at every depth.
def hostValue (t : DataType) : Json → Except ResolutionError Value
  | .object members =>
    match t.shape with
    | .entity _ => .object <$> hostFields t members
    | _ => value t (.object members)
  | .array items =>
    match t.shape with
    | .collection element => .collection <$> hostItems element items
    | _ => value t (.array items)
  | .null     => value t .null
  | .bool b   => value t (.bool b)
  | .number n => value t (.number n)
  | .string s => value t (.string s)

def hostFields (t : DataType) :
    List (String × Json) → Except ResolutionError (List (String × Value))
  | [] => .ok []
  | (name, json) :: members => do
    let v ←
      match t.attribute? name with
      | some a => hostValue a.type json
      | none   => .ok (.ofJson json)
    let vs ← hostFields t members
    return (name, v) :: vs

def hostItems (t : DataType) : List Json → Except ResolutionError (List Value)
  | [] => .ok []
  | json :: items => do
    let v ← hostValue t json
    let vs ← hostItems t items
    return v :: vs

end

end Literal

namespace Configuration

-- Binds roots in the order of their names.
def bindRoots (r : Registry) (roots : Roots) : Dictionary Binding → Except ResolutionError Roots
  | [] => .ok roots
  | (name, b) :: bindings => do
    let t ← (r.requireType b.type).mapError .declaration
    let v ← Literal.hostValue t b.value
    bindRoots r (roots.bind name t v) bindings

-- The roots that a configuration binds.
def bind (c : Configuration) (r : Registry) : Except ResolutionError Roots :=
  bindRoots r .empty c.roots

end Configuration

end Trivalent
