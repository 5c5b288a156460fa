import Trivalent.Json

/-!
# Configurations

A configuration declares entity types and enumerations by name and binds roots to objects.
-/

namespace Trivalent

namespace Configuration

-- The declared type of a root and its object in JSON.
structure Binding where
  type  : String
  value : Json

end Configuration

structure Configuration where
  -- For each entity the names of the types of its attributes.
  entities     : Dictionary (Dictionary String)
  -- For each enumeration its constants.
  enumerations : Dictionary (List String)
  roots        : Dictionary Configuration.Binding

namespace Configuration

def empty : Configuration := ⟨[], [], []⟩

/-! ## Writing -/

def strings (ss : List String) : Json :=
  .array (ss.map .string)

def Binding.toJson (b : Binding) : Json :=
  .object [("type", .string b.type), ("value", b.value)]

def toJson (c : Configuration) : Json :=
  .object
    [("entities", .object (c.entities.mapValues fun e => .object (e.mapValues .string))),
     ("enums", .object (c.enumerations.mapValues strings)),
     ("roots", .object (c.roots.mapValues Binding.toJson))]

end Configuration

end Trivalent
