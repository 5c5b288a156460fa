import Trivalent.DataType
import Trivalent.Value

/-!
# Roots

The names that paths start from, with the declared types and the objects that they are bound to. A
name may have a type without having an object, and an object without having a type.
-/

namespace Trivalent

structure Roots where
  types   : Dictionary DataType
  objects : Dictionary Value

namespace Roots

def empty : Roots := ⟨[], []⟩

def bind (r : Roots) (name : String) (type : DataType) (object : Value) : Roots :=
  ⟨r.types.insert name type, r.objects.insert name object⟩

def type? (r : Roots) (name : String) : Option DataType :=
  r.types.find? name

def object? (r : Roots) (name : String) : Option Value :=
  r.objects.find? name

-- A name without an object has no value.
def object (r : Roots) (name : String) : Value :=
  (r.object? name).getD .null

end Roots

end Trivalent
