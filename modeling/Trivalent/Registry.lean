import Trivalent.Declaration
import Trivalent.Expression
import Trivalent.Text.Upper

/-!
# Registries

The types and functions that expressions can name. A name is given once and keeps what it was given
to. Functions are found under their names in upper case, whatever the case of the name asked for.
-/

namespace Trivalent

@[ext]
structure Registry where
  types     : Dictionary DataType
  -- By their names in upper case.
  functions : Dictionary Function

namespace Registry

def empty : Registry := ⟨[], []⟩

def type? (r : Registry) (name : String) : Option DataType :=
  r.types.find? name

def function? (r : Registry) (name : String) : Option Function :=
  r.functions.find? (Text.upper name)

def requireType (r : Registry) (name : String) : Except DeclarationError DataType :=
  match r.type? name with
  | some t => .ok t
  | none => .error (.unknownType name)

def requireFunction (r : Registry) (name : String) : Except DeclarationError Function :=
  match r.function? name with
  | some f => .ok f
  | none => .error (.unknownFunction name)

-- The type registered under the name of the collection of the given type.
def collectionType? (r : Registry) (element : DataType) : Option DataType :=
  r.type? (DataType.collectionName element.name)

def addType (r : Registry) (t : DataType) : Except DeclarationError Registry :=
  if r.types.contains t.name then
    .error (.duplicateType t.name)
  else
    .ok { r with types := r.types.insert t.name t }

def addFunction (r : Registry) (f : Function) : Except DeclarationError Registry :=
  if r.functions.contains (Text.upper f.name) then
    .error (.duplicateFunction f.name)
  else
    .ok { r with functions := r.functions.insert (Text.upper f.name) f }

-- The type registered under the name of the collection of the given type, which is the collection
-- type if there was none.
def collectionOf (r : Registry) (element : DataType) : DataType × Registry :=
  match r.collectionType? element with
  | some t => (t, r)
  | none =>
    let t := DataType.collection element none none
    (t, { r with types := r.types.insert t.name t })

end Registry

end Trivalent
