/-!
# Types

The declared types of values and the attributes of entity types. A type may lack the capabilities to
compare its values or to calculate with them. Capabilities are named here and given their meaning
elsewhere: the builtin ones by this library, all others by their host.
-/

namespace Trivalent

-- How values of a type are compared.
inductive Comparator
  | numeric
  | string
  | boolean
  | time
  | enumeration
  | host (name : String)
  deriving DecidableEq

-- How values are calculated whose result has a given type.
inductive Calculator
  | numeric
  | string
  | time
  | host (name : String)
  deriving DecidableEq

-- How an attribute is read from an object.
inductive Accessor
  | field
  | host (name : String)
  deriving DecidableEq

-- Conversions of values between the form that callers see and the form that is computed with.
structure Adapter where
  name : String
  deriving DecidableEq

mutual

structure DataType where
  name       : String
  shape      : Shape
  comparator : Option Comparator
  calculator : Option Calculator

inductive Shape
  | basic
  | entity      (attributes : List Attribute)
  | enumeration (constants : List String)
  | collection  (element : DataType)

structure Attribute where
  owner    : String
  name     : String
  type     : DataType
  accessor : Option Accessor
  adapter  : Option Adapter

end

namespace Shape

inductive Kind
  | basic
  | entity
  | enumeration
  | collection
  deriving DecidableEq

def kind : Shape → Kind
  | basic         => .basic
  | entity _      => .entity
  | enumeration _ => .enumeration
  | collection _  => .collection

end Shape

namespace Attribute

-- An attribute that no type owns yet.
def declare (name : String) (type : DataType) (accessor : Option Accessor)
    (adapter : Option Adapter) : Attribute :=
  ⟨"", name, type, accessor, adapter⟩

-- The name with that of the owner before it.
def text (a : Attribute) : String :=
  if a.owner = "" then a.name else a.owner ++ "." ++ a.name

-- Attributes are the same if they have one name and one owner.
def same (a b : Attribute) : Bool :=
  a.owner == b.owner && a.name == b.name

end Attribute

namespace DataType

def basic (name : String) (comparator : Option Comparator) (calculator : Option Calculator) :
    DataType :=
  ⟨name, .basic, comparator, calculator⟩

-- The type becomes the owner of its attributes.
def entity (name : String) (attributes : List Attribute) (comparator : Option Comparator)
    (calculator : Option Calculator) : DataType :=
  let owned := attributes.map fun a => { a with owner := name }
  ⟨name, .entity owned, comparator, calculator⟩

def enumeration (name : String) (constants : List String) (comparator : Option Comparator)
    (calculator : Option Calculator) : DataType :=
  ⟨name, .enumeration constants, comparator, calculator⟩

def collectionName (element : String) : String :=
  "Collection<" ++ element ++ ">"

def collection (element : DataType) (comparator : Option Comparator)
    (calculator : Option Calculator) : DataType :=
  ⟨collectionName element.name, .collection element, comparator, calculator⟩

def kind (t : DataType) : Shape.Kind :=
  t.shape.kind

def attributes (t : DataType) : List Attribute :=
  match t.shape with
  | .entity attributes => attributes
  | _ => []

def constants (t : DataType) : List String :=
  match t.shape with
  | .enumeration constants => constants
  | _ => []

def element? (t : DataType) : Option DataType :=
  match t.shape with
  | .collection element => some element
  | _ => none

def attribute? (t : DataType) (name : String) : Option Attribute :=
  t.attributes.find? (·.name = name)

-- Types are the same if they have one name and are of one kind.
def same (s t : DataType) : Bool :=
  s.name == t.name && s.kind == t.kind

end DataType

end Trivalent
