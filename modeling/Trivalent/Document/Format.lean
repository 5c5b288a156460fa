import Trivalent.Document

/-!
# The document format

Each kind of document has a name and fields with names in a fixed order. A document is written as an
object with its kind and its fields.
-/

namespace Trivalent.Document

inductive Kind
  | literal
  | collection
  | path
  | negative
  | arithmetic
  | function
  | comparison
  | between
  | in
  | isNull
  | isEmpty
  | and
  | or
  | predicate
  | not
  deriving DecidableEq

namespace Kind

def all : List Kind :=
  [literal, collection, path, negative, arithmetic, function, comparison, between, .in, isNull,
   isEmpty, and, or, predicate, not]

def name : Kind → String
  | literal    => "literal"
  | collection => "collection"
  | path       => "path"
  | negative   => "negative"
  | arithmetic => "arithmetic"
  | function   => "function"
  | comparison => "comparison"
  | between    => "between"
  | .in        => "in"
  | isNull     => "is_null"
  | isEmpty    => "is_empty"
  | and        => "and"
  | or         => "or"
  | predicate  => "predicate"
  | not        => "not"

def ofName? (name : String) : Option Kind :=
  all.find? (·.name = name)

-- The names of the fields in the order in which an array gives them.
def fields : Kind → List String
  | literal    => ["value", "type"]
  | collection => ["items", "element_type"]
  | path       => ["alias", "attributes"]
  | negative   => ["expression"]
  | arithmetic => ["operator", "left", "right", "type"]
  | function   => ["name", "arguments"]
  | comparison => ["operator", "left", "right", "negated"]
  | between    => ["left", "lower", "upper", "negated"]
  | .in        => ["left", "items", "negated"]
  | isNull     => ["operand", "negated"]
  | isEmpty    => ["operand", "negated"]
  | and        => ["predicates", "negated"]
  | or         => ["predicates", "negated"]
  | predicate  => ["expression", "negated"]
  | not        => ["expression"]

end Kind

-- The name of the field that holds the kind.
def kindField : String := "kind"

/-! ## Writing -/

-- A field that is left out when it has no value.
def optionalField (name : String) : Option String → List (String × Json)
  | some s => [(name, .string s)]
  | none   => []

-- The object of a kind with the given fields.
def written (kind : Kind) (fields : List (String × Json)) : Json :=
  .object ((kindField, .string kind.name) :: fields)

mutual

def toJson : Document → Json
  | literal v t          => written .literal (("value", v) :: optionalField "type" t)
  | collection is t      =>
    written .collection (("items", .array (itemsToJson is)) :: optionalField "element_type" t)
  | path r as            =>
    written .path [("alias", .string r), ("attributes", .array (as.map .string))]
  | negative e           => written .negative [("expression", e.toJson)]
  | arithmetic o l r t   =>
    written .arithmetic <|
      [("operator", .string o), ("left", l.toJson), ("right", r.toJson)] ++ optionalField "type" t
  | call f as            => written .function [("name", .string f), ("arguments", as.toJson)]
  | comparison o l r n   =>
    written .comparison
      [("operator", .string o), ("left", l.toJson), ("right", r.toJson), ("negated", .bool n)]
  | between e l u n      =>
    written .between
      [("left", e.toJson), ("lower", l.toJson), ("upper", u.toJson), ("negated", .bool n)]
  | member e is n        =>
    written .in [("left", e.toJson), ("items", .array (itemsToJson is)), ("negated", .bool n)]
  | isNull e n           => written .isNull [("operand", e.toJson), ("negated", .bool n)]
  | isEmpty e n          => written .isEmpty [("operand", e.toJson), ("negated", .bool n)]
  | compound .and ps n   =>
    written .and [("predicates", .array (itemsToJson ps)), ("negated", .bool n)]
  | compound .or ps n    =>
    written .or [("predicates", .array (itemsToJson ps)), ("negated", .bool n)]
  | truth e n            => written .predicate [("expression", e.toJson), ("negated", .bool n)]
  | not e                => written .not [("expression", e.toJson)]

def Arguments.toJson : Document.Arguments → Json
  | .positional ds => .array (itemsToJson ds)
  | .named ds      => .object (membersToJson ds)

def itemsToJson : List Document → List Json
  | []      => []
  | d :: ds => d.toJson :: itemsToJson ds

def membersToJson : List (String × Document) → List (String × Json)
  | []              => []
  | (name, d) :: ds => (name, d.toJson) :: membersToJson ds

end

end Trivalent.Document
