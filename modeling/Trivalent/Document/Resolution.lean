import Trivalent.Document
import Trivalent.Expression.Binding
import Trivalent.Literal
import Trivalent.Registry
import Trivalent.Roots

/-!
# Resolution

Turning documents into expressions: names are looked up in a registry and among the roots, and types
that a document leaves out are found from its literals and operands.
-/

namespace Trivalent

namespace Resolution

variable (registry : Registry) (roots : Roots)

def declared (x : Except DeclarationError α) : Except ResolutionError α :=
  x.mapError .declaration

def requireType (name : String) : Except ResolutionError DataType :=
  declared (registry.requireType name)

-- The type of predicates.
def boolean : Except ResolutionError DataType :=
  requireType registry "BOOLEAN"

def collectionType (element : DataType) : Except ResolutionError DataType :=
  requireType registry (DataType.collectionName element.name)

-- Operands of one type give that type, two numeric types the wider one, a time and an interval a
-- time. What is joined to a string becomes one.
def arithmeticType (left right : DataType) : Except ResolutionError DataType :=
  if left.name = right.name then
    .ok left
  else
    match left.name, right.name with
    | "INTEGER", "NUMERIC" => requireType registry "NUMERIC"
    | "NUMERIC", "INTEGER" => requireType registry "NUMERIC"
    | "TIME", "INTERVAL"   => requireType registry "TIME"
    | "INTERVAL", "TIME"   => requireType registry "TIME"
    | "STRING", _          => requireType registry "STRING"
    | _, "STRING"          => requireType registry "STRING"
    | _, _                 => .ok left

-- The name of the type that a literal shows.
def inferredName : Json → Except ResolutionError String
  | .bool _              => .ok "BOOLEAN"
  | .number (.integer _) => .ok "INTEGER"
  | .number _            => .ok "NUMERIC"
  | .string _            => .ok "STRING"
  | json                 => .error (.untypedLiteral json)

def inferredType (json : Json) : Except ResolutionError DataType := do
  requireType registry (← inferredName json)

def literalOf (type : DataType) (json : Json) : Except ResolutionError Expression :=
  return .literal type (← Literal.value type json)

-- A literal that is no array.
def scalar (json : Json) (type : Option String) : Except ResolutionError Expression := do
  let t ←
    match type with
    | some name => requireType registry name
    | none      => inferredType registry json
  literalOf t json

-- The type of the items of an array, which the first item that is not null shows.
def elementType (items : List Json) (type : Option String) : Except ResolutionError DataType :=
  match type with
  | some name => requireType registry name
  | none =>
    match items.find? (!·.isNull) with
    | some item => inferredType registry item
    | none      => .error (.untypedLiteral (.array items))

-- An array of literals.
def array (items : List Json) (type : Option String) : Except ResolutionError Expression := do
  let element ← elementType registry items type
  let literals ← items.mapM (literalOf element)
  return .collection (← collectionType registry element) literals

def literal (json : Json) (type : Option String) : Except ResolutionError Expression :=
  match json with
  | .array items => array registry items type
  | _            => scalar registry json type

-- The type of the items of a collection, which the first item shows.
def itemType (items : List Expression) (element : Option String) :
    Except ResolutionError DataType :=
  match element, items with
  | some name, _   => requireType registry name
  | none, e :: _   => .ok e.type
  | none, []       => .error .untypedCollection

def collection (items : List Expression) (element : Option String) :
    Except ResolutionError Expression := do
  let t ← itemType registry items element
  return .collection (← collectionType registry t) items

def path (root : String) (names : List String) : Except ResolutionError Expression :=
  match roots.type? root with
  | none      => .error (.unknownRoot root)
  | some type => declared ((Path.resolve root type names).map .path)

def arithmeticOperator (symbol : String) : Except ResolutionError Arithmetic :=
  match Arithmetic.ofSymbol? symbol with
  | some o => .ok o
  | none   => .error (.unknownOperator symbol)

def comparisonOperator (symbol : String) : Except ResolutionError Comparison :=
  match Comparison.ofSymbol? symbol with
  | some o => .ok o
  | none   => .error (.unknownOperator symbol)

-- An operand is negated as a predicate or, if it is none, asked for its truth first.
def negation (e : Expression) : Except ResolutionError Expression :=
  if e.isPredicate then
    .ok e.negate
  else
    return (Expression.truth (← boolean registry) e false).negate

end Resolution

namespace Document

open Resolution

variable (registry : Registry) (roots : Roots)

mutual

def resolve : Document → Except ResolutionError Expression
  | literal v t => Resolution.literal registry v t
  | collection is t => do Resolution.collection registry (← resolveAll is) t
  | path r as => Resolution.path roots r as
  | negative e => do
    let e ← e.resolve
    return .signed e.type e true
  | arithmetic o l r t => do
    let o ← arithmeticOperator o
    let l ← l.resolve
    let r ← r.resolve
    let type ←
      match t with
      | some name => requireType registry name
      | none      => arithmeticType registry l.type r.type
    return .arithmetic type o l r
  | call f as => do
    let f ← declared (registry.requireFunction f)
    as.resolve f
  | comparison o l r n => do
    let o ← comparisonOperator o
    let type ← boolean registry
    return (Expression.comparison type o (← l.resolve) (← r.resolve) false).negateIf n
  | between e l u n => do
    let type ← boolean registry
    return (Expression.between type (← e.resolve) (← l.resolve) (← u.resolve) false).negateIf n
  | member e is n => do
    let type ← boolean registry
    return (Expression.member type (← e.resolve) (← resolveAll is) false).negateIf n
  | isNull e n => do
    let type ← boolean registry
    return (Expression.isNull type (← e.resolve) false).negateIf n
  | isEmpty e n => do
    let type ← boolean registry
    return (Expression.isEmpty type (← e.resolve) false).negateIf n
  | compound c ps n => do
    let type ← boolean registry
    return (Expression.compound type c (← resolveAll ps) false).negateIf n
  | truth e n => do
    let type ← boolean registry
    return (Expression.truth type (← e.resolve) false).negateIf n
  | not e => do negation registry (← e.resolve)

-- The call of a function with the given arguments.
def Arguments.resolve (f : Function) : Document.Arguments → Except ResolutionError Expression
  | .positional ds => do declared (f.callPositional (← resolveAll ds))
  | .named ds => do declared (f.callNamed (← resolveNamed ds))

def resolveAll : List Document → Except ResolutionError (List Expression)
  | [] => return []
  | d :: ds => do
    let e ← d.resolve
    let es ← resolveAll ds
    return e :: es

def resolveNamed : List (String × Document) → Except ResolutionError (List (String × Expression))
  | [] => return []
  | (name, d) :: ds => do
    let e ← d.resolve
    let es ← resolveNamed ds
    return (name, e) :: es

end

end Document

end Trivalent
