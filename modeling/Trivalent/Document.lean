import Trivalent.Json
import Trivalent.Operator
import Trivalent.Expression

/-!
# Documents

A document is an expression as it is written: types, functions and operators are given by names that
need not exist.
-/

namespace Trivalent

mutual

inductive Document
  -- Any JSON value, in canonical form. An array stands for a collection of literals.
  | literal    (value : Json) (type : Option String)
  | collection (items : List Document) (element : Option String)
  | path       (root : String) (attributes : List String)
  | negative   (operand : Document)
  | arithmetic (operator : String) (left right : Document) (type : Option String)
  | call       (function : String) (arguments : Document.Arguments)
  | comparison (operator : String) (left right : Document) (negated : Bool)
  | between    (operand lower upper : Document) (negated : Bool)
  | member     (operand : Document) (items : List Document) (negated : Bool)
  | isNull     (operand : Document) (negated : Bool)
  | isEmpty    (operand : Document) (negated : Bool)
  | compound   (connective : Connective) (predicates : List Document) (negated : Bool)
  | truth      (operand : Document) (negated : Bool)
  | not        (operand : Document)

inductive Document.Arguments
  | positional (arguments : List Document)
  -- The arguments are a dictionary.
  | named      (arguments : List (String × Document))

end

end Trivalent
