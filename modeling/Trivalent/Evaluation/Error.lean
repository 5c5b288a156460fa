import Trivalent.Value.Text

/-!
# Errors of evaluations

A missing capability is an error only when an evaluation needs it. All other errors come from the
values that a capability is given.
-/

namespace Trivalent

inductive EvalError
  | missingAccessor   (path : String)
  | missingComparator (type : String)
  | missingCalculator (type : String)
  | missingInvoker    (function : String)
  -- The operator has no meaning for these operands.
  | invalidOperands   (symbol : String) (left right : Value)
  -- The operator has no meaning for the type.
  | unsupported       (symbol type : String)
  | divisionByZero
  | integerOverflow   (symbol : String) (left right : Value)
  | intervalOverflow  (symbol : String) (left right : Value)
  | notCollection     (actual : Value.Kind)
  | notBoolean        (actual : Value.Kind)
  | invalidArgument   (function parameter : String) (actual : Value.Kind)
  -- The value is not of the kind that was asked for.
  | conversion        (expected actual : Value.Kind)
  -- The value has no fields.
  | invalidObject     (path : String) (actual : Value.Kind)
  -- An error of a capability of the host.
  | host              (message : String)

namespace EvalError

def other (message : String) : String :=
  "Evaluation error: " ++ message

def overflow (noun symbol : String) (left right : Value) : String :=
  other (noun ++ " overflow evaluating " ++ left.text ++ " " ++ symbol ++ " " ++ right.text)

def message : EvalError → String
  | missingAccessor path =>
    "No attribute accessor available for attribute: " ++ path
  | missingComparator type =>
    "No comparison operator interpreter available for type: " ++ type
  | missingCalculator type =>
    "No domain operator interpreter available for type: " ++ type
  | missingInvoker function =>
    "No function invoker available for function: " ++ function
  | invalidOperands symbol left right =>
    "Illegal arguments [" ++ left.text ++ ", " ++ right.text ++ "] for operator " ++ symbol
  | unsupported symbol type =>
    "Can't handle the operator " ++ symbol ++ " for type " ++ type
  | divisionByZero =>
    "Division by zero"
  | integerOverflow symbol left right =>
    overflow "integer" symbol left right
  | intervalOverflow symbol left right =>
    overflow "interval" symbol left right
  | notCollection actual =>
    "Expected a collection but got " ++ actual.name
  | notBoolean actual =>
    "Expected a boolean but got " ++ actual.name
  | invalidArgument function parameter actual =>
    "Invalid argument '" ++ parameter ++ "' for function " ++ function ++ ": unexpected " ++
      actual.name
  | conversion expected actual =>
    "Cannot convert " ++ actual.name ++ " to " ++ expected.name
  | invalidObject path actual =>
    "Attribute '" ++ path ++ "' cannot be read from " ++ actual.name
  | host message =>
    other message

end EvalError

namespace Value

-- The truth of a truth value, where null has none.
def truth? : Value → Except EvalError (Option Bool)
  | null      => .ok none
  | boolean b => .ok (some b)
  | v         => .error (.notBoolean v.kind)

/-! ## Values of a kind that is asked for -/

def toBool : Value → Except EvalError Bool
  | boolean b => .ok b
  | v         => .error (.conversion .boolean v.kind)

def toInteger : Value → Except EvalError Int64
  | integer i => .ok i
  | v         => .error (.conversion .integer v.kind)

-- Integers become the nearest doubles.
def toFloat : Value → Except EvalError Float
  | numeric x => .ok x
  | integer i => .ok (Double.ofInt i.toInt)
  | v         => .error (.conversion .numeric v.kind)

def toString : Value → Except EvalError String
  | string s => .ok s
  | v        => .error (.conversion .string v.kind)

def toList : Value → Except EvalError (List Value)
  | collection items => .ok items
  | v                => .error (.conversion .collection v.kind)

end Value

end Trivalent
