import Trivalent.DataType
import Trivalent.Evaluation.Error
import Trivalent.Operator

/-!
# Comparing

The builtin ways to compare values. A comparison without a value, as one with NaN, is `none`.
-/

namespace Trivalent.Comparing

def invalid (c : Comparison) (left right : Value) : Except EvalError (Option Bool) :=
  .error (.invalidOperands c.symbol left right)

-- Two integers are compared exactly, all other numbers as doubles.
def numeric (left right : Value) (c : Comparison) : Except EvalError (Option Bool) :=
  match left, right with
  | .integer l, .integer r => .ok (some (c.test (compare l.toInt r.toInt)))
  | .integer l, .numeric r => .ok ((Double.order? (Double.ofInt l.toInt) r).map c.test)
  | .numeric l, .integer r => .ok ((Double.order? l (Double.ofInt r.toInt)).map c.test)
  | .numeric l, .numeric r => .ok ((Double.order? l r).map c.test)
  | _, _                   => invalid c left right

-- Strings are ordered by their code points.
def string (left right : Value) (c : Comparison) : Except EvalError (Option Bool) :=
  match left, right with
  | .string l, .string r => .ok (some (c.test (compare l r)))
  | _, _                 => invalid c left right

-- Truth values have no order.
def boolean (type : DataType) (left right : Value) (c : Comparison) :
    Except EvalError (Option Bool) :=
  match left, right with
  | .boolean l, .boolean r =>
    match c with
    | .equal    => .ok (some (l == r))
    | .notEqual => .ok (some (l != r))
    | _         => .error (.unsupported c.symbol type.name)
  | _, _ => invalid c left right

def time (left right : Value) (c : Comparison) : Except EvalError (Option Bool) :=
  match left, right with
  | .time l, .time r         => .ok (some (c.test (l.order r)))
  | .interval l, .interval r => .ok (some (c.test (l.order r)))
  | _, _                     => invalid c left right

-- Constants are ordered as they are declared. Other strings are equal or not, without an order.
def enumeration (type : DataType) (left right : Value) (c : Comparison) :
    Except EvalError (Option Bool) :=
  match left, right with
  | .string l, .string r =>
    match type.constants.idxOf? l, type.constants.idxOf? r with
    | some i, some j => .ok (some (c.test (compare i j)))
    | _, _ =>
      match c with
      | .equal    => .ok (some (l == r))
      | .notEqual => .ok (some (l != r))
      | _         => invalid c left right
  | _, _ => invalid c left right

end Trivalent.Comparing
