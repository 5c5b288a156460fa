import Trivalent.DataType
import Trivalent.Evaluation.Error
import Trivalent.Operator

/-!
# Calculating

The builtin ways to calculate with values. Integers and intervals never wrap around: a result that
does not fit is an error.
-/

namespace Trivalent.Calculating

def invalid (o : Operation) (left right : Value) : Except EvalError Value :=
  .error (.invalidOperands o.symbol left right)

def unsupported (o : Operation) (target : DataType) : Except EvalError Value :=
  .error (.unsupported o.symbol target.name)

-- The name of the type whose values are doubles.
def numericName : String := "NUMERIC"

def checkedInteger (o : Operation) (left right : Int64) (result : Int) : Except EvalError Value :=
  match word64? result with
  | some i => .ok (.integer i)
  | none => .error (.integerOverflow o.symbol (.integer left) (.integer right))

-- Division cuts off towards zero. The remainder fails where the quotient does.
def integer (target : DataType) (left right : Int64) (o : Operation) : Except EvalError Value :=
  let l := left.toInt
  let r := right.toInt
  let checked := checkedInteger o left right
  match o with
  | .plus       => checked (l + r)
  | .minus      => checked (l - r)
  | .times      => checked (l * r)
  | .divide     => if r = 0 then .error .divisionByZero else checked (l.tdiv r)
  | .modulo     =>
    if r = 0 then
      .error .divisionByZero
    else do
      let _ ← checked (l.tdiv r)
      checked (l.tmod r)
  | .unaryMinus => checked (-l)
  | .unaryPlus  => .ok (.integer left)
  | .complement => unsupported o target

def float (target : DataType) (left right : Float) (o : Operation) : Except EvalError Value :=
  match o with
  | .plus       => .ok (.numeric (left + right))
  | .minus      => .ok (.numeric (left - right))
  | .times      => .ok (.numeric (left * right))
  | .divide     => if right == 0 then .error .divisionByZero else .ok (.numeric (left / right))
  | .modulo     =>
    if right == 0 then .error .divisionByZero else .ok (.numeric (Double.remainder left right))
  | .unaryMinus => .ok (.numeric (-left))
  | .unaryPlus  => .ok (.numeric left)
  | .complement => unsupported o target

-- Two integers give an integer unless a double is asked for. All other numbers are taken as
-- doubles.
def numeric (target : DataType) (left right : Value) (o : Operation) : Except EvalError Value :=
  match left, right with
  | .integer l, .integer r =>
    if target.name = numericName then
      float target (Double.ofInt l.toInt) (Double.ofInt r.toInt) o
    else
      integer target l r o
  | .integer l, .numeric r => float target (Double.ofInt l.toInt) r o
  | .numeric l, .integer r => float target l (Double.ofInt r.toInt) o
  | .numeric l, .numeric r => float target l r o
  | _, _                   => invalid o left right

-- Values of any kind can be joined to a string.
def string (target : DataType) (left right : Value) (o : Operation) : Except EvalError Value :=
  match o with
  | .plus => .ok (.string (left.plainText ++ right.plainText))
  | _     => unsupported o target

def checkedInterval (o : Operation) (left right : Value) (result : Option Interval) :
    Except EvalError Value :=
  match result with
  | some a => .ok (.interval a)
  | none => .error (.intervalOverflow o.symbol left right)

-- Intervals are added, subtracted and turned over; times of day are shifted by intervals.
def time (target : DataType) (left right : Value) (o : Operation) : Except EvalError Value :=
  match left, right, o with
  | .interval l, .interval r, .plus  => checkedInterval o left right (l.add? r)
  | .interval l, .interval r, .minus => checkedInterval o left right (l.sub? r)
  | .interval l, _, .unaryMinus      => checkedInterval o left right l.neg?
  | .time t, .interval a, .plus      => .ok (.time (t.add a))
  | .interval a, .time t, .plus      => .ok (.time (t.add a))
  | .time t, .interval a, .minus     => .ok (.time (t.sub a))
  | .time _, .time _, _              => unsupported o target
  | .time _, .interval _, _          => unsupported o target
  | .interval _, .time _, _          => unsupported o target
  | .interval _, .interval _, _      => unsupported o target
  | _, _, _                          => invalid o left right

end Trivalent.Calculating
