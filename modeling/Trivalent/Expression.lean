import Trivalent.DataType
import Trivalent.Operator
import Trivalent.Value

/-!
# Expressions

Expression trees over declared types, and the functions that they call. Every node holds the
declared type of its value. Predicates hold a flag that negates them.

A function is computed by its invoker. An invoker of the host may own expressions, its bodies, which
it can have evaluated while it runs.
-/

namespace Trivalent

structure Parameter where
  name     : String
  position : Nat
  type     : DataType
  adapter  : Option Adapter

-- An attribute of an attribute … of the object that a root name is bound to.
structure Path where
  type       : DataType
  root       : String
  attributes : List Attribute

inductive Connective
  | and
  | or
  deriving DecidableEq

-- The truth of the empty compound. The other truth decides a compound.
def Connective.identity : Connective → Bool
  | and => true
  | or  => false

mutual

inductive Expression
  | literal    (type : DataType) (value : Value)
  | collection (type : DataType) (items : List Expression)
  | path       (path : Path)
  -- A unary minus or a unary plus.
  | signed     (type : DataType) (operand : Expression) (negative : Bool)
  | arithmetic (type : DataType) (operator : Arithmetic) (left right : Expression)
  | call       (type : DataType) (function : Function) (arguments : List (Parameter × Expression))
  | comparison (type : DataType) (operator : Comparison) (left right : Expression) (negated : Bool)
  | between    (type : DataType) (operand lower upper : Expression) (negated : Bool)
  | member     (type : DataType) (operand : Expression) (items : List Expression) (negated : Bool)
  | isNull     (type : DataType) (operand : Expression) (negated : Bool)
  | isEmpty    (type : DataType) (operand : Expression) (negated : Bool)
  | compound   (type : DataType) (connective : Connective) (predicates : List Expression)
               (negated : Bool)
  -- An expression of any kind whose value is a truth.
  | truth      (type : DataType) (operand : Expression) (negated : Bool)

structure Function where
  name       : String
  parameters : List Parameter
  -- The least number of arguments, if some may be left off.
  least      : Option Nat
  result     : Option DataType
  invoker    : Option Invoker
  adapter    : Option Adapter

inductive Invoker
  | length
  | locate
  | random
  | host (name : String) (bodies : List Expression)

end

namespace Function

-- Parameters take their positions in the order of their declaration.
def numbered (parameters : List Parameter) : List Parameter :=
  parameters.mapIdx fun position p => { p with position }

def declare (name : String) (parameters : List Parameter) (least : Option Nat)
    (result : Option DataType) (invoker : Option Invoker) (adapter : Option Adapter) : Function :=
  ⟨name, numbered parameters, least, result, invoker, adapter⟩

def leastArguments (f : Function) : Nat :=
  f.least.getD f.parameters.length

def mostArguments (f : Function) : Nat :=
  f.parameters.length

def parameter? (f : Function) (name : String) : Option Parameter :=
  f.parameters.find? (·.name = name)

end Function

namespace Expression

-- The declared type of the value.
def type : Expression → DataType
  | literal t ..    => t
  | collection t .. => t
  | path p          => p.type
  | signed t ..     => t
  | arithmetic t .. => t
  | call t ..       => t
  | comparison t .. => t
  | between t ..    => t
  | member t ..     => t
  | isNull t ..     => t
  | isEmpty t ..    => t
  | compound t ..   => t
  | truth t ..      => t

def isPredicate : Expression → Bool
  | comparison .. => true
  | between ..    => true
  | member ..     => true
  | isNull ..     => true
  | isEmpty ..    => true
  | compound ..   => true
  | truth ..      => true
  | _             => false

-- A predicate turns its flag over. Any other expression is asked for its truth, which is
-- negated.
def negate : Expression → Expression
  | comparison t o l r n => comparison t o l r !n
  | between t e l u n    => between t e l u !n
  | member t e is n      => member t e is !n
  | isNull t e n         => isNull t e !n
  | isEmpty t e n        => isEmpty t e !n
  | compound t c ps n    => compound t c ps !n
  | truth t e n          => truth t e !n
  | e                    => truth e.type e true

def negateIf (negated : Bool) (e : Expression) : Expression :=
  if negated then e.negate else e

mutual

-- There are neither paths nor calls in the expression.
def isConstant : Expression → Bool
  | literal ..         => true
  | collection _ is    => areConstant is
  | path _             => false
  | signed _ e _       => e.isConstant
  | arithmetic _ _ l r => l.isConstant && r.isConstant
  | call ..            => false
  | comparison _ _ l r _ => l.isConstant && r.isConstant
  | between _ e l u _  => e.isConstant && l.isConstant && u.isConstant
  | member _ e is _    => e.isConstant && areConstant is
  | isNull _ e _       => e.isConstant
  | isEmpty _ e _      => e.isConstant
  | compound _ _ ps _  => areConstant ps
  | truth _ e _        => e.isConstant

def areConstant : List Expression → Bool
  | []      => true
  | e :: es => e.isConstant && areConstant es

end

end Expression

end Trivalent
