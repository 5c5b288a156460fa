/-!
# Operators

Comparisons with their two-way tests on orderings, the arithmetic operators of expressions, and the
operations that arithmetic carries out, which include the unary ones.
-/

namespace Trivalent

inductive Comparison
  | equal
  | notEqual
  | greater
  | greaterOrEqual
  | less
  | lessOrEqual
  deriving DecidableEq

namespace Comparison

def symbol : Comparison → String
  | equal          => "="
  | notEqual       => "<>"
  | greater        => ">"
  | greaterOrEqual => ">="
  | less           => "<"
  | lessOrEqual    => "<="

def ofSymbol? : String → Option Comparison
  | "="  => some equal
  | "==" => some equal
  | "<>" => some notEqual
  | "!=" => some notEqual
  | ">"  => some greater
  | ">=" => some greaterOrEqual
  | "<"  => some less
  | "<=" => some lessOrEqual
  | _    => none

theorem ofSymbol?_symbol (c : Comparison) : ofSymbol? c.symbol = some c := by
  cases c <;> rfl

-- Whether operands in the given order satisfy the comparison.
def test : Comparison → Ordering → Bool
  | equal, o          => o == .eq
  | notEqual, o       => o != .eq
  | greater, o        => o == .gt
  | greaterOrEqual, o => o != .lt
  | less, o           => o == .lt
  | lessOrEqual, o    => o != .gt

-- The comparison that holds exactly when this one does not.
def complement : Comparison → Comparison
  | equal          => notEqual
  | notEqual       => equal
  | greater        => lessOrEqual
  | greaterOrEqual => less
  | less           => greaterOrEqual
  | lessOrEqual    => greater

-- The comparison of the operands the other way round.
def mirror : Comparison → Comparison
  | equal          => equal
  | notEqual       => notEqual
  | greater        => less
  | greaterOrEqual => lessOrEqual
  | less           => greater
  | lessOrEqual    => greaterOrEqual

@[simp]
theorem test_complement (c : Comparison) (o : Ordering) : c.complement.test o = !c.test o := by
  cases c <;> cases o <;> rfl

@[simp]
theorem test_mirror (c : Comparison) (o : Ordering) : c.mirror.test o = c.test o.swap := by
  cases c <;> cases o <;> rfl

end Comparison

-- What arithmetic can be asked to do.
inductive Operation
  | plus
  | minus
  | times
  | divide
  | modulo
  | unaryMinus
  | unaryPlus
  | complement
  deriving DecidableEq

namespace Operation

def symbol : Operation → String
  | plus       => "+"
  | minus      => "-"
  | times      => "*"
  | divide     => "/"
  | modulo     => "%"
  | unaryMinus => "-"
  | unaryPlus  => "+"
  | complement => "NOT"

def isUnary : Operation → Bool
  | unaryMinus => true
  | unaryPlus  => true
  | complement => true
  | _          => false

end Operation

-- The operators between the operands of an arithmetic expression.
inductive Arithmetic
  | plus
  | minus
  | times
  | divide
  | modulo
  deriving DecidableEq

namespace Arithmetic

def operation : Arithmetic → Operation
  | plus   => .plus
  | minus  => .minus
  | times  => .times
  | divide => .divide
  | modulo => .modulo

def symbol (a : Arithmetic) : String :=
  a.operation.symbol

def ofSymbol? : String → Option Arithmetic
  | "+" => some plus
  | "-" => some minus
  | "*" => some times
  | "/" => some divide
  | "%" => some modulo
  | _   => none

theorem ofSymbol?_symbol (a : Arithmetic) : ofSymbol? a.symbol = some a := by
  cases a <;> rfl

end Arithmetic

end Trivalent
