import Trivalent.Evaluation.Calculating
import Trivalent.Evaluation.Comparing
import Trivalent.Evaluation.Invoking

/-!
# Evaluation

The meaning of expressions in three-valued logic. A missing value makes every node that needs it
null, except where a node asks for nulls or is decided before it meets one.

The value of a node is internal. A path whose last attribute has an adapter, and a call of a
function with one, leave this adapter pending: it is up to the node above, or to the caller, to
convert the value with it. The meaning of a node is built from the meanings of its children, which
are actions.
-/

namespace Trivalent

-- The internal value of a node and the adapter that it leaves pending.
structure Evaluated where
  value   : Value
  pending : Option Adapter

namespace Evaluated

def plain (v : Value) : Evaluated := ⟨v, none⟩

def ofTruth (t : Option Bool) : Evaluated := plain (.ofTruth t)

end Evaluated

-- The meaning of a node together with its declared type.
structure Operand where
  type   : DataType
  action : Action Evaluated

namespace Operand

-- The internal value. A pending adapter is dropped.
def value (o : Operand) : Action Value :=
  (·.value) <$> o.action

end Operand

namespace Evaluation

variable (host : Host) (roots : Roots)

/-! ## Capabilities -/

def toInternal (adapter : Adapter) (type : DataType) (v : Value) : Action Value := do
  Action.note (.toInternal adapter type v)
  Action.onProperties (host.toInternal adapter.name roots type v)

def toModel (adapter : Adapter) (type : DataType) (v : Value) : Action Value := do
  Action.note (.toModel adapter type v)
  Action.onProperties (host.toModel adapter.name roots type v)

-- Objects have the value null in fields that they do not have.
def accessField (field : Attribute) : Value → Except EvalError Value
  | .object fields => .ok ((Dictionary.find? fields field.name).getD .null)
  | v              => .error (.invalidObject field.text v.kind)

def access (field : Attribute) (object : Value) : Action Value :=
  match field.accessor with
  | none => Action.fail (.missingAccessor field.text)
  | some accessor => do
    Action.note (.access accessor field object)
    match accessor with
    | .field     => Action.ofExcept (accessField field object)
    | .host name => Action.ofExcept (host.access name field object)

-- The comparator is that of the left type.
def compare (leftType rightType : DataType) (left right : Value) (operator : Comparison) :
    Action (Option Bool) :=
  match leftType.comparator with
  | none => Action.fail (.missingComparator leftType.name)
  | some comparator => do
    Action.note (.compare comparator leftType left operator rightType right)
    Action.ofExcept <|
      match comparator with
      | .numeric     => Comparing.numeric left right operator
      | .string      => Comparing.string left right operator
      | .boolean     => Comparing.boolean leftType left right operator
      | .time        => Comparing.time left right operator
      | .enumeration => Comparing.enumeration leftType left right operator
      | .host name   => host.compare name leftType rightType left right operator

-- The calculator is that of the type of the result.
def calculate (target leftType rightType : DataType) (left right : Value) (operation : Operation) :
    Action Value :=
  match target.calculator with
  | none => Action.fail (.missingCalculator target.name)
  | some calculator => do
    Action.note (.calculate calculator target leftType left operation rightType right)
    Action.ofExcept <|
      match calculator with
      | .numeric   => Calculating.numeric target left right operation
      | .string    => Calculating.string target left right operation
      | .time      => Calculating.time target left right operation
      | .host name => host.calculate name target leftType rightType left right operation

/-! ## Nodes -/

-- Goes on with a value unless it is null.
def unlessNull (o : Operand) (missing : α) (f : Value → Action α) : Action α := do
  let v ← o.value
  if v.isNull then return missing else f v

-- Reads one attribute and converts what was read.
def step (field : Attribute) (object : Value) : Action Value := do
  let v ← access host field object
  match field.adapter with
  | some adapter => toInternal host roots adapter field.type v
  | none         => return v

-- Follows the attributes from an object. A null on the way ends the walk without a pending
-- adapter.
def walk (object : Value) : List Attribute → Action Evaluated
  | [] => return .plain object
  | [last] => do
    if object.isNull then
      return .plain .null
    else
      return ⟨← step host roots last object, last.adapter⟩
  | field :: fields => do
    if object.isNull then
      return .plain .null
    else
      walk (← step host roots field object) fields

def path (p : Path) : Action Evaluated :=
  walk host roots (roots.object p.root) p.attributes

def signed (type : DataType) (operand : Operand) (negative : Bool) : Action Value :=
  unlessNull operand .null fun v =>
    if negative then calculate host type type type v v .unaryMinus else return v

def arithmetic (type : DataType) (operator : Arithmetic) (left right : Operand) : Action Value :=
  unlessNull left .null fun l =>
    unlessNull right .null fun r =>
      calculate host type left.type right.type l r operator.operation

def comparison (operator : Comparison) (left right : Operand) (negated : Bool) :
    Action (Option Bool) :=
  unlessNull left none fun l =>
    unlessNull right none fun r => do
      let result ← compare host left.type right.type l r operator
      return result.map (· != negated)

-- Both bounds are asked in turn, the first one that equals `negated` decides.
def between (operand lower upper : Operand) (negated : Bool) : Action (Option Bool) :=
  unlessNull operand none fun v =>
    unlessNull lower none fun l => do
      match ← compare host operand.type lower.type v l .greaterOrEqual with
      | none => return none
      | some above =>
        if above = negated then
          return some negated
        else
          unlessNull upper none fun u => do
            match ← compare host operand.type upper.type v u .lessOrEqual with
            | none => return none
            | some below => return some (if below = negated then negated else !negated)

-- The items are compared in turn, the first comparison that differs from `negated` decides.
def memberOf (type : DataType) (v : Value) (negated : Bool) : List Operand → Action (Option Bool)
  | [] => return some negated
  | item :: items =>
    unlessNull item none fun w => do
      match ← compare host type item.type v w .equal with
      | none => return none
      | some equal => if equal = negated then memberOf type v negated items else return some equal

def member (operand : Operand) (items : List Operand) (negated : Bool) : Action (Option Bool) :=
  unlessNull operand none fun v => memberOf host operand.type v negated items

def isNull (operand : Operand) (negated : Bool) : Action Value := do
  let v ← operand.value
  return .boolean (v.isNull != negated)

def isEmpty (operand : Operand) (negated : Bool) : Action Value := do
  match ← operand.value with
  | .null => return .null
  | .collection items => return .boolean (items.isEmpty != negated)
  | v => Action.fail (.notCollection v.kind)

-- The truth of a value.
def truth (operand : Operand) : Action (Option Bool) := do
  Action.ofExcept (← operand.value).truth?

-- The predicates are asked in turn, the first one that differs from `identity` decides.
def compound (identity : Bool) : List Operand → Action (Option Bool)
  | [] => return some identity
  | predicate :: predicates => do
    match ← truth predicate with
    | none => return none
    | some t => if t = identity then compound identity predicates else return some t

-- Applies the pending adapter of a value that leaves the evaluation.
def finish (o : Operand) : Action Value := do
  let e ← o.action
  match e.pending with
  | some adapter => toModel host roots adapter o.type e.value
  | none         => return e.value

-- The value of an argument: a pending adapter takes it to its internal form, the adapter of the
-- parameter to its model form.
def argument (p : Parameter) (o : Operand) : Action Value := do
  let e ← o.action
  let v ←
    match e.pending with
    | some adapter => toInternal host roots adapter p.type e.value
    | none         => pure e.value
  match p.adapter with
  | some adapter => toModel host roots adapter p.type v
  | none         => return v

def arguments (given : Arguments) : List (Parameter × Operand) → Action Arguments
  | [] => return given
  | (p, o) :: rest => do
    let v ← argument host roots p o
    arguments (given.insert p v) rest

-- The values of items.
def items : List Operand → Action (List Value)
  | [] => return []
  | item :: rest => do
    let v ← item.value
    let vs ← items rest
    return v :: vs

-- A function without an invoker fails before its arguments are evaluated.
def call (f : Function) (given : List (Parameter × Operand)) (bodies : List (Action Value)) :
    Action Evaluated :=
  match f.invoker with
  | none => Action.fail (.missingInvoker f.name)
  | some invoker => do
    let values ← arguments host roots .empty given
    Action.note (.invoke f values)
    let v ← Invoking.run host roots f invoker bodies values
    return ⟨v, f.adapter⟩

end Evaluation

namespace Expression

open Evaluation

variable (host : Host) (roots : Roots)

mutual

-- The meaning of an expression.
def meaning : Expression → Action Evaluated
  | literal _ v => return .plain v
  | collection _ is => do return .plain (.collection (← items (operands is)))
  | path p => Evaluation.path host roots p
  | signed t e negative => .plain <$> Evaluation.signed host t ⟨e.type, e.meaning⟩ negative
  | arithmetic t o l r =>
    .plain <$> Evaluation.arithmetic host t o ⟨l.type, l.meaning⟩ ⟨r.type, r.meaning⟩
  | call _ f as => Evaluation.call host roots f (argumentOperands as) (bodies f)
  | comparison _ o l r n =>
    .ofTruth <$> Evaluation.comparison host o ⟨l.type, l.meaning⟩ ⟨r.type, r.meaning⟩ n
  | between _ e l u n =>
    .ofTruth <$>
      Evaluation.between host ⟨e.type, e.meaning⟩ ⟨l.type, l.meaning⟩ ⟨u.type, u.meaning⟩ n
  | member _ e is n => .ofTruth <$> Evaluation.member host ⟨e.type, e.meaning⟩ (operands is) n
  | isNull _ e n => .plain <$> Evaluation.isNull ⟨e.type, e.meaning⟩ n
  | isEmpty _ e n => .plain <$> Evaluation.isEmpty ⟨e.type, e.meaning⟩ n
  | compound _ c ps n =>
    (fun t => .ofTruth (t.map (· != n))) <$> Evaluation.compound c.identity (operands ps)
  | truth _ e n => (fun t => .ofTruth (t.map (· != n))) <$> Evaluation.truth ⟨e.type, e.meaning⟩

def operands : List Expression → List Operand
  | []      => []
  | e :: es => ⟨e.type, e.meaning⟩ :: operands es

def argumentOperands : List (Parameter × Expression) → List (Parameter × Operand)
  | []           => []
  | (p, e) :: as => (p, ⟨e.type, e.meaning⟩) :: argumentOperands as

-- The evaluations of the bodies of a function.
def bodies : Function → List (Action Value)
  | ⟨_, _, _, _, invoker, _⟩ => invokerBodies invoker

def invokerBodies : Option Invoker → List (Action Value)
  | some (.host _ es) => evaluations es
  | some .length      => []
  | some .locate      => []
  | some .random      => []
  | none              => []

def evaluations : List Expression → List (Action Value)
  | []      => []
  | e :: es => finish host roots ⟨e.type, e.meaning⟩ :: evaluations es

end

-- The expression as an operand.
def operand (e : Expression) : Operand :=
  ⟨e.type, e.meaning host roots⟩

-- The internal value.
def internal (e : Expression) : Action Value :=
  (e.operand host roots).value

-- The value in the form that callers see.
def evaluate (e : Expression) : Action Value :=
  finish host roots (e.operand host roots)

-- Whether the expression is true. A missing truth is not.
def evaluatePredicate (e : Expression) : Action Bool := do
  match ← e.evaluate host roots with
  | .boolean b => return b
  | _          => return false

end Expression

end Trivalent
