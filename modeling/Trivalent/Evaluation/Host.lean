import Trivalent.Evaluation.Action
import Trivalent.Roots

/-!
# Hosts

A host gives capabilities that are not builtin their meaning. What an invoker of the host does is a
script: it reads and writes properties and has the bodies of its invoker evaluated, as often as it
likes and in an order that may depend on what it has seen so far.
-/

namespace Trivalent

inductive Script
  | done     (outcome : Except EvalError Value)
  | read     (key : String) (next : Option Value → Script)
  -- Sets a property or, without a value, removes it.
  | write    (key : String) (value : Option Value) (next : Script)
  -- A body that the invoker does not have is null.
  | evaluate (body : Nat) (next : Except EvalError Value → Script)

namespace Script

-- Runs a script, given the evaluations of the bodies.
def run (bodies : List (Action Value)) : Script → Action Value
  | done outcome         => Action.ofExcept outcome
  | read key next        => do (next (← Action.property key)).run bodies
  | write key value next => do
    Action.setProperty key value
    next.run bodies
  | evaluate body next   =>
    (bodies[body]?.getD (Action.pure .null)).settle fun outcome => (next outcome).run bodies

end Script

-- A conversion of values of a type, which may use the roots and the properties.
abbrev Conversion :=
  Roots → DataType → Value → Dictionary Value → Except EvalError Value × Dictionary Value

-- The meaning of the capabilities of a host by their names.
structure Host where
  access     : String → Attribute → Value → Except EvalError Value
  toInternal : String → Conversion
  toModel    : String → Conversion
  compare    : String → DataType → DataType → Value → Value → Comparison →
               Except EvalError (Option Bool)
  calculate  : String → DataType → DataType → DataType → Value → Value → Operation →
               Except EvalError Value
  invoke     : String → Roots → Function → Arguments → Script

namespace Host

-- The host without capabilities of its own: whatever is asked of it has no value.
def none : Host where
  access _ _ _            := .ok .null
  toInternal _ _ _ v ps   := (.ok v, ps)
  toModel _ _ _ v ps      := (.ok v, ps)
  compare _ _ _ _ _ _     := .ok Option.none
  calculate _ _ _ _ _ _ _ := .ok .null
  invoke _ _ _ _          := .done (.ok .null)

end Host

end Trivalent
