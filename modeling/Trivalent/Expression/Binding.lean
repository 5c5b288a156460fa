import Trivalent.Declaration
import Trivalent.Expression

/-!
# Binding names

Attribute names become paths along the types of the attributes, and arguments become calls in which
every argument has its parameter, in the order in which the parameters are declared.
-/

namespace Trivalent

namespace Path

-- The attributes along a path from a type, and the type of the last one.
def follow (type : DataType) : List String → Except DeclarationError (DataType × List Attribute)
  | [] => .ok (type, [])
  | name :: names =>
    match type.attribute? name with
    | none => .error (.unknownAttribute type.name name)
    | some a => do
      let (last, rest) ← follow a.type names
      return (last, a :: rest)

def resolve (root : String) (type : DataType) (names : List String) :
    Except DeclarationError Path := do
  let (last, attributes) ← follow type names
  return ⟨last, root, attributes⟩

end Path

namespace Function

def checkArity (f : Function) (actual : Nat) : Except DeclarationError Unit :=
  if actual < f.leastArguments ∨ f.mostArguments < actual then
    .error (.argumentCount f.name f.leastArguments f.mostArguments actual)
  else
    .ok ()

-- The call with arguments that already have their parameters.
def bound (f : Function) (arguments : List (Parameter × Expression)) :
    Except DeclarationError Expression :=
  match f.result with
  | some type => .ok (.call type f arguments)
  | none => .error (.missingResult f.name)

def callPositional (f : Function) (arguments : List Expression) :
    Except DeclarationError Expression := do
  f.checkArity arguments.length
  f.bound (f.parameters.zip arguments)

-- Gives named arguments their parameters, in the order in which they are given.
def bindNamed (f : Function) (seen : List Nat) :
    List (String × Expression) → Except DeclarationError (List (Parameter × Expression))
  | [] => .ok []
  | (name, e) :: arguments =>
    match f.parameter? name with
    | none => .error (.unknownArgument f.name name)
    | some p =>
      if p.position ∈ seen then
        .error (.duplicateArgument f.name p.name)
      else do
        let rest ← f.bindNamed (p.position :: seen) arguments
        return (p, e) :: rest

def callNamed (f : Function) (arguments : List (String × Expression)) :
    Except DeclarationError Expression := do
  f.checkArity arguments.length
  let pairs ← f.bindNamed [] arguments
  f.bound (pairs.mergeSort fun a b => a.1.position ≤ b.1.position)

end Function

end Trivalent
