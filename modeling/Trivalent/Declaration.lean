/-!
# Errors of declarations

What is wrong with a declaration, or with a name that should refer to one.
-/

namespace Trivalent

inductive DeclarationError
  | duplicateType     (name : String)
  | duplicateFunction (name : String)
  | unknownType       (name : String)
  | unknownFunction   (name : String)
  | unknownAttribute  (type field : String)
  -- The function takes between `least` and `most` arguments.
  | argumentCount     (function : String) (least most actual : Nat)
  | missingResult     (function : String)
  | unknownArgument   (function argument : String)
  | duplicateArgument (function argument : String)
  deriving DecidableEq

namespace DeclarationError

def arityText (least most : Nat) : String :=
  if least = most then toString most else toString least ++ ".." ++ toString most

def message : DeclarationError → String
  | duplicateType name =>
    "Type '" ++ name ++ "' is already defined"
  | duplicateFunction name =>
    "Function '" ++ name ++ "' is already defined"
  | unknownType name =>
    "Unknown type '" ++ name ++ "'"
  | unknownFunction name =>
    "Unknown function '" ++ name ++ "'"
  | unknownAttribute type field =>
    "Type '" ++ type ++ "' has no attribute '" ++ field ++ "'"
  | argumentCount function least most actual =>
    "Function " ++ function ++ " expects " ++ arityText least most ++ " arguments, got " ++
      toString actual
  | missingResult function =>
    "Function " ++ function ++ " declares no result type"
  | unknownArgument function argument =>
    "Function " ++ function ++ " has no argument '" ++ argument ++ "'"
  | duplicateArgument function argument =>
    "Argument '" ++ argument ++ "' of function " ++ function ++ " is given more than once"

end DeclarationError

end Trivalent
