import Trivalent.Configuration
import Trivalent.Json.Draft

/-!
# Reading configurations

A configuration and its bindings are written as objects, whose fields come in any order together
with fields that nobody knows, or as arrays of the fields in their order. All fields but the type of
a binding may be left out. A configuration is taken from a draft of its text from left to right.
-/

namespace Trivalent.Configuration

open Json (Fault Draft)

-- Asks for an object whose names are free.
def takeDictionary (f : Draft → Except Fault α) (d : Draft) : Except Fault (Dictionary α) :=
  match d with
  | .object members ending => do
    let entries ← members.mapM fun (name, value) => do
      let name ← name.takeName
      return (name, ← f value)
    Draft.orFault ending
    return Dictionary.ofList entries
  | .flawed flaw => .error flaw.taken
  | _ => .error .misshapen

def takeList (f : Draft → Except Fault α) (d : Draft) : Except Fault (List α) :=
  match d with
  | .array items ending => do
    let items ← items.mapM f
    Draft.orFault ending
    return items
  | .flawed flaw => .error flaw.taken
  | _ => .error .misshapen

-- A field of a record: its name and how a value sets it.
structure Field (α : Type) where
  name : String
  set  : α → Draft → Except Fault α

-- Takes the members of a record. Each field is given at most once; other members are skipped.
def takeMembers (fields : List (Field α)) (seen : List String) (a : α) :
    List (Draft × Draft) → Except Fault (α × List String)
  | [] => .ok (a, seen)
  | (name, value) :: members => do
    let name ← name.takeName
    match fields.find? (·.name = name) with
    | some field =>
      if name ∈ seen then
        throw .misshapen
      else
        takeMembers fields (name :: seen) (← field.set a value) members
    | none =>
      Draft.orFault value.ending?
      takeMembers fields seen a members

-- Takes the items of a record, of which there are at most as many as fields.
def takeItems (a : α) (ending : Option Fault) :
    List (Field α) → List Draft → Except Fault (α × List String)
  | _, [] => do
    Draft.orFault ending
    return (a, [])
  | [], _ :: _ => .error .malformed
  | field :: fields, item :: items => do
    let (a, seen) ← takeItems (← field.set a item) ending fields items
    return (a, field.name :: seen)

-- Asks for a record. Also gives the names of the fields that were set.
def takeRecord (fields : List (Field α)) (a : α) : Draft → Except Fault (α × List String)
  | .object members ending => do
    let result ← takeMembers fields [] a members
    Draft.orFault ending
    return result
  | .array items ending => takeItems a ending fields items
  | .flawed flaw => .error flaw.taken
  | _ => .error .misshapen

-- How deep the values of roots stand in a configuration.
def valueDepth : Nat := 3

def Binding.fields (depth : Nat) : List (Field Binding) :=
  [⟨"type", fun b d => return { b with type := ← d.takeName }⟩,
   ⟨"value", fun b d => return { b with value := (← d.take (depth - valueDepth)).canonical }⟩]

def Binding.take (depth : Nat) (d : Draft) : Except Fault Binding := do
  let (b, seen) ← takeRecord (Binding.fields depth) ⟨"", .null⟩ d
  if "type" ∈ seen then return b else throw .misshapen

def fields (depth : Nat) : List (Field Configuration) :=
  [⟨"entities", fun c d =>
      return { c with entities := ← takeDictionary (takeDictionary Draft.takeName) d }⟩,
   ⟨"enums", fun c d =>
      return { c with enumerations := ← takeDictionary (takeList Draft.takeName) d }⟩,
   ⟨"roots", fun c d =>
      return { c with roots := ← takeDictionary (Binding.take depth) d }⟩]

-- Asks for a configuration whose arrays and objects are nested at most to the given depth.
def take (depth : Nat) (d : Draft) : Except Fault Configuration := do
  let (c, _) ← takeRecord (fields depth) empty d
  return c

-- The configuration that a JSON value is written for.
def ofJson? (json : Json) : Option Configuration :=
  (take json.depth (.ofJson json)).toOption

-- Reads a text that holds one configuration.
def ofText (text : String) : Except Fault Configuration := do
  let (draft, trailing) := Draft.ofText text
  let c ← take Json.nestingLimit draft
  Draft.orFault trailing
  return c

end Trivalent.Configuration
