import Trivalent.DataType
import Trivalent.Declaration
import Trivalent.Json.Text
import Trivalent.Text.Quoted
import Trivalent.TimeOfDay.Reading
import Trivalent.Value.Json

/-!
# Literals

Reading a JSON value as a value of a declared type. Null is a value of every type. Which form is
asked for depends on the name of the type, for enumerations on its constants; JSON of entity and
collection types is taken as it is.
-/

namespace Trivalent

namespace Interval

-- Why a JSON object is no interval.
inductive ReadError
  -- A component is not an integer.
  | notInteger (actual : Json)
  -- A component does not fit its word.
  | outOfRange (actual : Json.Number)

namespace ReadError

def found : Json → String
  | .null     => "null"
  | .bool b   => "boolean `" ++ (if b then "true" else "false") ++ "`"
  | .number n => "floating point `" ++ n.text ++ "`"
  | .string s => "string " ++ Text.quoted s
  | .array _  => "sequence"
  | .object _ => "map"

def message : ReadError → String
  | notInteger actual => "invalid type: " ++ found actual ++ ", expected i32"
  | outOfRange actual => "invalid value: integer `" ++ actual.text ++ "`, expected i32"

end ReadError

def readComponent : Json → Except ReadError Int32
  | .number (.integer i) =>
    match word32? i.toInt with
    | some w => .ok w
    | none   => .error (.outOfRange (.integer i))
  | .number (.unsigned n large) => .error (.outOfRange (.unsigned n large))
  | actual => .error (.notInteger actual)

-- Sets the component of the given name, if there is one.
def setComponent (a : Interval) (name : String) (value : Json) : Except ReadError Interval :=
  match name with
  | "years"   => return { a with years := ← readComponent value }
  | "months"  => return { a with months := ← readComponent value }
  | "days"    => return { a with days := ← readComponent value }
  | "hours"   => return { a with hours := ← readComponent value }
  | "minutes" => return { a with minutes := ← readComponent value }
  | "seconds" => return { a with seconds := ← readComponent value }
  | _         => return a

-- Components that are not given are zero.
def ofMembers (members : List (String × Json)) : Except ReadError Interval :=
  members.foldlM (fun a member => a.setComponent member.1 member.2) zero

def toMembers (a : Interval) : List (String × Json) :=
  let component (w : Int32) : Json := .number (.integer w.toInt64)
  [("years", component a.years), ("months", component a.months), ("days", component a.days),
   ("hours", component a.hours), ("minutes", component a.minutes), ("seconds", component a.seconds)]

end Interval

-- Why a JSON value is no value of a type.
inductive LiteralError
  | notInteger
  | time     (e : TimeOfDay.ReadError)
  | interval (e : Interval.ReadError)
  | shape
  | notConstant

def LiteralError.message : LiteralError → String
  | notInteger  => "not an integer"
  | time e      => e.message
  | interval e  => e.message
  | shape       => "unexpected JSON type"
  | notConstant => "not a constant of the enumeration"

namespace Literal

-- What the values of a type are read from.
inductive Form
  | integer
  | numeric
  | string
  | boolean
  | time
  | interval
  | constant (constants : List String)
  | any

def form (t : DataType) : Form :=
  match t.name with
  | "INTEGER"  => .integer
  | "NUMERIC"  => .numeric
  | "STRING"   => .string
  | "BOOLEAN"  => .boolean
  | "TIME"     => .time
  | "INTERVAL" => .interval
  | _ =>
    match t.shape with
    | .enumeration constants => .constant constants
    | _ => .any

def readInteger : Json → Except LiteralError Value
  | .number (.integer i) => .ok (.integer i)
  | .number _            => .error .notInteger
  | _                    => .error .shape

def readNumeric : Json → Except LiteralError Value
  | .number n => .ok (.numeric n.toFloat)
  | _         => .error .shape

def readString : Json → Except LiteralError Value
  | .string s => .ok (.string s)
  | _         => .error .shape

def readBoolean : Json → Except LiteralError Value
  | .bool b => .ok (.boolean b)
  | _       => .error .shape

def readTime : Json → Except LiteralError Value
  | .string s => ((TimeOfDay.ofText s).mapError .time).map .time
  | _         => .error .shape

def readInterval : Json → Except LiteralError Value
  | .object members => ((Interval.ofMembers members).mapError .interval).map .interval
  | _               => .error .shape

def readConstant (constants : List String) : Json → Except LiteralError Value
  | .string s => if s ∈ constants then .ok (.string s) else .error .notConstant
  | _         => .error .notConstant

def read (t : DataType) (json : Json) : Except LiteralError Value :=
  if json.isNull then
    .ok .null
  else
    match form t with
    | .integer            => readInteger json
    | .numeric            => readNumeric json
    | .string             => readString json
    | .boolean            => readBoolean json
    | .time               => readTime json
    | .interval           => readInterval json
    | .constant constants => readConstant constants json
    | .any                => .ok (.ofJson json)

end Literal

-- Why a document or a configuration has no meaning among the registered types and functions.
inductive ResolutionError
  | declaration       (e : DeclarationError)
  | unknownRoot       (name : String)
  | unknownOperator   (symbol : String)
  -- The literal does not show its type.
  | untypedLiteral    (json : Json)
  -- An empty collection does not show the type of its items.
  | untypedCollection
  | invalidLiteral    (json : Json) (type : String) (reason : LiteralError)

namespace ResolutionError

def message : ResolutionError → String
  | declaration e => e.message
  | unknownRoot name => "Unknown alias '" ++ name ++ "'"
  | unknownOperator symbol => "Unknown operator '" ++ symbol ++ "'"
  | untypedLiteral json => "Cannot infer a type for literal " ++ json.text
  | untypedCollection => "Cannot infer a type for literal ()"
  | invalidLiteral json type reason =>
    "Invalid literal " ++ json.text ++ " for type " ++ type ++ ": " ++ reason.message

end ResolutionError

-- The value of a literal of a type.
def Literal.value (t : DataType) (json : Json) : Except ResolutionError Value :=
  (read t json).mapError (.invalidLiteral json t.name)

end Trivalent
