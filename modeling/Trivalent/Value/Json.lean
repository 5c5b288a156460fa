import Trivalent.Value.Text
import Trivalent.Json

/-!
# Values as JSON

Values without time keep their form in JSON. Doubles without a JSON number become their text, since
null would mean that there is no value.
-/

namespace Trivalent.Value

def ofNumber : Json.Number → Value
  | .integer i => integer i
  | n          => numeric n.toFloat

mutual

def ofJson : Json → Value
  | .null           => null
  | .bool b         => boolean b
  | .number n       => ofNumber n
  | .string s       => string s
  | .array items    => collection (ofJsonItems items)
  | .object members => object (ofJsonMembers members)

def ofJsonItems : List Json → List Value
  | []            => []
  | item :: items => ofJson item :: ofJsonItems items

def ofJsonMembers : List (String × Json) → List (String × Value)
  | []                       => []
  | (name, value) :: members => (name, ofJson value) :: ofJsonMembers members

end

mutual

def toJson : Value → Json
  | null             => .null
  | boolean b        => .bool b
  | integer i        => .number (.integer i)
  | numeric x        =>
    match Json.Number.ofFloat? x with
    | some n => .number n
    | none   => .string (floatLayout.text x)
  | string s         => .string s
  | time t           => .string t.text
  | interval a       => .string a.text
  | collection items => .array (toJsonItems items)
  | object fields    => .object (toJsonMembers fields)

def toJsonItems : List Value → List Json
  | []            => []
  | item :: items => item.toJson :: toJsonItems items

def toJsonMembers : List (String × Value) → List (String × Json)
  | []                      => []
  | (name, value) :: fields => (name, value.toJson) :: toJsonMembers fields

end

end Trivalent.Value
