import Trivalent.Json
import Trivalent.Decimal.Layout

/-!
# JSON texts

Writing JSON, either without any blanks or with one item a line. Characters beyond ASCII stand for
themselves.
-/

namespace Trivalent.Json

-- Doubles keep a digit after the point, which shows that they are no integers, and turn to an
-- exponent below `0.00001` and from `1e+16` on.
def floatLayout : Decimal.Layout :=
  ⟨some (-5, 15), true, .even⟩

namespace Number

def text : Number → String
  | integer i    => toString i.toInt
  | unsigned n _ => toString n.toNat
  | float x _    => floatLayout.text x

end Number

def hexDigit (n : Nat) : Char :=
  Nat.digitChar n

def escapedChar (c : Char) : List Char :=
  match c with
  | '"'    => ['\\', '"']
  | '\\'   => ['\\', '\\']
  | '\x08' => ['\\', 'b']
  | '\x0c' => ['\\', 'f']
  | '\n'   => ['\\', 'n']
  | '\r'   => ['\\', 'r']
  | '\t'   => ['\\', 't']
  | _      =>
    if c < ' ' then
      ['\\', 'u', '0', '0', hexDigit (c.toNat / 16), hexDigit (c.toNat % 16)]
    else
      [c]

def stringText (s : String) : String :=
  String.ofList ('"' :: s.toList.flatMap escapedChar ++ ['"'])

mutual

-- The text without blanks.
def text : Json → String
  | null           => "null"
  | bool b         => if b then "true" else "false"
  | number n       => n.text
  | string s       => stringText s
  | array items    => "[" ++ ",".intercalate (itemTexts items) ++ "]"
  | object members => "\x7b" ++ ",".intercalate (memberTexts members) ++ "\x7d"

def itemTexts : List Json → List String
  | []            => []
  | item :: items => item.text :: itemTexts items

def memberTexts : List (String × Json) → List String
  | []                       => []
  | (name, value) :: members => (stringText name ++ ":" ++ value.text) :: memberTexts members

end

def newLine (depth : Nat) : String :=
  "\n".pushn ' ' (2 * depth)

-- Items on lines of their own between two brackets, indented by two blanks.
def block (depth : Nat) (opening closing : String) (items : List String) : String :=
  if items.isEmpty then
    opening ++ closing
  else
    opening ++ newLine (depth + 1) ++ ("," ++ newLine (depth + 1)).intercalate items ++
      newLine depth ++ closing

mutual

-- The text with one item a line.
def prettyText (depth : Nat) : Json → String
  | null           => "null"
  | bool b         => if b then "true" else "false"
  | number n       => n.text
  | string s       => stringText s
  | array items    => block depth "[" "]" (prettyItems (depth + 1) items)
  | object members => block depth "\x7b" "\x7d" (prettyMembers (depth + 1) members)

def prettyItems (depth : Nat) : List Json → List String
  | []            => []
  | item :: items => item.prettyText depth :: prettyItems depth items

def prettyMembers (depth : Nat) : List (String × Json) → List String
  | []                       => []
  | (name, value) :: members =>
    (stringText name ++ ": " ++ value.prettyText depth) :: prettyMembers depth members

end

end Trivalent.Json
