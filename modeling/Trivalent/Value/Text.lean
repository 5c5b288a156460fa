import Trivalent.Value
import Trivalent.Decimal.Layout

/-!
# Texts of values

Values as they appear in messages and when they are joined to strings.
-/

namespace Trivalent.Value

-- Doubles are written positionally, whole ones without a fraction.
def floatLayout : Decimal.Layout :=
  ⟨none, false, .up⟩

mutual

def text : Value → String
  | null             => "NULL"
  | boolean b        => if b then "TRUE" else "FALSE"
  | integer i        => toString i.toInt
  | numeric x        => floatLayout.text x
  | string s         => "'" ++ s ++ "'"
  | time t           => t.text
  | interval a       => "INTERVAL " ++ a.text
  | collection items => "(" ++ ", ".intercalate (itemTexts items) ++ ")"
  | object fields    => "\x7b" ++ ", ".intercalate (fieldTexts fields) ++ "\x7d"

def itemTexts : List Value → List String
  | []            => []
  | item :: items => item.text :: itemTexts items

def fieldTexts : List (String × Value) → List String
  | []                     => []
  | (name, value) :: fields => (name ++ ": " ++ value.text) :: fieldTexts fields

end

-- The text that a value adds to a string, which is a string's own characters.
def plainText : Value → String
  | string s => s
  | v        => v.text

end Trivalent.Value
