import Trivalent.Dictionary
import Trivalent.Double
import Trivalent.Word

/-!
# JSON values

A JSON value with the members of its objects in the order in which they are written, repeated
names included. `canonical` is the value under the rule that the last of several members of one
name counts and that the order of names does not matter.
-/

namespace Trivalent

namespace Json

-- An integer that fits a signed or, if it is too large for that, an unsigned word of 64 bits, or
-- a finite double.
inductive Number
  | integer  (i : Int64)
  | unsigned (n : UInt64) (large : 0x8000000000000000 ≤ n.toNat)
  | float    (x : Float) (finite : x.isFinite)
  deriving DecidableEq

namespace Number

def ofFloat? (x : Float) : Option Number :=
  if finite : x.isFinite then some (.float x finite) else none

-- The integer in a word, signed if it fits one.
def ofInt? (z : Int) : Option Number :=
  match word64? z with
  | some i => some (.integer i)
  | none =>
    let n := UInt64.ofNat z.toNat
    if h : n.toNat = z ∧ 0x8000000000000000 ≤ n.toNat then some (.unsigned n h.2) else none

-- The nearest double.
def toFloat : Number → Float
  | integer i    => Double.ofInt i.toInt
  | unsigned n _ => n.toFloat
  | float x _    => x

end Number

end Json

inductive Json
  | null
  | bool   (b : Bool)
  | number (n : Json.Number)
  | string (s : String)
  | array  (items : List Json)
  | object (members : List (String × Json))

namespace Json

instance : Inhabited Json := ⟨null⟩

mutual

-- Members sorted by name, the last one of each name, at every depth.
def canonical : Json → Json
  | array items    => array (canonicalItems items)
  | object members => object (Dictionary.ofList (canonicalMembers members))
  | null           => null
  | bool b         => bool b
  | number n       => number n
  | string s       => string s

def canonicalItems : List Json → List Json
  | []            => []
  | item :: items => item.canonical :: canonicalItems items

def canonicalMembers : List (String × Json) → List (String × Json)
  | []                      => []
  | (name, value) :: members => (name, value.canonical) :: canonicalMembers members

end

theorem canonicalItems_eq_map (items : List Json) : canonicalItems items = items.map canonical := by
  induction items with
  | nil => rfl
  | cons _ _ ih => simp [canonicalItems, ih]

theorem canonicalMembers_eq_mapValues (members : List (String × Json)) :
    canonicalMembers members = Dictionary.mapValues canonical members := by
  induction members with
  | nil => rfl
  | cons member _ ih =>
    obtain ⟨_, _⟩ := member
    simp [canonicalMembers, Dictionary.mapValues, ih]

mutual

-- How deep arrays and objects are nested.
def depth : Json → Nat
  | array items    => depthItems items + 1
  | object members => depthMembers members + 1
  | null           => 0
  | bool _         => 0
  | number _       => 0
  | string _       => 0

def depthItems : List Json → Nat
  | []            => 0
  | item :: items => max item.depth (depthItems items)

def depthMembers : List (String × Json) → Nat
  | []                   => 0
  | (_, value) :: members => max value.depth (depthMembers members)

end

def isNull : Json → Bool
  | null => true
  | _    => false

end Json

end Trivalent
