import Trivalent.Dictionary
import Trivalent.TimeOfDay

/-!
# Values

What an evaluation computes with. `null` is the missing value of three-valued logic and differs from
false and from an empty collection.
-/

namespace Trivalent

inductive Value
  | null
  | boolean    (b : Bool)
  | integer    (i : Int64)
  | numeric    (x : Float)
  | string     (s : String)
  | time       (t : TimeOfDay)
  | interval   (a : Interval)
  | collection (items : List Value)
  -- The fields are a dictionary.
  | object     (fields : List (String × Value))

namespace Value

inductive Kind
  | null
  | boolean
  | integer
  | numeric
  | string
  | time
  | interval
  | collection
  | object
  deriving DecidableEq

def Kind.name : Kind → String
  | null       => "NULL"
  | boolean    => "BOOLEAN"
  | integer    => "INTEGER"
  | numeric    => "NUMERIC"
  | string     => "STRING"
  | time       => "TIME"
  | interval   => "INTERVAL"
  | collection => "COLLECTION"
  | object     => "OBJECT"

def kind : Value → Kind
  | null         => .null
  | boolean _    => .boolean
  | integer _    => .integer
  | numeric _    => .numeric
  | string _     => .string
  | time _       => .time
  | interval _   => .interval
  | collection _ => .collection
  | object _     => .object

def isNull : Value → Bool
  | null => true
  | _    => false

@[simp]
theorem isNull_iff (v : Value) : v.isNull ↔ v = null := by
  cases v <;> simp [isNull]

-- The value of a truth that may be missing.
def ofTruth : Option Bool → Value
  | some b => boolean b
  | none   => null

instance : Inhabited Value := ⟨null⟩

mutual

-- Equality of what values denote: numbers of one kind are equal as numbers, so that a zero equals
-- the negative zero and NaN equals nothing.
def same : Value → Value → Bool
  | null, null                     => true
  | boolean a, boolean b           => a == b
  | integer a, integer b           => a == b
  | numeric a, numeric b           => a == b
  | string a, string b             => a == b
  | time a, time b                 => a == b
  | interval a, interval b         => a == b
  | collection as, collection bs   => sameItems as bs
  | object as, object bs           => sameFields as bs
  | _, _                           => false

def sameItems : List Value → List Value → Bool
  | [], []           => true
  | a :: as, b :: bs => a.same b && sameItems as bs
  | _, _             => false

def sameFields : List (String × Value) → List (String × Value) → Bool
  | [], []                     => true
  | (k, a) :: as, (l, b) :: bs => k == l && a.same b && sameFields as bs
  | _, _                       => false

end

end Value

end Trivalent
