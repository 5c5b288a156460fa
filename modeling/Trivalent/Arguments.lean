import Trivalent.Expression

/-!
# Arguments

The values that a function is called with, in the order in which their parameters were first given a
value. A parameter that was given none is absent, which differs from having the value null.
-/

namespace Trivalent

structure Arguments where
  entries : List (Parameter × Value)

namespace Arguments

def empty : Arguments := ⟨[]⟩

-- Replaces the value at a position that has one.
def insertEntry (p : Parameter) (v : Value) : List (Parameter × Value) → List (Parameter × Value)
  | [] => [(p, v)]
  | (q, w) :: rest =>
    if q.position = p.position then (q, v) :: rest else (q, w) :: insertEntry p v rest

def insert (a : Arguments) (p : Parameter) (v : Value) : Arguments :=
  ⟨insertEntry p v a.entries⟩

def get? (a : Arguments) (position : Nat) : Option Value :=
  a.entries.find? (·.1.position = position) |>.map (·.2)

def getByName? (a : Arguments) (name : String) : Option Value :=
  a.entries.find? (·.1.name = name) |>.map (·.2)

def size (a : Arguments) : Nat :=
  a.entries.length

end Arguments

end Trivalent
