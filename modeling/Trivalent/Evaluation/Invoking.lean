import Trivalent.Evaluation.Host

/-!
# Builtin functions

The length of a string, the place of a string in another one, and random numbers. Strings are
counted in characters.
-/

namespace Trivalent.Invoking

-- The argument at a position is of the wrong kind.
def invalidArgument (f : Function) (position : Nat) (v : Value) : Except EvalError Value :=
  let name := (f.parameters[position]?.map (·.name)).getD (toString position)
  .error (.invalidArgument f.name name v.kind)

def length (f : Function) (arguments : Arguments) : Except EvalError Value :=
  match arguments.get? 0 with
  | none | some .null  => .ok .null
  | some (.string s)   => .ok (.integer (Int64.ofNat s.length))
  | some v             => invalidArgument f 0 v

-- The encoding in UTF-8.
def bytes (cs : List Char) : List UInt8 :=
  cs.flatMap String.utf8EncodeChar

-- The offset in bytes where the character at an index starts. The end of the string has one as well.
def offset? : Nat → List Char → Option Nat
  | 0, _               => some 0
  | _ + 1, []          => none
  | index + 1, c :: cs => (offset? index cs).map (c.utf8Size + ·)

-- The first offset where the bytes of `needle` stand.
def find? (needle : List UInt8) : List UInt8 → Option Nat
  | []      => if needle.isEmpty then some 0 else none
  | b :: bs => if needle.isPrefixOf (b :: bs) then some 0 else (find? needle bs).map (· + 1)

-- The number of characters before an offset in bytes.
def charsBefore : Nat → List Char → Nat
  | 0, _                => 0
  | _ + 1, []           => 0
  | offset + 1, c :: cs => charsBefore (offset + 1 - c.utf8Size) cs + 1

-- The search is for bytes, while the start and the result count characters.
def locateChars (needle haystack : List Char) (start : Nat) : Option Nat :=
  match offset? start haystack with
  | none => none
  | some offset =>
    (find? (bytes needle) ((bytes haystack).drop offset)).map fun found => charsBefore (offset + found) haystack

-- Minus one stands for no place.
def place : Option Nat → Int64
  | some index => Int64.ofNat index
  | none       => -1

-- A missing start is the start of the string. An argument without a value gives none.
def locate (f : Function) (arguments : Arguments) : Except EvalError Value :=
  match arguments.get? 0 with
  | none | some .null => .ok .null
  | some (.string needle) =>
    match arguments.get? 1 with
    | none | some .null => .ok .null
    | some (.string haystack) =>
      match arguments.get? 2 with
      | none => .ok (.integer (place (locateChars needle.toList haystack.toList 0)))
      | some .null => .ok .null
      | some (.integer start) =>
        .ok (.integer (place (locateChars needle.toList haystack.toList start.toInt.toNat)))
      | some v => invalidArgument f 2 v
    | some v => invalidArgument f 1 v
  | some v => invalidArgument f 0 v

-- Runs an invoker, given the evaluations of its bodies.
def run (host : Host) (roots : Roots) (f : Function) (invoker : Invoker)
    (bodies : List (Action Value)) (arguments : Arguments) : Action Value :=
  match invoker with
  | .length      => Action.ofExcept (length f arguments)
  | .locate      => Action.ofExcept (locate f arguments)
  | .random      => Value.numeric <$> Action.random
  | .host name _ => (host.invoke name roots f arguments).run bodies

end Trivalent.Invoking
