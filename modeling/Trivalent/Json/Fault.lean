/-!
# Faults of JSON texts

A text that cannot be read as what it should hold has one of three kinds of faults.
-/

namespace Trivalent.Json

inductive Fault
  -- The text is no JSON.
  | malformed
  -- The text ends too early.
  | truncated
  -- The text is JSON of another shape than expected.
  | misshapen
  deriving DecidableEq

-- A place in a text that cannot be read. Values that nobody asks for are read less strictly: their
-- numbers may be out of range and their escapes may name half a character.
structure Flaw where
  -- The fault if the value at this place is asked for.
  taken   : Fault
  -- The fault if it is passed over; without one the text can be read on.
  skipped : Option Fault
  deriving DecidableEq

namespace Flaw

-- A flaw whoever asks.
def hard (fault : Fault) : Flaw :=
  ⟨fault, some fault⟩

-- A flaw of the value alone, not of the text around it.
def soft : Flaw :=
  ⟨.malformed, none⟩

end Flaw

end Trivalent.Json
