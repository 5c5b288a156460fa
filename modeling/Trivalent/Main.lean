import Trivalent.CommandLine

/-!
# The program

Reads the files that the arguments name and writes the answer, or what went wrong.
-/

open Trivalent

-- The text of a file that can be read.
def Trivalent.CommandLine.readFile? (path : String) : IO (Option String) := do
  try
    return some (← IO.FS.readFile path)
  catch _ =>
    return none

def main (arguments : List String) : IO UInt32 := do
  match CommandLine.Request.ofArguments? arguments with
  | none =>
    IO.eprintln CommandLine.usage
    return 2
  | some request =>
    let config ← CommandLine.readFile? request.config
    let expression ← CommandLine.readFile? request.expression
    let files := fun path => if path = request.config then config else expression
    let seed ← IO.monoNanosNow
    match CommandLine.output files ⟨seed.toUInt64⟩ request with
    | .ok text =>
      IO.print text
      return 0
    | .error failure =>
      IO.eprintln ("Error: " ++ failure.message)
      if let some cause := failure.cause? then
        IO.eprintln ("Caused by: " ++ cause)
      return 1
