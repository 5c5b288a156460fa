import Trivalent.Configuration.Declaration
import Trivalent.Configuration.Objects
import Trivalent.Configuration.Reading
import Trivalent.Document.Reading
import Trivalent.Document.Resolution
import Trivalent.Evaluation
import Trivalent.Json.Text

/-!
# The command line

Evaluates the document in one file against the configuration in another one and writes the value as
JSON. Options may be given in any order, but each only once.
-/

namespace Trivalent.CommandLine

structure Options where
  config     : Option String
  expression : Option String
  predicate  : Bool
  debug      : Bool

namespace Options

def empty : Options := ⟨none, none, false, false⟩

def setConfig (o : Options) (path : String) : Option Options :=
  if o.config.isSome || path.isEmpty then none else some { o with config := some path }

def setExpression (o : Options) (path : String) : Option Options :=
  if o.expression.isSome || path.isEmpty then none else some { o with expression := some path }

def setPredicate (o : Options) : Option Options :=
  if o.predicate then none else some { o with predicate := true }

def setDebug (o : Options) : Option Options :=
  if o.debug then none else some { o with debug := true }

end Options

-- An argument that can be the value of the option before it.
def isValue (argument : String) : Bool :=
  argument = "-" || argument.toList.head? ≠ some '-'

-- The characters before and, if there is one, after the first equals sign.
def splitValue (cs : List Char) : List Char × Option String :=
  match cs.dropWhile (· ≠ '=') with
  | []         => (cs, none)
  | _ :: value => (cs.takeWhile (· ≠ '='), some (String.ofList value))

-- Gives an option its value, which is attached to it or follows it.
def withValue (set : String → Option Options) (attached : Option String) (rest : List String) :
    Option (Options × List String) :=
  match attached, rest with
  | some value, _         => (set value).map (·, rest)
  | none, value :: others => if isValue value then (set value).map (·, others) else none
  | none, []              => none

def withoutValue (set : Option Options) (attached : Option String) (rest : List String) :
    Option (Options × List String) :=
  if attached.isSome then none else set.map (·, rest)

def readLong (o : Options) (cs : List Char) (rest : List String) : Option (Options × List String) :=
  let (name, attached) := splitValue cs
  match String.ofList name with
  | "config"     => withValue o.setConfig attached rest
  | "expression" => withValue o.setExpression attached rest
  | "predicate"  => withoutValue o.setPredicate attached rest
  | "debug"      => withoutValue o.setDebug attached rest
  | _            => none

-- What follows a short option in its argument, if anything does.
def attachedValue : List Char → Option String
  | []        => none
  | '=' :: cs => some (String.ofList cs)
  | cs        => some (String.ofList cs)

-- Short options may share one argument, of which the last one may have a value.
def readShort (o : Options) (rest : List String) : List Char → Option (Options × List String)
  | []        => some (o, rest)
  | 'c' :: cs => withValue o.setConfig (attachedValue cs) rest
  | 'e' :: cs => withValue o.setExpression (attachedValue cs) rest
  | 'p' :: cs => do readShort (← o.setPredicate) rest cs
  | 'd' :: cs => do readShort (← o.setDebug) rest cs
  | _         => none

-- Reads arguments, of which each round takes at least one.
def readOptions (o : Options) : Nat → List String → Option Options
  | _, [] => some o
  | 0, _ :: _ => none
  | fuel + 1, argument :: rest =>
    match argument.toList with
    | ['-', '-']      => if rest.isEmpty then some o else none
    | '-' :: '-' :: cs => do
      let (o, rest) ← readLong o cs rest
      readOptions o fuel rest
    | '-' :: c :: cs   => do
      let (o, rest) ← readShort o rest (c :: cs)
      readOptions o fuel rest
    | _ => none

-- What the program is asked to do.
structure Request where
  config     : String
  expression : String
  predicate  : Bool

-- Both files have to be named.
def Request.ofArguments? (arguments : List String) : Option Request := do
  let o ← readOptions .empty arguments.length arguments
  return ⟨← o.config, ← o.expression, o.predicate⟩

def usage : String :=
  "Usage: trivalent --config FILE --expression FILE [--predicate] [--debug]"

/-! ## Running -/

inductive Failure
  | unreadableConfig     (path : String)
  | brokenConfig         (path : String) (fault : Json.Fault)
  | declaration          (e : DeclarationError)
  | roots                (e : ResolutionError)
  | unreadableExpression (path : String)
  | brokenExpression     (fault : Json.Fault)
  | resolution           (e : ResolutionError)
  | evaluation           (e : EvalError)

namespace Failure

-- The message for a file that does not exist.
def missingFile : String :=
  "No such file or directory (os error 2)"

def faultText : Json.Fault → String
  | .malformed => "the text is not JSON"
  | .truncated => "the text ends too early"
  | .misshapen => "the text has another shape than expected"

def message : Failure → String
  | unreadableConfig path  => "Failed to read config file " ++ path
  | brokenConfig path _    => "Failed to parse config file " ++ path
  | declaration _          => "Failed to build domain model"
  | roots _                => "Failed to bind root objects"
  | unreadableExpression _ => missingFile
  | brokenExpression _     => "Invalid expression document"
  | resolution _           => "Failed to resolve expression"
  | evaluation _           => "Evaluation failed"

def cause? : Failure → Option String
  | unreadableConfig _     => some missingFile
  | brokenConfig _ fault   => some (faultText fault)
  | declaration e          => some e.message
  | roots e                => some e.message
  | unreadableExpression _ => none
  | brokenExpression fault => some (faultText fault)
  | resolution e           => some e.message
  | evaluation e           => some e.message

end Failure

-- The text of a file, which fails in its own way if there is none.
def readFile (files : String → Option String) (path : String) (failure : Failure) :
    Except Failure String :=
  match files path with
  | some text => .ok text
  | none      => .error failure

-- The expression of a request with the roots that it is evaluated for.
def load (files : String → Option String) (request : Request) :
    Except Failure (Roots × Expression) := do
  let text ← readFile files request.config (.unreadableConfig request.config)
  let config ← (Configuration.ofText text).mapError (.brokenConfig request.config)
  let registry ← config.registry.mapError .declaration
  let roots ← (config.bind registry).mapError .roots
  let text ← readFile files request.expression (.unreadableExpression request.expression)
  let document ← (Document.ofText text).mapError .brokenExpression
  let expression ← (document.resolve registry roots).mapError .resolution
  return (roots, expression)

-- The JSON that a request is answered with.
def answer (files : String → Option String) (random : Random) (request : Request) :
    Except Failure Json := do
  let (roots, expression) ← load files request
  let store : Store := ⟨[], random⟩
  if request.predicate then
    return .bool (← (expression.evaluatePredicate .none roots store).outcome.mapError .evaluation)
  else
    return (← (expression.evaluate .none roots store).outcome.mapError .evaluation).toJson

-- The text that a request is answered with.
def output (files : String → Option String) (random : Random) (request : Request) :
    Except Failure String := do
  return (← answer files random request).prettyText 0 ++ "\n"

end Trivalent.CommandLine
