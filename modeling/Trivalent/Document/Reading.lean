import Trivalent.Document.Format
import Trivalent.Json.Draft

/-!
# Reading documents

A document may be written as an object, whose fields come in any order together with fields that
nobody knows, or as an array of its kind and its fields in their order. Fields with a default may be
left out.
-/

namespace Trivalent.Document

-- Inside a document a kind may also be given by its number.
def Kind.ofJson? : Json → Option Kind
  | .string s            => ofName? s
  | .number (.integer i) => if 0 ≤ i then all[i.toInt.toNat]? else none
  | _                    => none

-- A JSON value with all that it can be read as.
structure Reading where
  json      : Json
  document  : Option Document
  documents : Option (List Document)
  named     : Option (Dictionary Document)

-- The values of the fields that are given.
abbrev Fields := String → Option Reading

namespace Fields

variable (fields : Fields)

def json? (name : String) : Option Json :=
  (fields name).map (·.json)

def value? (name : String) : Option Json :=
  (json? fields name).map (·.canonical)

def document? (name : String) : Option Document := do
  (← fields name).document

def documents? (name : String) : Option (List Document) := do
  (← fields name).documents

def string? (name : String) : Option String := do
  match ← json? fields name with
  | .string s => some s
  | _         => none

-- A string that may be null or absent.
def optional? (name : String) : Option (Option String) :=
  match json? fields name with
  | none             => some none
  | some .null       => some none
  | some (.string s) => some (some s)
  | some _           => none

-- A flag is false by default.
def flag? (name : String) : Option Bool :=
  match json? fields name with
  | none           => some false
  | some (.bool b) => some b
  | some _         => none

def stringItem? : Json → Option String
  | .string s => some s
  | _         => none

-- There are no strings by default.
def strings? (name : String) : Option (List String) :=
  match json? fields name with
  | none                => some []
  | some (.array items) => items.mapM stringItem?
  | some _              => none

-- Arguments are given by their positions or by their names. There are none by default.
def arguments? (name : String) : Option Document.Arguments :=
  match fields name with
  | none => some (.positional [])
  | some r => (r.documents.map .positional).or (r.named.map .named)

-- The document of a kind with the given fields.
def assemble? : Kind → Option Document
  | .literal => return .literal (← value? fields "value") (← optional? fields "type")
  | .collection =>
    return .collection (← documents? fields "items") (← optional? fields "element_type")
  | .path => return .path (← string? fields "alias") (← strings? fields "attributes")
  | .negative => return .negative (← document? fields "expression")
  | .arithmetic =>
    return .arithmetic (← string? fields "operator") (← document? fields "left")
      (← document? fields "right") (← optional? fields "type")
  | .function => return .call (← string? fields "name") (← arguments? fields "arguments")
  | .comparison =>
    return .comparison (← string? fields "operator") (← document? fields "left")
      (← document? fields "right") (← flag? fields "negated")
  | .between =>
    return .between (← document? fields "left") (← document? fields "lower")
      (← document? fields "upper") (← flag? fields "negated")
  | .in =>
    return .member (← document? fields "left") (← documents? fields "items")
      (← flag? fields "negated")
  | .isNull => return .isNull (← document? fields "operand") (← flag? fields "negated")
  | .isEmpty => return .isEmpty (← document? fields "operand") (← flag? fields "negated")
  | .and => return .compound .and (← documents? fields "predicates") (← flag? fields "negated")
  | .or => return .compound .or (← documents? fields "predicates") (← flag? fields "negated")
  | .predicate => return .truth (← document? fields "expression") (← flag? fields "negated")
  | .not => return .not (← document? fields "expression")

end Fields

namespace Reading

def scalar (json : Json) : Reading :=
  ⟨json, none, none, none⟩

-- The kind and then the fields of that kind, of which the last ones may be missing.
def ofPositions? : List Reading → Option Document
  | [] => none
  | tag :: values => do
    let kind ← Kind.ofJson? tag.json
    if values.length ≤ kind.fields.length then
      Fields.assemble? (Dictionary.find? (kind.fields.zip values)) kind
    else
      none

-- Whether a name is given at most once.
def isUnique (members : List (String × Reading)) (name : String) : Bool :=
  (members.filter (·.1 = name)).length ≤ 1

-- The kind and its fields by their names. None of them may be repeated.
def ofMembers? (members : List (String × Reading)) : Option Document := do
  let kind ← Kind.ofJson? (← Dictionary.find? members kindField).json
  if (kindField :: kind.fields).all (isUnique members) then
    Fields.assemble? (Dictionary.find? members) kind
  else
    none

def ofArray (json : Json) (items : List Reading) : Reading :=
  ⟨json, ofPositions? items, items.mapM (·.document), none⟩

def member? (member : String × Reading) : Option (String × Document) :=
  member.2.document.map (member.1, ·)

def ofObject (json : Json) (members : List (String × Reading)) : Reading :=
  ⟨json, ofMembers? members, none, (members.mapM member?).map Dictionary.ofList⟩

mutual

def ofJson : Json → Reading
  | .array items    => ofArray (.array items) (ofItems items)
  | .object members => ofObject (.object members) (ofMembers members)
  | .null           => scalar .null
  | .bool b         => scalar (.bool b)
  | .number n       => scalar (.number n)
  | .string s       => scalar (.string s)

def ofItems : List Json → List Reading
  | []            => []
  | item :: items => ofJson item :: ofItems items

def ofMembers : List (String × Json) → List (String × Reading)
  | []                       => []
  | (name, value) :: members => (name, ofJson value) :: ofMembers members

end

end Reading

-- The document that a JSON value is written for.
def ofJson? (json : Json) : Option Document :=
  (Reading.ofJson json).document

/-! ## Texts -/

open Json (Fault Draft)

-- Asks for the kind of a whole document, which is known by its name only.
def takeKind : Draft → Except Fault Unit
  | .string s => if (Kind.ofName? s).isSome then .ok () else .error .misshapen
  | .flawed flaw => .error flaw.taken
  | _ => .error .misshapen

-- Asks for the members of a whole document, whose kind is looked at as soon as it is met.
def takeMembers (depth : Nat) (seen : Bool) : List (Draft × Draft) → Except Fault Unit
  | [] => .ok ()
  | (name, value) :: members => do
    if (← name.takeName) = kindField then
      if seen then throw .misshapen
      takeKind value
      takeMembers depth true members
    else
      let _ ← value.take depth
      takeMembers depth seen members

-- Asks for a whole document up to the point where it must have its kind.
def takeTagged (depth : Nat) : Draft → Except Fault Unit
  | .object members ending => do
    takeMembers depth false members
    Draft.orFault ending
  | .array (kind :: values) ending => do
    takeKind kind
    let _ ← Draft.takeItems depth values
    Draft.orFault ending
  | _ => .ok ()

-- Reads a text that holds one document. Its shape is looked at when it has been read to its end,
-- but before what follows it.
def ofText (text : String) : Except Fault Document := do
  let (draft, trailing) := Draft.ofText text
  takeTagged (Json.nestingLimit - 1) draft
  let json ← draft.take Json.nestingLimit
  match ofJson? json with
  | none => throw .misshapen
  | some d =>
    Draft.orFault trailing
    return d

end Trivalent.Document
