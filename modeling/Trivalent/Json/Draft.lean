import Trivalent.Json.Lexeme

/-!
# Drafts

A draft is what can be read of a text that should hold one JSON value. It keeps the flaws of the
text at their places, so that whoever asks for a value meets them in the order of the text, after
all that stands before them. `Draft.take` asks for the whole value.
-/

namespace Trivalent.Json

inductive Draft
  | null
  | bool   (b : Bool)
  | number (n : Number)
  | string (s : String)
  -- The items up to the closing bracket, or up to a fault in its place.
  | array  (items : List Draft) (ending : Option Fault)
  -- The names and values up to the closing brace, or up to a fault in its place.
  | object (members : List (Draft × Draft)) (ending : Option Fault)
  | flawed (flaw : Flaw)

namespace Draft

-- The fault after which nothing more can be read. It is also the one to report when the value is
-- passed over.
def ending? : Draft → Option Fault
  | array _ ending  => ending
  | object _ ending => ending
  | flawed flaw     => flaw.skipped
  | _               => none

def ofNumber : Except Flaw Number → Draft
  | .ok n       => number n
  | .error flaw => flawed flaw

def ofString : Except Flaw String → Draft
  | .ok s       => string s
  | .error flaw => flawed flaw

/-! ## Reading -/

-- What was read from some lexemes, and the lexemes after it. At least one lexeme is read.
structure Step (α : Type) (lexemes : List Lexeme) where
  result  : α
  rest    : List Lexeme
  shorter : rest.length ≤ lexemes.length - 1

namespace Step

variable {α β : Type} {lexemes rest : List Lexeme} {l : Lexeme}

-- Reads all lexemes.
def all (b : β) : Step β lexemes :=
  ⟨b, [], Nat.zero_le _⟩

-- Reads one lexeme.
def one (b : β) : Step β (l :: rest) :=
  ⟨b, rest, Nat.le_refl _⟩

-- Reads two lexemes.
def two (b : β) : Step β (l :: m :: rest) :=
  ⟨b, rest, Nat.le_succ _⟩

theorem length_lt (s : Step α lexemes) (h : s.rest = l :: rest) :
    rest.length < lexemes.length - 1 :=
  Nat.lt_of_lt_of_le (by rw [h]; exact Nat.lt_succ_self _) s.shorter

-- Reads what a step reads.
def same (s : Step α lexemes) (b : β) : Step β lexemes :=
  ⟨b, s.rest, s.shorter⟩

-- Reads one lexeme after a step.
def past (s : Step α lexemes) (h : s.rest = l :: rest) (b : β) : Step β lexemes :=
  ⟨b, rest, Nat.le_of_lt (s.length_lt h)⟩

-- Reads what a step reads that started later.
def since (s : Step α rest) (h : rest.length ≤ lexemes.length - 1) (b : β) : Step β lexemes :=
  ⟨b, s.rest, Nat.le_trans s.shorter (Nat.le_trans (Nat.sub_le _ _) h)⟩

end Step

mutual

def readValue (lexemes : List Lexeme) : Step Draft lexemes :=
  match lexemes with
  | []                  => .all (flawed (.hard .truncated))
  | .null :: _          => .one null
  | .bool b :: _        => .one (bool b)
  | .number n :: _      => .one (ofNumber n)
  | .string s :: _      => .one (ofString s)
  | .other flaw :: _    => .one (flawed flaw)
  | .openArray :: []    => .one (array [] (some .truncated))
  | .openArray :: .closeArray :: _ => .two (array [] none)
  | .openArray :: rest =>
    let step := readItems rest
    step.since (Nat.le_refl _) (array step.result.1 step.result.2)
  | .openObject :: .closeObject :: _ => .two (object [] none)
  | .openObject :: rest =>
    let step := readMembers rest
    step.since (Nat.le_refl _) (object step.result.1 step.result.2)
  | _ :: _ => .one (flawed (.hard .malformed))
termination_by 2 * lexemes.length
decreasing_by all_goals simp only [List.length_cons]; omega

-- Reads the items of an array, of which there is at least one.
def readItems (lexemes : List Lexeme) : Step (List Draft × Option Fault) lexemes :=
  let item := readValue lexemes
  match item.result.ending? with
  | some fault => item.same ([item.result], some fault)
  | none =>
    match h : item.rest with
    | [] => .all ([item.result], some .truncated)
    | .closeArray :: _ => item.past h ([item.result], none)
    | .comma :: rest =>
      have := item.length_lt h
      let items := readItems rest
      items.since (Nat.le_of_lt this) (item.result :: items.result.1, items.result.2)
    | _ :: _ => item.past h ([item.result], some .malformed)
termination_by 2 * lexemes.length + 1
decreasing_by all_goals omega

-- Reads the members of an object, of which there is at least one.
def readMembers (lexemes : List Lexeme) : Step (List (Draft × Draft) × Option Fault) lexemes :=
  match lexemes with
  | .string s :: rest =>
    let name := ofString s
    match name.ending?, rest with
    | some fault, _ => .one ([(name, flawed (.hard fault))], some fault)
    | none, [] => .one ([(name, flawed (.hard .truncated))], some .truncated)
    | none, .colon :: rest =>
      let members := readMember name rest
      members.since (Nat.le_succ _) members.result
    | none, _ :: _ => .one ([(name, flawed (.hard .malformed))], some .malformed)
  | [] => .all ([], some .truncated)
  | _ :: _ => .one ([], some .malformed)
termination_by 2 * lexemes.length + 1
decreasing_by all_goals simp only [List.length_cons]; omega

-- Reads the value of a name, and the members after it.
def readMember (name : Draft) (lexemes : List Lexeme) :
    Step (List (Draft × Draft) × Option Fault) lexemes :=
  let value := readValue lexemes
  match value.result.ending? with
  | some fault => value.same ([(name, value.result)], some fault)
  | none =>
    match h : value.rest with
    | [] => .all ([(name, value.result)], some .truncated)
    | .closeObject :: _ => value.past h ([(name, value.result)], none)
    | .comma :: rest =>
      have := value.length_lt h
      let members := readMembers rest
      members.since (Nat.le_of_lt this) ((name, value.result) :: members.result.1, members.result.2)
    | _ :: _ => value.past h ([(name, value.result)], some .malformed)
termination_by 2 * lexemes.length + 1
decreasing_by all_goals omega

end

-- The draft of a text, and the fault of what follows the value in it.
def ofText (text : String) : Draft × Option Fault :=
  let step := readValue (Lexeme.readAll text.toList)
  (step.result, if step.rest.isEmpty then none else some .malformed)

/-! ## Asking for values -/

def orFault : Option Fault → Except Fault Unit
  | none       => .ok ()
  | some fault => .error fault

-- A string.
def takeName : Draft → Except Fault String
  | string s    => .ok s
  | flawed flaw => .error flaw.taken
  | _           => .error .misshapen

mutual

-- The value, if arrays and objects are nested at most to the given depth. The first flaw in the
-- order of the text decides.
def take (depth : Nat) : Draft → Except Fault Json
  | null        => .ok .null
  | bool b      => .ok (.bool b)
  | number n    => .ok (.number n)
  | string s    => .ok (.string s)
  | flawed flaw => .error flaw.taken
  | array items ending =>
    match depth with
    | 0 => .error .malformed
    | depth + 1 => do
      let items ← takeItems depth items
      orFault ending
      return .array items
  | object members ending =>
    match depth with
    | 0 => .error .malformed
    | depth + 1 => do
      let members ← takeMembers depth members
      orFault ending
      return .object members

def takeItems (depth : Nat) : List Draft → Except Fault (List Json)
  | [] => .ok []
  | item :: items => do
    let item ← item.take depth
    let items ← takeItems depth items
    return item :: items

def takeMembers (depth : Nat) : List (Draft × Draft) → Except Fault (List (String × Json))
  | [] => .ok []
  | (name, value) :: members => do
    let name ← name.takeName
    let value ← value.take depth
    let members ← takeMembers depth members
    return (name, value) :: members

end

/-! ## Values without a flaw -/

mutual

-- What is read of the text of a value.
def ofJson : Json → Draft
  | .null           => null
  | .bool b         => bool b
  | .number n       => number n
  | .string s       => string s
  | .array items    => array (ofItems items) none
  | .object members => object (ofMembers members) none

def ofItems : List Json → List Draft
  | []            => []
  | item :: items => ofJson item :: ofItems items

def ofMembers : List (String × Json) → List (Draft × Draft)
  | []                       => []
  | (name, value) :: members => (string name, ofJson value) :: ofMembers members

end

mutual

theorem take_ofJson {json : Json} {depth : Nat} (h : json.depth ≤ depth) :
    (ofJson json).take depth = .ok json := by
  cases json with
  | array items =>
    obtain ⟨depth, rfl⟩ :=
      Nat.exists_eq_add_of_le' (Nat.le_trans (Nat.succ_le_succ (Nat.zero_le _)) h)
    simp only [ofJson, take, takeItems_ofItems (Nat.le_of_succ_le_succ h)]
    rfl
  | object members =>
    obtain ⟨depth, rfl⟩ :=
      Nat.exists_eq_add_of_le' (Nat.le_trans (Nat.succ_le_succ (Nat.zero_le _)) h)
    simp only [ofJson, take, takeMembers_ofMembers (Nat.le_of_succ_le_succ h)]
    rfl
  | _ => simp [ofJson, take]

theorem takeItems_ofItems {items : List Json} {depth : Nat} (h : depthItems items ≤ depth) :
    takeItems depth (ofItems items) = .ok items := by
  cases items with
  | nil => rfl
  | cons item items =>
    have := Nat.max_le.1 h
    simp only [ofItems, takeItems, take_ofJson this.1, takeItems_ofItems this.2]
    rfl

theorem takeMembers_ofMembers {members : List (String × Json)} {depth : Nat}
    (h : depthMembers members ≤ depth) :
    takeMembers depth (ofMembers members) = .ok members := by
  cases members with
  | nil => rfl
  | cons member members =>
    have := Nat.max_le.1 h
    simp only [ofMembers, takeMembers, takeName, take_ofJson this.1, takeMembers_ofMembers this.2]
    rfl

end

end Draft

-- How deep arrays and objects of a text may be nested.
def nestingLimit : Nat := 127

-- Reads a text that holds one value.
def ofText (text : String) : Except Fault Json := do
  let (draft, trailing) := Draft.ofText text
  let json ← draft.take nestingLimit
  Draft.orFault trailing
  return json

end Trivalent.Json
