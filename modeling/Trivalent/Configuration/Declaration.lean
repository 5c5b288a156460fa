import Trivalent.Configuration
import Trivalent.Standard

/-!
# Declaring the types of a configuration

The registry of a configuration is the standard one with its enumerations and entities. Entities may
name each other in any order, but not in a circle: they are declared in rounds, each of which
declares those whose attributes have registered types, until none is left or none can be declared.
-/

namespace Trivalent

-- The name of the item type in the name of a collection type.
def DataType.elementName? (name : String) : Option String :=
  if "Collection<".toList.isPrefixOf name.toList ∧ name.toList.getLast? = some '>' ∧
      "Collection<>".length ≤ name.length then
    some (String.ofList ((name.toList.drop "Collection<".length).dropLast))
  else
    none

theorem DataType.length_elementName?_lt {name element : String}
    (h : elementName? name = some element) :
    element.length < name.length := by
  unfold elementName? at h
  split at h
  · next hn =>
    have := hn.2.2
    simp only [Option.some.injEq] at h
    subst h
    simp only [String.length_ofList, List.length_dropLast, List.length_drop, String.length_toList]
    have : "Collection<>".length = 12 := by decide
    omega
  · contradiction

theorem DataType.elementName?_collectionName (name : String) :
    elementName? (collectionName name) = some name := by
  have hl : (collectionName name).toList = "Collection<".toList ++ (name.toList ++ ['>']) := by
    simp [collectionName, String.toList_append]
  have hd : "Collection<".length = "Collection<".toList.length := rfl
  rw [elementName?, if_pos]
  case hc =>
    refine ⟨?_, ?_, ?_⟩
    · simp [hl]
    · rw [hl, ← List.append_assoc, List.getLast?_concat]
    · simp only [← String.length_toList, hl, List.length_append]
      simp
      omega
  rw [hl, hd, List.drop_left, List.dropLast_concat, String.ofList_toList]

namespace Registry

-- Finds the type of a name and registers the collection types that the name consists of.
def denote (r : Registry) (name : String) : Except DeclarationError (DataType × Registry) :=
  match h : DataType.elementName? name with
  | some element => do
    have := DataType.length_elementName?_lt h
    let (t, r) ← r.denote element
    return r.collectionOf t
  | none => return (← r.requireType name, r)
termination_by name.length

-- Finds the types of names in turn. What was registered on the way stays, and the first unknown
-- type is given back.
def denoteAll (r : Registry) : List String → Registry × Option DeclarationError
  | [] => (r, none)
  | name :: names =>
    match r.denote name with
    | .ok (_, r) => r.denoteAll names
    | .error e   => (r, some e)

-- The attributes that are declared by the names of their types.
def denoteAttributes (r : Registry) :
    List (String × String) → Except DeclarationError (List Attribute × Registry)
  | [] => .ok ([], r)
  | (name, type) :: rest => do
    let (t, r) ← r.denote type
    let (attributes, r) ← r.denoteAttributes rest
    return (.declare name t (some .field) none :: attributes, r)

def addEnumeration (r : Registry) (name : String) (constants : List String) :
    Except DeclarationError Registry := do
  let t := DataType.enumeration name constants (some .enumeration) none
  let r ← r.addType t
  return (r.collectionOf t).2

def addEntity (r : Registry) (name : String) (attributes : Dictionary String) :
    Except DeclarationError Registry := do
  let (attributes, r) ← r.denoteAttributes attributes
  r.addType (.entity name attributes none none)

-- The entities that one round leaves, each with its first unknown type.
abbrev Blocked := List ((String × Dictionary String) × DeclarationError)

-- Declares the entities that can be declared now.
def round (r : Registry) :
    Dictionary (Dictionary String) → Except DeclarationError (Registry × Blocked)
  | [] => .ok (r, [])
  | (name, attributes) :: entities =>
    match r.denoteAll (Dictionary.values attributes) with
    | (r, none) => do
      let r ← r.addEntity name attributes
      r.round entities
    | (r, some e) => do
      let (r, blocked) ← r.round entities
      return (r, ((name, attributes), e) :: blocked)

-- Declares entities in rounds. A round that declares none fails with an unknown type.
def addEntities (r : Registry) (entities : Dictionary (Dictionary String)) :
    Except DeclarationError Registry :=
  if entities.isEmpty then
    .ok r
  else do
    let (r, blocked) ← r.round entities
    if blocked.length < entities.length then
      r.addEntities (blocked.map (·.1))
    else
      match blocked with
      | [] => return r
      | (_, e) :: _ => throw e
termination_by entities.length
decreasing_by simpa

end Registry

-- The registry that a configuration declares.
def Configuration.registry (c : Configuration) : Except DeclarationError Registry := do
  let r ← c.enumerations.foldlM (fun r e => r.addEnumeration e.1 e.2) Registry.standard
  r.addEntities c.entities

end Trivalent
