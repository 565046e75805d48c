import Cooling.Json.Basic

/-!
# Fields of configured entities

Every configured entity is written as a JSON object.  The readers here take its fields one by
one; each either yields what the field must hold or says what is wrong with it.  An entity is
read field after field in a fixed order, so the first wrong field is the one reported.
-/

namespace Cooling

/-- What a field was expected to hold. -/
inductive Shape where
  | string
  | strings
  | objects
deriving DecidableEq, Repr

/-- The words for what was expected. -/
def Shape.name : Shape → String
  | string => "a string"
  | strings => "an array of strings"
  | objects => "an array of objects"

/-- Why a JSON value is no entity of the named kind. -/
inductive EntityError where
  | notAnObject (entity : String)
  | missingField (entity field : String)
  | invalidField (entity field : String) (expected : Shape)
  | emptyField (entity field : String)
deriving DecidableEq, Repr

namespace EntityError

/-- The report of an error. -/
def message : EntityError → String
  | notAnObject entity => s!"{entity} configuration must be a JSON object"
  | missingField entity field => s!"missing required `{field}` in {entity} configuration"
  | invalidField entity field expected =>
    s!"`{field}` in {entity} configuration must be {expected.name}"
  | emptyField entity field => s!"`{field}` in {entity} configuration must not be empty"

/-- The field an error is about, if it is about one. -/
def field? : EntityError → Option String
  | notAnObject _ => none
  | missingField _ field => some field
  | invalidField _ field _ => some field
  | emptyField _ field => some field

end EntityError

namespace Entity

open Json (Members)

/-! ## Readers -/

/-- The members of the object that an entity is written as. -/
def members (entity : String) (j : Json) : Except EntityError Members :=
  match j.members? with
  | some members => .ok members
  | none => .error (.notAnObject entity)

/-- The value of a field that must be there. -/
def required (entity : String) (members : Members) (field : String) : Except EntityError Json :=
  match members.get? field with
  | some j => .ok j
  | none => .error (.missingField entity field)

/-- A field that must hold a string. -/
def requiredString (entity : String) (members : Members) (field : String) :
    Except EntityError String := do
  match (← required entity members field).string? with
  | some s => .ok s
  | none => .error (.invalidField entity field .string)

/-- The strings of an array that holds nothing else. -/
def strings (entity field : String) (j : Json) : Except EntityError (List String) :=
  match j.items?.bind fun items => items.mapM Json.string? with
  | some ss => .ok ss
  | none => .error (.invalidField entity field .strings)

/-- A field that must hold an array of strings. -/
def requiredStrings (entity : String) (members : Members) (field : String) :
    Except EntityError (List String) := do
  strings entity field (← required entity members field)

/-- A field that may hold an array of strings; absent or `null` it counts as an empty one. -/
def optionalStrings (entity : String) (members : Members) (field : String) :
    Except EntityError (List String) :=
  match members.get? field with
  | none => .ok []
  | some .null => .ok []
  | some j => strings entity field j

/-- A list that must have an item. -/
def nonempty {α : Type} (entity field : String) (items : List α) :
    Except EntityError (List α) :=
  if items.isEmpty then .error (.emptyField entity field) else .ok items

/-- A string that must have a character. -/
def nonemptyString (entity field : String) (s : String) : Except EntityError String :=
  if s = "" then .error (.emptyField entity field) else .ok s

end Entity
end Cooling
