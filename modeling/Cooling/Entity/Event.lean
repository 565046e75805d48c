import Cooling.Entity.Base

/-!
# Events

An event ties groups to the actions that are run on them.  An action is kept as it is
written: its name is read, the rest is left to the behaviour of that name.
-/

namespace Cooling

/-- An action as an event configures it: its name and the whole JSON object. -/
structure ActionEntry where
  name : String
  config : Json

namespace ActionEntry

open Entity

/-- The kind of entity, as errors name it. -/
def entity : String := "action"

/-- Reads an action entry. -/
def ofJson (j : Json) : Except EntityError ActionEntry := do
  let members ← Entity.members entity j
  let name ← requiredString entity members "name"
  let name ← nonemptyString entity "name" name
  return ⟨name, j⟩

end ActionEntry

/-- A configured event. -/
structure Event extends Entity.Base where
  groups : List String
  actions : List ActionEntry

namespace Event

open Entity

/-- The kind of entity, as errors name it. -/
def entity : String := "event"

/-- The file that lists the events. -/
def fileName : String := "events.json"

/-- The items of the field `actions`, of which there must be one. -/
def actionItems (members : Json.Members) : Except EntityError (List Json) := do
  match (← required entity members "actions").items? with
  | some items => nonempty entity "actions" items
  | none => .error (.invalidField entity "actions" .objects)

/-- Reads an event. -/
def ofJson (j : Json) : Except EntityError Event := do
  let members ← Entity.members entity j
  let base ← Base.ofMembers entity members
  let groups ← optionalStrings entity members "groups"
  let actions ← (← actionItems members).mapM ActionEntry.ofJson
  return { base with groups, actions }

end Event
end Cooling
