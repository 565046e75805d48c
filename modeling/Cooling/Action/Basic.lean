import Cooling.Entity.Group
import Cooling.Log.Record
import Cooling.Source
import Cooling.Zone

/-!
# Actions

An action is a named piece of behaviour that is run on a group within a zone: it looks up
what is known of the group's members and may ask the zone for increases.  Actions are made
from configuration by the maker of a `Behaviour`, under the name that the configuration uses.
-/

namespace Cooling

/-- Why an action is not to be had. -/
inductive ActionError where
  /-- A behaviour cannot be registered under no name. -/
  | emptyName
  /-- The name is taken. -/
  | alreadyRegistered (name : String)
  /-- No behaviour has the name. -/
  | unknown (name : String) (available : List String)
  /-- The behaviour refuses the configuration. -/
  | rejected (action reason : String)
  /-- The shared catalogue has not been built. -/
  | notInitialised
deriving DecidableEq, Repr

/-- The report of an error. -/
def ActionError.message : ActionError → String
  | emptyName => "action name must not be empty"
  | alreadyRegistered name => s!"action `{name}` is already registered"
  | unknown name available =>
    let names := ", ".intercalate available
    s!"action `{name}` is not registered (available actions: {names})"
  | rejected action reason => s!"action `{action}`: {reason}"
  | notInitialised => "action registry has not been initialised"

/-- A computation that reports and may fail. -/
abbrev Attempt (ε α : Type) := ExceptT ε Logged α

/-- A behaviour made from configuration, under a name. -/
structure Action where
  name : String
  /-- What the action does to a zone, judging a group by what is known. -/
  run : Group → Source → Zone → Logged Zone

/-- The action as shown to people. -/
def Action.describe (action : Action) : String :=
  "Action \x7b name: " ++ Text.quoted action.name ++ " \x7d"

/-- Makes an action from the name it goes by and its configuration. -/
abbrev Maker := String → Json → Except ActionError Action

/-- A kind of action: the name it is registered under by default, and its maker. -/
structure Behaviour where
  name : String
  make : Maker

end Cooling
