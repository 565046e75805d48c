import Cooling.Action.Basic
import Cooling.Entity.Event
import Cooling.Entity.Fan
import Cooling.Files
import Cooling.Json.Reader

/-!
# The inventory

The inventory holds all configured fans, groups and events.  It is read from three files of
one directory, each an array of entities, and it is all or nothing: the first fault decides.
Faults are looked for file by file, then names that occur twice, then groups that events name
but nothing configures.
-/

namespace Cooling

/-- Why there is no inventory. -/
inductive LoadError where
  /-- The file of the fans is not there. -/
  | missing (path : String)
  | unreadable (path reason : String)
  /-- The file's content is not JSON. -/
  | malformed (path content : String)
  | notAnArray (path : String)
  /-- The item at an index is no entity. -/
  | invalidEntry (path : String) (index : Nat) (cause : EntityError)
  | duplicateName (path name : String)
  | unknownGroup (event group : String)
deriving DecidableEq, Repr

namespace LoadError

/-- The report of an error. -/
def message : LoadError → String
  | missing path => s!"required configuration file {path} not found"
  | unreadable path _ => s!"failed to read {path}"
  | malformed path _ => s!"failed to parse {path}"
  | notAnArray path => s!"{path} must contain a JSON array"
  | invalidEntry path index cause => s!"invalid entry {index} in {path}: {cause.message}"
  | duplicateName path name => s!"duplicate name `{name}` in {path}"
  | unknownGroup event group => s!"event `{event}` refers to unknown group `{group}`"

/-- The report and what it rests on, the outermost first. -/
def chain (wording : Wording) (e : LoadError) : List String :=
  match e with
  | unreadable _ reason => [e.message, reason]
  | malformed _ content => [e.message, wording.json content]
  | invalidEntry _ _ cause => [e.message, cause.message]
  | _ => [e.message]

end LoadError

/-- All configured entities, each kind in the order of its file. -/
structure Inventory where
  fans : List Fan := []
  groups : List Group := []
  events : List Event := []

namespace Inventory

/-! ## 1. Looking up -/

/-- The group with a name. -/
def group? (inventory : Inventory) (name : String) : Option Group :=
  inventory.groups.find? (·.name == name)

/-- The fans that take part while the profiles `active` are. -/
def activeFans (inventory : Inventory) (active : List String) : List Fan :=
  inventory.fans.filter (·.isActive active)

/-- The events that are enabled while the profiles `active` are. -/
def activeEvents (inventory : Inventory) (active : List String) : List Event :=
  inventory.events.filter (·.isActive active)

/-! ## 2. Reading one file -/

/-- The part of the program that the records of loading come from. -/
def logTarget : String := "fanctld::loader"

/-- The record of a file that is not there. -/
def absentRecord (path : String) : Log.Record :=
  ⟨.debug, logTarget, "entity file not present", [.plain "path" path], none⟩

/-- The items of the array that a file holds; none at all, which is reported, if there is no
file. -/
def items? (path : String) : FileRead → Attempt LoadError (Option (List Json))
  | .absent => do
    Logged.report (absentRecord path)
    return none
  | .unreadable reason => throw (.unreadable path reason)
  | .text content =>
    match Json.read? content.toList with
    | none => throw (.malformed path content)
    | some j =>
      match j.items? with
      | none => throw (.notAnArray path)
      | some items => return some items

/-- The entities that items are, one for each. -/
def entities {α : Type} (path : String) (ofJson : Json → Except EntityError α)
    (items : List Json) : Except LoadError (List α) :=
  items.zipIdx.mapM fun (j, index) => (ofJson j).mapError (.invalidEntry path index)

/-! ## 3. Checks across entities -/

/-- The first name that is in `seen` or stands a second time. -/
def firstRepeated (seen : List String) : List String → Option String
  | [] => none
  | name :: rest => if seen.contains name then some name else firstRepeated (name :: seen) rest

/-- Fails if a name stands twice. -/
def checkUnique (path : String) (names : List String) : Except LoadError Unit :=
  match firstRepeated [] names with
  | some name => .error (.duplicateName path name)
  | none => .ok ()

/-- The first event that names a group which is not there, and the first such group. -/
def firstUnknownGroup? (inventory : Inventory) : Option (String × String) :=
  inventory.events.findSome? fun event =>
    (event.groups.find? fun name => (inventory.group? name).isNone).map fun name =>
      (event.name, name)

/-- Fails if an event names a group that is not there. -/
def checkGroups (inventory : Inventory) : Except LoadError Unit :=
  match inventory.firstUnknownGroup? with
  | some (event, group) => .error (.unknownGroup event group)
  | none => .ok ()

/-! ## 4. Loading -/

/-- The record of an inventory that is loaded: how much there is. -/
def loadedRecord (dir : String) (inventory : Inventory) : Log.Record :=
  ⟨.info, logTarget, "loaded configuration entities",
    [.plain "dir" dir, .count "fans" inventory.fans.length,
      .count "groups" inventory.groups.length, .count "events" inventory.events.length], none⟩

/-- Reads the inventory in a directory, its fans driven on the given bus.  Only the file of the
fans must be there. -/
def load (files : Files) (dir : String) (bus : Bus.Handle) : Attempt LoadError Inventory := do
  let fansPath := Files.path dir Fan.fileName
  let some fanItems ← items? fansPath (files fansPath) | throw (.missing fansPath)
  let fans ← entities fansPath (Fan.ofJson bus) fanItems
  let groupsPath := Files.path dir Group.fileName
  let groups ← entities groupsPath Group.ofJson ((← items? groupsPath (files groupsPath)).getD [])
  let eventsPath := Files.path dir Event.fileName
  let events ← entities eventsPath Event.ofJson ((← items? eventsPath (files eventsPath)).getD [])
  checkUnique fansPath (fans.map (·.name))
  checkUnique groupsPath (groups.map (·.name))
  checkUnique eventsPath (events.map (·.name))
  let inventory : Inventory := ⟨fans, groups, events⟩
  inventory.checkGroups
  Logged.report (loadedRecord dir inventory)
  return inventory

end Inventory
end Cooling
