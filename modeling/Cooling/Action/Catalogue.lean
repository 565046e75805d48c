import Cooling.Action.Basic
import Cooling.Table

/-!
# The catalogue of behaviours

The catalogue says which behaviour a configured name means.  A name is given once and never
given away again: registering under a name that is taken fails and changes nothing.
Resolving a name makes an action by the maker registered under it.
-/

namespace Cooling

/-- Makers by name. -/
structure Catalogue where
  makers : Table Maker := .empty

namespace Catalogue

/-- The part of the program that the catalogue's records come from. -/
def logTarget : String := "fanctl_app::actions::factory"

/-! ## 1. What is in it -/

/-- The names registered, ascending. -/
def names (catalogue : Catalogue) : List String := catalogue.makers.keys

/-- The names registered, in one text. -/
def available (catalogue : Catalogue) : String := ", ".intercalate catalogue.names

/-- Whether a name is registered. -/
def contains (catalogue : Catalogue) (name : String) : Bool := catalogue.makers.contains name

/-- The number of names. -/
def size (catalogue : Catalogue) : Nat := catalogue.makers.size

/-- Whether there is no name. -/
def isEmpty (catalogue : Catalogue) : Bool := catalogue.makers.entries.isEmpty

/-- The catalogue as shown to people. -/
def describe (catalogue : Catalogue) : String :=
  "ActionFactory \x7b actions: " ++ Text.quotedList catalogue.names ++ " \x7d"

/-! ## 2. Registering -/

/-- The record of a name that is registered. -/
def registeredRecord (name : String) : Log.Record :=
  ⟨.debug, logTarget, "registered action", [.quoted "action" name], none⟩

/-- Registers a maker under a name.  The catalogue with it is the result; on failure there is
none, so the one at hand stays as it was. -/
def registerMaker (catalogue : Catalogue) (name : String) (make : Maker) :
    Attempt ActionError Catalogue := do
  if name = "" then throw .emptyName
  if catalogue.contains name then
    Logged.report
      ⟨.error, logTarget, "action is already registered", [.quoted "action" name], none⟩
    throw (.alreadyRegistered name)
  Logged.report (registeredRecord name)
  return ⟨catalogue.makers.insert name make⟩

/-- Registers a behaviour under a name of choice. -/
def registerAs (catalogue : Catalogue) (behaviour : Behaviour) (name : String) :
    Attempt ActionError Catalogue :=
  catalogue.registerMaker name behaviour.make

/-- Registers a behaviour under its own name. -/
def register (catalogue : Catalogue) (behaviour : Behaviour) : Attempt ActionError Catalogue :=
  catalogue.registerAs behaviour behaviour.name

/-- Registers behaviours in order, up to the first failure.  What was registered before it
stays registered. -/
def registerAll (catalogue : Catalogue) :
    List Behaviour → Logged (Catalogue × Option ActionError)
  | [] => return (catalogue, none)
  | behaviour :: rest => do
    match ← (catalogue.register behaviour).run with
    | .error e => return (catalogue, some e)
    | .ok larger => larger.registerAll rest

/-! ## 3. Resolving -/

/-- The action that a configured name and configuration mean. -/
def resolve (catalogue : Catalogue) (name : String) (config : Json) :
    Attempt ActionError Action := do
  match catalogue.makers.get? name with
  | some make => ExceptT.mk (pure (make name config))
  | none =>
    Logged.report ⟨.error, logTarget, "action is not registered",
      [.quoted "action" name, .plain "available_actions" catalogue.available], none⟩
    throw (.unknown name catalogue.names)

end Catalogue
end Cooling
