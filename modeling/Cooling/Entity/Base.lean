import Cooling.Entity.Field

/-!
# What all entities have in common

Every fan, group and event has a name and may be tied to profiles.  Without profiles it is
always active, otherwise while one of its profiles is.
-/

namespace Cooling.Entity

/-- The name and the profiles of an entity. -/
structure Base where
  name : String
  profiles : List String
deriving DecidableEq, Repr

/-- Whether an entity with the given profiles is active while the profiles `active` are. -/
def profilesMatch (profiles active : List String) : Bool :=
  profiles.isEmpty || profiles.any active.contains

namespace Base

/-- Whether the entity is active while the profiles `active` are. -/
def isActive (base : Base) (active : List String) : Bool :=
  profilesMatch base.profiles active

/-- The common part of an entity, from the members of its object. -/
def ofMembers (entity : String) (members : Json.Members) : Except EntityError Base := do
  let name ← requiredString entity members "name"
  let name ← nonemptyString entity "name" name
  let profiles ← optionalStrings entity members "profiles"
  return ⟨name, profiles⟩

/-- The common part of an entity of the named kind. -/
def ofJson (entity : String) (j : Json) : Except EntityError Base := do
  ofMembers entity (← Entity.members entity j)

end Base
end Cooling.Entity
