import Cooling.Entity.Base

/-!
# Groups

A group is a set of objects on the bus that have one property of one interface in common, by
which actions judge them.
-/

namespace Cooling

/-- A configured group. -/
structure Group extends Entity.Base where
  members : List String
  interface : String
  property : String
deriving DecidableEq, Repr

namespace Group

open Entity

/-- The kind of entity, as errors name it. -/
def entity : String := "group"

/-- The file that lists the groups. -/
def fileName : String := "groups.json"

/-- Reads a group. -/
def ofJson (j : Json) : Except EntityError Group := do
  let fields ← Entity.members entity j
  let base ← Base.ofMembers entity fields
  let members ← requiredStrings entity fields "members"
  let members ← nonempty entity "members" members
  let interface ← requiredString entity fields "interface"
  let property ← requiredString entity fields "property"
  return { base with members, interface, property }

end Group
end Cooling
