import Cooling.Bus
import Cooling.Entity.Base

/-!
# Fans

A fan belongs to a cooling zone, consists of one or more sensors and is driven through an
interface of the bus.
-/

namespace Cooling

/-- A configured fan and the bus it is driven on. -/
structure Fan extends Entity.Base where
  zone : String
  sensors : List String
  interface : String
  bus : Bus.Handle
deriving DecidableEq, Repr

namespace Fan

open Entity

/-- The kind of entity, as errors name it. -/
def entity : String := "fan"

/-- The file that lists the fans. -/
def fileName : String := "fans.json"

/-- The key of the interface: `target_interface` is read only where there is no
`interface`. -/
def interfaceKey (members : Json.Members) : String :=
  if (members.get? "interface").isNone && (members.get? "target_interface").isSome then
    "target_interface"
  else "interface"

/-- Reads a fan that is driven on the given bus. -/
def ofJson (bus : Bus.Handle) (j : Json) : Except EntityError Fan := do
  let members ← Entity.members entity j
  let base ← Base.ofMembers entity members
  let zone ← requiredString entity members "zone"
  let sensors ← requiredStrings entity members "sensors"
  let sensors ← nonempty entity "sensors" sensors
  let interface ← requiredString entity members (interfaceKey members)
  return { base with zone, sensors, interface, bus }

end Fan
end Cooling
