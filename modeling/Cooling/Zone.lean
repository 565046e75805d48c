/-!
# Zones

A cooling zone, as an action sees it.  Actions ask for increases of its target; within a
cycle the zone keeps the largest one asked for.
-/

namespace Cooling

/-- A zone in the course of a cycle: the net increase asked for so far, and every request
received, oldest first. -/
structure Zone where
  name : String
  increase : UInt64 := 0
  requests : List UInt64 := []
deriving DecidableEq, Repr

namespace Zone

/-- The zone after a request for an increase. -/
def request (zone : Zone) (amount : UInt64) : Zone :=
  { zone with increase := max zone.increase amount, requests := zone.requests ++ [amount] }

@[simp] theorem name_request (zone : Zone) (amount : UInt64) :
    (zone.request amount).name = zone.name := rfl

@[simp] theorem increase_request (zone : Zone) (amount : UInt64) :
    (zone.request amount).increase = max zone.increase amount := rfl

@[simp] theorem requests_request (zone : Zone) (amount : UInt64) :
    (zone.request amount).requests = zone.requests ++ [amount] := rfl

end Zone
end Cooling
