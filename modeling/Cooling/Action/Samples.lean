import Cooling.Action.Basic

/-!
# Small behaviours

Three behaviours that show what a behaviour may do: ask for a fixed increase, do nothing, and
refuse a configuration.
-/

namespace Cooling.Samples

/-- Asks for the configured target, or for 100. -/
def setSpeed : Behaviour :=
  ⟨"set_speed", fun name config =>
    let target := ((config.get? "target").bind Json.unsigned?).getD 100
    .ok ⟨name, fun _ _ zone => pure (zone.request target)⟩⟩

/-- Does nothing. -/
def noop : Behaviour :=
  ⟨"noop", fun name _ => .ok ⟨name, fun _ _ zone => pure zone⟩⟩

/-- Does nothing, but wants a mode. -/
def strict : Behaviour :=
  ⟨"strict", fun name config =>
    match config.get? "mode" with
    | some _ => .ok ⟨name, fun _ _ zone => pure zone⟩
    | none => .error (.rejected name "Missing required mode value")⟩

end Cooling.Samples
