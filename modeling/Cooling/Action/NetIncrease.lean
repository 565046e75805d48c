import Cooling.Action.Basic
import Cooling.Clamped

/-!
# Raising a zone's target

The action `net_target_increase` raises the target of a zone while members of a group are at
or past a configured state.  A number at or above the state asks for an increase that grows
with the distance from it, by `delta` for each unit and, between whole numbers, for one
`delta` at least; a truth value or a string that equals the state asks for `delta`.  The zone
is asked once, for the largest of these and of what it has been asked for already.
-/

namespace Cooling

/-- The configured state and the increase for each unit of distance from it. -/
structure NetIncrease where
  name : String
  state : Property
  delta : UInt64
deriving DecidableEq

namespace NetIncrease

/-! ## 1. What one member asks for -/

/-- The increase that a whole number asks for against a whole state. -/
def wholeContribution (delta : UInt64) (value state : Int64) : Option UInt64 :=
  if value < state then none
  else some (Clamped.mul (max (Clamped.sub value state) 1).toUInt64 delta)

/-- The increase that a number asks for against a state, one of them at least a double. -/
def realContribution (delta : UInt64) (value state : Binary64) : Option UInt64 :=
  if value.below state then none
  else some ((value - state) * Binary64.ofInt delta.toNat).toUInt64

/-- The increase that a value asks for, if it asks for one. -/
def contribution (rule : NetIncrease) (value : Property) : Option UInt64 :=
  match value, rule.state with
  | .int v, .int s => wholeContribution rule.delta v s
  | .bool v, .bool s => if v = s then some rule.delta else none
  | .string v, .string s => if v = s then some rule.delta else none
  | v, s => do realContribution rule.delta (← v.toBinary64?) (← s.toBinary64?)

/-! ## 2. A run -/

/-- The place where the property of a group's member is found. -/
def place (group : Group) (member : String) : Place :=
  ⟨member, group.interface, group.property⟩

/-- The report of a member whose value cannot be set against the state. -/
def unsupported (rule : NetIncrease) (zone : Zone) (group : Group) (member : String)
    (value : Property) : Log.Record :=
  ⟨.error, "fanctl_app::actions::net_target_increase", "unsupported group member type",
    [.quoted "action" rule.name, .quoted "zone" zone.name, .plain "member" member,
      .quoted "interface" group.interface, .quoted "property" group.property,
      .quoted "member_type" value.kind.name, .quoted "state_type" rule.state.kind.name], none⟩

/-- The increase after one more member, the largest so far being `largest`. -/
def consider (rule : NetIncrease) (zone : Zone) (group : Group) (source : Source)
    (largest : UInt64) (member : String) : Logged UInt64 :=
  match source (place group member) with
  | none => pure largest
  | some value =>
    match rule.contribution value with
    | some amount => pure (max largest amount)
    | none => do
      if !value.comparable rule.state then
        Logged.report (rule.unsupported zone group member value)
      return largest

/-- One run: the zone is asked for the largest increase. -/
def run (rule : NetIncrease) (group : Group) (source : Source) (zone : Zone) : Logged Zone := do
  let largest ← group.members.foldlM (rule.consider zone group source) zone.increase
  return zone.request largest

/-- The action of a rule. -/
def toAction (rule : NetIncrease) : Action := ⟨rule.name, rule.run⟩

/-! ## 3. Configuration -/

/-- Reads a rule that goes by a name.  It is written as an object with a `state` and a
`delta`; nothing else in it matters. -/
def ofJson (name : String) (config : Json) : Except ActionError NetIncrease := do
  let some state := config.get? "state"
    | throw (.rejected name "Missing required state value")
  let some state := Property.ofJson? state
    | throw (.rejected name "state must be a bool, integer, float or string")
  let some delta := config.get? "delta"
    | throw (.rejected name "Missing required delta value")
  let some delta := delta.unsigned?
    | throw (.rejected name "delta must be an unsigned integer")
  return ⟨name, state, delta⟩

/-- The behaviour, under the name that configurations use. -/
def behaviour : Behaviour :=
  ⟨"net_target_increase", fun name config => (ofJson name config).map toAction⟩

end NetIncrease
end Cooling
