import Cooling.Action.Catalogue
import Cooling.Entity.Event

/-!
# Events that are ready to run

An event is ready once every action it configures has been resolved.  It is all or nothing:
the first action that cannot be resolved decides, and later ones are not tried.
-/

namespace Cooling

/-- An event and its actions, in the order of the configuration. -/
structure ReadyEvent where
  event : Event
  actions : List Action

namespace ReadyEvent

/-- The work of resolving an event's actions, as records are marked with it. -/
def span (event : Event) : Log.Span :=
  ⟨"resolve_event_actions", "fanctl_app::events", .info, [.quoted "event" event.name]⟩

/-- The record of all actions of an event being resolved, as many as there are. -/
def resolvedRecord (count : Nat) : Log.Record :=
  ⟨.debug, "fanctl_app::events", "resolved event actions", [.count "count" count], none⟩

/-- The actions of an event, resolved in order. -/
def resolveActions (catalogue : Catalogue) (event : Event) : Attempt ActionError (List Action) :=
  ExceptT.mk <| Logged.within (span event) <| ExceptT.run do
    let actions ← event.actions.mapM fun entry => catalogue.resolve entry.name entry.config
    Logged.report (resolvedRecord actions.length)
    return actions

/-- An event with its actions resolved. -/
def ofEvent (catalogue : Catalogue) (event : Event) : Attempt ActionError ReadyEvent := do
  return ⟨event, ← resolveActions catalogue event⟩

/-- The event as shown to people. -/
def describe (ready : ReadyEvent) : String :=
  "ResolvedEvent \x7b event: " ++ Text.quoted ready.event.name ++ ", actions: " ++
    Text.quotedList (ready.actions.map (·.name)) ++ " \x7d"

/-- Runs every action on each of the event's groups that is given, group by group in the
order in which the event names them.  Of given groups with one name the first is meant. -/
def run (ready : ReadyEvent) (groups : List Group) (source : Source) (zone : Zone) :
    Logged Zone :=
  (ready.event.groups.filterMap fun name => groups.find? (·.name == name)).foldlM
    (fun zone group => ready.actions.foldlM (fun zone action => action.run group source zone) zone)
    zone

end ReadyEvent
end Cooling
