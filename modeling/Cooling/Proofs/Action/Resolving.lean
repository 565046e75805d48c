import Cooling.Proofs.Action.Catalogue
import Cooling.Proofs.Action.Ready
import Cooling.Proofs.Entity.Events

/-!
# Resolving the actions of an event

The entries of an event are resolved one after the other, and the first that does not resolve
ends it: nothing is kept of those before it, and those after it are never asked for.  An entry
fails in one of two ways.  Either no maker has its name, which is reported, or the maker refuses
the entry, which is not.  So the errors that are reported tell which entries were asked for; if
all of them resolve there is none, and one record says how many they are.

* `meaning_eq_ok_iff`, `meaning_eq_error_iff`: what one entry comes to;
* `runAll_requestsOf`: asking a catalogue for entries leaves it as it is;
* `log_of_value_eq_ok`, `log_of_value_eq_error`: what is written of an event;
* `resolve_all_or_nothing`: what an event comes to.
-/

namespace Cooling

/-! ## 1. One entry -/

namespace Catalogue

/-- **An entry resolves to an action**: the maker registered under its name makes the action from
that name and from the entry as a whole. -/
def Resolves (catalogue : Catalogue) (entry : ActionEntry) (action : Action) : Prop :=
  ∃ make, catalogue.makers.get? entry.name = some make ∧ make entry.name entry.config = .ok action

/-- An entry does not resolve: no maker has its name, or the maker that has it refuses. -/
inductive Unresolved (catalogue : Catalogue) (entry : ActionEntry) : ActionError → Prop where
  | unknown (h : catalogue.makers.get? entry.name = none) :
      Unresolved catalogue entry (.unknown entry.name catalogue.names)
  | rejected {make : Maker} {e : ActionError} (h : catalogue.makers.get? entry.name = some make)
      (hmake : make entry.name entry.config = .error e) : Unresolved catalogue entry e

variable {catalogue : Catalogue} {entry : ActionEntry} {action : Action} {e : ActionError}

theorem meaning_eq_ok_iff :
    catalogue.meaning entry = .ok action ↔ catalogue.Resolves entry action := by
  rw [meaning, value_resolve, Resolves]
  cases catalogue.makers.get? entry.name <;> simp

theorem meaning_eq_error_iff :
    catalogue.meaning entry = .error e ↔ catalogue.Unresolved entry e := by
  rw [meaning, value_resolve]
  constructor
  · intro h
    split at h
    · rename_i make hmake
      exact .rejected hmake h
    · rename_i hnone
      cases h
      exact .unknown hnone
  · intro h
    cases h with
    | unknown h => rw [h]
    | rejected h hmake =>
      rw [h]
      exact hmake

/-- An entry that resolves is not reported. -/
theorem log_resolve_of_resolves (h : catalogue.Resolves entry action) :
    (catalogue.resolve entry.name entry.config).run.log = [] := by
  obtain ⟨make, hmake, -⟩ := h
  rw [log_resolve, hmake]
  rfl

/-! ## 2. Asking for entries -/

/-- The requests for the actions of entries. -/
def requestsOf (entries : List ActionEntry) : List Request :=
  entries.map fun entry => .resolve entry.name entry.config

/-- **Asking a catalogue for entries** leaves it as it is; each is answered with its meaning. -/
theorem runAll_requestsOf (catalogue : Catalogue) : ∀ entries : List ActionEntry,
    Logged.runAll serve catalogue (requestsOf entries) =
      ⟨(entries.map fun entry => .resolved (catalogue.meaning entry), catalogue),
        entries.flatMap fun entry => (catalogue.resolve entry.name entry.config).run.log⟩
  | [] => rfl
  | entry :: rest => by
    have ih := runAll_requestsOf catalogue rest
    have hvalue := Logged.value_runAll_cons serve catalogue (.resolve entry.name entry.config)
      (requestsOf rest)
    have hlog := Logged.log_runAll_cons serve catalogue (.resolve entry.name entry.config)
      (requestsOf rest)
    rw [value_serve_resolve, ih] at hvalue
    rw [value_serve_resolve, log_serve_resolve, ih] at hlog
    exact Logged.ext hvalue hlog

end Catalogue

/-! ## 3. Events -/

namespace ReadyEvent

open Catalogue (requestsOf)

variable {catalogue : Catalogue} {event : Event}

theorem resolveActions_eq_ok_iff {actions : List Action} :
    (resolveActions catalogue event).run.value = .ok actions ↔
      List.Forall₂ catalogue.Resolves event.actions actions := by
  rw [value_resolveActions, mapM_eq_ok_iff]
  simp only [Catalogue.meaning_eq_ok_iff]

theorem exists_resolveActions_eq_ok_iff :
    (∃ actions, (resolveActions catalogue event).run.value = .ok actions) ↔
      ∀ entry ∈ event.actions, ∃ action, catalogue.Resolves entry action := by
  simp only [value_resolveActions, exists_mapM_eq_ok_iff, Catalogue.meaning_eq_ok_iff]

theorem resolveActions_eq_error_iff {e : ActionError} :
    (resolveActions catalogue event).run.value = .error e ↔
      First catalogue.Unresolved event.actions e := by
  rw [value_resolveActions, mapM_eq_error_iff]
  exact first_congr fun entry _ e => Catalogue.meaning_eq_error_iff

/-- The entries of an event that are attempted. -/
def attempted (catalogue : Catalogue) (event : Event) : List ActionEntry :=
  Attempt.attempted (fun entry => catalogue.resolve entry.name entry.config) event.actions

/-- Entries that resolve are attempted one after the other. -/
theorem attempted_append {entries rest : List ActionEntry}
    (h : ∀ entry ∈ entries, ∃ action, catalogue.Resolves entry action) :
    let ask := fun entry : ActionEntry => catalogue.resolve entry.name entry.config
    Attempt.attempted ask (entries ++ rest) = entries ++ Attempt.attempted ask rest := by
  refine Attempt.attempted_append fun entry hentry => ?_
  obtain ⟨action, haction⟩ := h entry hentry
  exact ⟨action, Catalogue.meaning_eq_ok_iff.mpr haction⟩

/-- After the first entry that does not resolve none is attempted. -/
theorem attempted_eq {before after : List ActionEntry} {entry : ActionEntry} {e : ActionError}
    (hactions : event.actions = before ++ entry :: after)
    (hbefore : ∀ earlier ∈ before, ∃ action, catalogue.Resolves earlier action)
    (hentry : catalogue.Unresolved entry e) : attempted catalogue event = before ++ [entry] := by
  have hvalue : (catalogue.resolve entry.name entry.config).run.value = .error e :=
    Catalogue.meaning_eq_error_iff.mpr hentry
  rw [attempted, hactions, attempted_append hbefore, Attempt.attempted, hvalue]

/-- Entries that resolve write nothing. -/
theorem flatMap_log_eq_nil {entries : List ActionEntry}
    (h : ∀ entry ∈ entries, ∃ action, catalogue.Resolves entry action) :
    (entries.flatMap fun entry => (catalogue.resolve entry.name entry.config).run.log) = [] := by
  rw [List.flatMap_eq_nil_iff]
  intro entry hentry
  obtain ⟨action, haction⟩ := h entry hentry
  exact Catalogue.log_resolve_of_resolves haction

/-- **What is written of an event that resolves**: how many actions it has. -/
theorem log_of_value_eq_ok {actions : List Action}
    (h : (resolveActions catalogue event).run.value = .ok actions) :
    (resolveActions catalogue event).run.log = [marked event (resolvedRecord actions.length)] := by
  have hentries := exists_resolveActions_eq_ok_iff.mp ⟨actions, h⟩
  have hattempted : ∀ entry ∈ attempted catalogue event,
      ∃ action, catalogue.Resolves entry action := by
    intro entry hentry
    exact hentries entry (Attempt.mem_of_mem_attempted hentry)
  have hnil : (event.actions.mapM fun entry =>
      catalogue.resolve entry.name entry.config).run.log = [] :=
    (Attempt.log_mapM _ _).trans (flatMap_log_eq_nil hattempted)
  rw [value_resolveActions] at h
  rw [log_resolveActions, h, hnil]
  rfl

/-- **What is written of an event that does not**: the records of the entries attempted. -/
theorem log_of_value_eq_error {e : ActionError}
    (h : (resolveActions catalogue event).run.value = .error e) :
    (resolveActions catalogue event).run.log =
      ((attempted catalogue event).flatMap fun entry =>
        (catalogue.resolve entry.name entry.config).run.log).map (marked event) := by
  rw [value_resolveActions] at h
  rw [log_resolveActions, h, List.append_nil, Attempt.log_mapM]
  rfl

/-! ## 4. The first entry that does not resolve -/

/-- **An event ends at an entry** with an error: the catalogue has been asked for the entries up
to it, of which it alone may be reported, as an error, and whatever comes later makes no
difference. -/
structure EndsAt (catalogue : Catalogue) (event : Event) (before : List ActionEntry)
    (entry : ActionEntry) (e : ActionError) : Prop where
  value : (resolveActions catalogue event).run.value = .error e
  asked : (resolveActions catalogue event).run.log =
    (Logged.runAll Catalogue.serve catalogue (requestsOf (before ++ [entry]))).log.map
      (marked event)
  unknown : catalogue.makers.get? entry.name = none →
    (resolveActions catalogue event).run.log = [marked event (catalogue.notRegistered entry.name)]
  rejected : catalogue.makers.get? entry.name ≠ none →
    (resolveActions catalogue event).run.log = []
  errors : (resolveActions catalogue event).run.log.filter Log.Record.isError =
    (resolveActions catalogue event).run.log
  later : ∀ later, resolveActions catalogue { event with actions := before ++ entry :: later } =
    resolveActions catalogue event

variable {before after : List ActionEntry} {entry : ActionEntry} {e : ActionError}

theorem value_of_unresolved (hactions : event.actions = before ++ entry :: after)
    (hbefore : ∀ earlier ∈ before, ∃ action, catalogue.Resolves earlier action)
    (hentry : catalogue.Unresolved entry e) :
    (resolveActions catalogue event).run.value = .error e := by
  rw [resolveActions_eq_error_iff]
  refine ⟨before, entry, after, hactions, ?_, hentry⟩
  intro earlier hearlier e' he'
  obtain ⟨action, haction⟩ := hbefore earlier hearlier
  have hok := Catalogue.meaning_eq_ok_iff.mpr haction
  rw [Catalogue.meaning_eq_error_iff.mpr he'] at hok
  cases hok

theorem log_of_unresolved (hactions : event.actions = before ++ entry :: after)
    (hbefore : ∀ earlier ∈ before, ∃ action, catalogue.Resolves earlier action)
    (hentry : catalogue.Unresolved entry e) :
    (resolveActions catalogue event).run.log =
      (catalogue.resolve entry.name entry.config).run.log.map (marked event) := by
  rw [log_of_value_eq_error (value_of_unresolved hactions hbefore hentry),
    attempted_eq hactions hbefore hentry, List.flatMap_append, flatMap_log_eq_nil hbefore,
    List.nil_append, List.flatMap_singleton]

theorem endsAt (hactions : event.actions = before ++ entry :: after)
    (hbefore : ∀ earlier ∈ before, ∃ action, catalogue.Resolves earlier action)
    (hentry : catalogue.Unresolved entry e) : EndsAt catalogue event before entry e := by
  have hvalue := value_of_unresolved hactions hbefore hentry
  have hlog := log_of_unresolved hactions hbefore hentry
  rw [Catalogue.log_resolve] at hlog
  refine ⟨hvalue, ?_, ?_, ?_, ?_, ?_⟩
  · rw [Catalogue.runAll_requestsOf, log_of_value_eq_error hvalue,
      attempted_eq hactions hbefore hentry]
  · intro hnone
    rw [hlog, hnone]
    rfl
  · intro hsome
    rw [hlog, if_pos (Option.isSome_iff_ne_none.mpr hsome), List.map_nil]
  · rw [hlog]
    split <;> rfl
  · intro later
    have hvalue' : (resolveActions catalogue
        { event with actions := before ++ entry :: later }).run.value = .error e :=
      value_of_unresolved rfl hbefore hentry
    have hlog' : (resolveActions catalogue
        { event with actions := before ++ entry :: later }).run.log =
        (catalogue.resolve entry.name entry.config).run.log.map (marked event) :=
      log_of_unresolved rfl hbefore hentry
    rw [Catalogue.log_resolve] at hlog'
    exact Logged.ext (hvalue'.trans hvalue.symm) (hlog'.trans hlog.symm)

/-! ## 5. All or nothing -/

/-- **Resolving an event is all or nothing.**  It succeeds exactly if each entry resolves, with
the actions of the entries in order, and then reports no error: all it writes is how many they
are.  Otherwise it ends at the first entry that does not resolve.  The catalogue is left as it is,
whatever entries it is asked for; its names are listed ascending, each once.  The event is made
ready, as it is, exactly if its actions are there, and the entries of one that was read are the
items of its JSON as a whole. -/
theorem resolve_all_or_nothing (catalogue : Catalogue) (event : Event) :
    ((∀ actions, (resolveActions catalogue event).run.value = .ok actions ↔
        List.Forall₂ catalogue.Resolves event.actions actions) ∧
      ((∃ actions, (resolveActions catalogue event).run.value = .ok actions) ↔
        ∀ entry ∈ event.actions, ∃ action, catalogue.Resolves entry action) ∧
      ∀ actions, (resolveActions catalogue event).run.value = .ok actions →
        (resolveActions catalogue event).run.log.filter Log.Record.isError = [] ∧
        (resolveActions catalogue event).run.log =
          [marked event (resolvedRecord event.actions.length)]) ∧
    ((∀ e, (resolveActions catalogue event).run.value = .error e ↔
        First catalogue.Unresolved event.actions e) ∧
      ∀ before entry after e, event.actions = before ++ entry :: after →
        (∀ earlier ∈ before, ∃ action, catalogue.Resolves earlier action) →
        catalogue.Unresolved entry e → EndsAt catalogue event before entry e) ∧
    ((Logged.runAll Catalogue.serve catalogue (requestsOf event.actions)).value.2 = catalogue ∧
      catalogue.names.Pairwise (fun a b => Text.bytes a < Text.bytes b) ∧
      ∀ name, name ∈ catalogue.names ↔ (catalogue.makers.get? name).isSome) ∧
    (ofEvent catalogue event).run.value =
      (resolveActions catalogue event).run.value.map (fun actions => ⟨event, actions⟩) ∧
    (ofEvent catalogue event).run.log = (resolveActions catalogue event).run.log ∧
    ∀ j, Event.ofJson j = .ok event →
      j.get? "actions" = some (.array (event.actions.map (·.config))) := by
  refine ⟨⟨?_, exists_resolveActions_eq_ok_iff, ?_⟩, ⟨?_, ?_⟩, ⟨?_, ?_, ?_⟩, ?_, ?_, ?_⟩
  · intro actions
    exact resolveActions_eq_ok_iff
  · intro actions h
    have hlog := log_of_value_eq_ok h
    rw [← (resolveActions_eq_ok_iff.mp h).length_eq] at hlog
    exact ⟨by rw [hlog]; rfl, hlog⟩
  · intro e
    exact resolveActions_eq_error_iff
  · intro before entry after e hactions hbefore hentry
    exact endsAt hactions hbefore hentry
  · rw [Catalogue.runAll_requestsOf]
  · exact catalogue.makers.pairwise_keys_bytes
  · intro name
    exact Table.contains_iff.symm
  · rw [value_ofEvent, value_resolveActions]
    cases event.actions.mapM catalogue.meaning <;> rfl
  · exact log_ofEvent catalogue event
  · intro j h
    exact (Event.ofJson_eq_ok_iff.mp h).actions

end ReadyEvent
end Cooling
