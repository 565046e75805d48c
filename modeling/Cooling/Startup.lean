import Cooling.Action.Ready
import Cooling.Action.Shared
import Cooling.Inventory
import Cooling.Settings

/-!
# Starting the service

The service starts in stages: settings, the shared catalogue, the inventory, the events.  The
first stage that fails ends it with a report; otherwise the service is ready, with a table of
its zones and every active event resolved, and waits to be told to stop.

`start` is the stages after the settings, which also say what of its log is shown; `run` is
the whole, up to the lines that are printed and the exit code.
-/

namespace Cooling

/-- Why the service does not start, by stage. -/
inductive StartupError where
  | settings (cause : SettingsError)
  | catalogue (cause : ActionError)
  | inventory (directory : String) (cause : LoadError)
  | events (cause : ActionError)
deriving DecidableEq, Repr

namespace StartupError

/-- What the service was at. -/
def context : StartupError → String
  | settings _ => "loading daemon configuration"
  | catalogue _ => "registering built-in actions"
  | inventory directory _ => s!"loading entities from {directory}"
  | events _ => "resolving event actions"

/-- What went wrong, the outermost first. -/
def causes (wording : Wording) : StartupError → List String
  | settings cause => cause.chain wording
  | catalogue cause => [cause.message]
  | inventory _ cause => cause.chain wording
  | events cause => [cause.message]

/-- A text whose lines after the first are indented. -/
def indented (first next s : String) : String :=
  first ++ ("\n" ++ next).intercalate ((Text.splitOn '\n' s.toList).map String.ofList)

/-- The causes in the report: one alone, or several numbered from 0. -/
def causeTexts : List String → List String
  | [cause] => [indented "    " "    " cause]
  | causes => causes.zipIdx.map fun (cause, i) =>
    let number := toString i
    indented (String.ofList (List.replicate (5 - number.length) ' ') ++ number ++ ": ")
      "       " cause

/-- The report of an error. -/
def report (wording : Wording) (e : StartupError) : String :=
  "\n".intercalate (["Error: " ++ e.context, "", "Caused by:"] ++ causeTexts (e.causes wording))

end StartupError

/-! ## 1. Zones -/

/-- The names of fans by zone, each list in the order of the fans. -/
def zoneTable (fans : List Fan) : Table (List String) :=
  fans.foldl (fun zones fan => zones.update fan.zone fun names => names.getD [] ++ [fan.name])
    .empty

/-! ## 2. The service -/

/-- A service that is ready. -/
structure Service where
  settings : Settings
  inventory : Inventory
  zones : Table (List String)
  events : List ReadyEvent

namespace Service

/-- A record of the service as a whole. -/
def record (level : Log.Level) (message : String) (fields : List Log.Field := []) :
    Log.Record :=
  ⟨level, "fanctld", message, fields, none⟩

/-- An attempt whose failure is that of a stage. -/
def stage {ε α : Type} (wrap : ε → StartupError) (x : Attempt ε α) : Attempt StartupError α :=
  ExceptT.mk do return (← x.run).mapError wrap

/-- The records of the zones, or that there are none. -/
def zoneRecords (settings : Settings) (zones : Table (List String)) : List Log.Record :=
  if zones.entries.isEmpty then
    [record .warn "no fan is active" [.plain "profiles" (Text.quotedList settings.profiles)]]
  else zones.entries.map fun (zone, fans) =>
    record .info "zone configured" [.quoted "zone" zone, .plain "fans" (", ".intercalate fans)]

/-- The record of an event that is ready. -/
def eventRecord (ready : ReadyEvent) : Log.Record :=
  record .info "event ready"
    [.quoted "event" ready.event.name, .count "actions" ready.actions.length]

/-- The stages after the settings. -/
def start (settings : Settings) (files : Files) : Attempt StartupError Service := do
  Logged.report (record .info "starting fanctld v0.1.0")
  let edition ← stage .catalogue (ExceptT.mk ((·.1) <$> ({} : Shared).init))
  let bus := (({} : Bus).connect settings.busAddress).1
  let inventory ← stage (.inventory settings.directory)
    (Inventory.load files settings.directory bus)
  let active := settings.activeProfiles
  let zones := zoneTable (inventory.activeFans active)
  Logged.reportAll (zoneRecords settings zones)
  let events ← stage .events
    ((inventory.activeEvents active).mapM (ReadyEvent.ofEvent edition.catalogue))
  Logged.reportAll (events.map eventRecord)
  Logged.report (record .info "fanctld ready" [.quoted "bus" bus.address,
    .count "zones" zones.size, .count "events" events.length])
  return ⟨settings, inventory, zones, events⟩

/-- The record of the end of the service. -/
def stopped : Log.Record := record .info "shutting down"

end Service

/-! ## 3. A process -/

/-- How a process ends: its exit code, the lines of its log, and the report of what kept it from
starting. -/
structure Outcome where
  exitCode : Nat
  log : List String
  report : Option String
deriving DecidableEq, Repr

/-- A process that is told to stop once it is ready.  Records are shown as `line?` says of them and
of the filter in force, and a text that is refused as `wording` says of it. -/
def Service.run (wording : Wording) (line? : String → Log.Record → Option String)
    (file : FileRead) (env : Environment) (files : Files) : Outcome :=
  match Settings.load file env with
  | .error e => ⟨1, [], some ((StartupError.settings e).report wording)⟩
  | .ok settings =>
    let started := (start settings files).run
    let lines := List.filterMap (line? settings.filter)
    match started.value with
    | .error e => ⟨1, lines started.log, some (e.report wording)⟩
    | .ok _ => ⟨0, lines (started.log ++ [stopped]), none⟩

end Cooling
