import Cooling.Bus
import Cooling.Files
import Cooling.Text.Blank
import Cooling.Toml.Reader

/-!
# Settings

What the service needs to know before it starts: the address of the bus, the directory of the
entities, the active profiles and the log filter.  They come from a TOML file, which may be
absent and may leave anything out, and from environment variables, which go before the file.
Only what results is checked, so a variable can mend a bad value in the file.
-/

namespace Cooling

/-- An environment variable as text. -/
inductive Variable where
  | unset
  /-- It is set to something that is no text; that counts as unset. -/
  | undecodable
  | text (value : String)
deriving DecidableEq, Repr

namespace Variable

/-- The value, if it is set to a text. -/
def text? : Variable → Option String
  | text value => some value
  | _ => none

/-- A variable that is set to bytes. -/
def ofBytes (bytes : ByteArray) : Variable :=
  match String.fromUTF8? bytes with
  | some value => text value
  | none => undecodable

end Variable

/-- The environment variables that matter. -/
structure Environment where
  busAddress : Variable := .unset
  directory : Variable := .unset
  profiles : Variable := .unset
  log : Variable := .unset
  /-- The variable for the log filter that goes before the other one. -/
  logOverride : Variable := .unset
deriving DecidableEq, Repr

/-- The names of the environment variables that matter. -/
def Environment.names : List String :=
  ["FANCTL_BUS_ADDRESS", "FANCTL_CONFIG_DIR", "FANCTL_PROFILES", "FANCTL_LOG", "RUST_LOG"]

/-- The environment in which a variable is what `value` says of its name. -/
def Environment.ofVariables (value : String → Variable) : Environment :=
  ⟨value "FANCTL_BUS_ADDRESS", value "FANCTL_CONFIG_DIR", value "FANCTL_PROFILES",
    value "FANCTL_LOG", value "RUST_LOG"⟩

/-- A setting that must not be empty. -/
inductive SettingsFault where
  | emptyAddress
  | emptyDirectory
  | emptyProfile
deriving DecidableEq, Repr

/-- The report of a fault. -/
def SettingsFault.message : SettingsFault → String
  | emptyAddress => "bus address must not be empty"
  | emptyDirectory => "entities directory must not be empty"
  | emptyProfile => "profile names must not be empty"

/-- Why there are no settings. -/
inductive SettingsError where
  /-- The file's content is not TOML, or something else than settings. -/
  | malformed (content : String)
  | unreadable (reason : String)
  | invalid (fault : SettingsFault)
deriving DecidableEq, Repr

namespace SettingsError

/-- The report of an error. -/
def message : SettingsError → String
  | malformed _ => "failed to parse config file"
  | unreadable _ => "failed to read config file"
  | invalid fault => s!"invalid configuration: {fault.message}"

/-- The report and what it rests on, the outermost first. -/
def chain (wording : Wording) (e : SettingsError) : List String :=
  match e with
  | malformed content => [e.message, wording.toml content]
  | unreadable reason => [e.message, reason]
  | invalid _ => [e.message]

end SettingsError

/-- The settings of the service. -/
structure Settings where
  busAddress : String := Bus.systemAddress
  directory : String := "/usr/share/fanctl"
  profiles : List String := []
  filter : String := "fanctld=info,fanctl_app=info"
deriving DecidableEq, Repr

namespace Settings

/-- The file that settings are read from. -/
def fileName : String := "fanctl.toml"

/-! ## 1. The file -/

/-- A string in the file. -/
def string? : Toml → Option String
  | .string s => some s
  | _ => none

/-- A list of strings in the file. -/
def strings? : Toml → Option (List String)
  | .array items => items.mapM string?
  | _ => none

/-- The one field of a section: `some none` if the section does not give it, `none` if the
section is none.  A section may be written as an array of its fields, of which those too many
do not matter; a date or a time in its place gives no field. -/
def field? {α : Type} (read : Toml → Option α) (key : String) : Toml → Option (Option α)
  | .table _ members =>
    match Toml.Members.get? members key with
    | none => some none
    | some value => (read value).map some
  | .array [] => some none
  | .array (value :: _) => (read value).map some
  | .moment => some none
  | _ => none

/-- The field of a section of the file, the default if it is not given. -/
def setting? {α : Type} (read : Toml → Option α) (members : Toml.Members) (name key : String)
    (default : α) : Option α :=
  match members.get? name with
  | none => some default
  | some value => (field? read key value).map (·.getD default)

/-- The settings that a file's table gives, with the defaults for what it leaves out. -/
def ofTable? (members : Toml.Members) : Option Settings := do
  let default : Settings := {}
  return {
    busAddress := ← setting? string? members "bus" "address" default.busAddress
    directory := ← setting? string? members "entities" "dir" default.directory
    profiles := ← setting? strings? members "profiles" "active" default.profiles
    filter := ← setting? string? members "logging" "filter" default.filter }

/-- The settings of a file. -/
def ofFile : FileRead → Except SettingsError Settings
  | .absent => .ok {}
  | .unreadable reason => .error (.unreadable reason)
  | .text content =>
    match Toml.read? content.toList >>= ofTable? with
    | some settings => .ok settings
    | none => .error (.malformed content)

/-! ## 2. The environment -/

/-- The profiles that a text lists: the names between commas, without blanks around them. -/
def profileList (s : String) : List String := (Text.words ',' s.toList).map String.ofList

/-- The settings after the environment's say. -/
def override (settings : Settings) (env : Environment) : Settings where
  busAddress := env.busAddress.text?.getD settings.busAddress
  directory := env.directory.text?.getD settings.directory
  profiles := (env.profiles.text?.map profileList).getD settings.profiles
  filter := (env.logOverride.text?.or env.log.text?).getD settings.filter

/-! ## 3. The result -/

/-- The first setting that must not be empty and is. -/
def fault? (settings : Settings) : Option SettingsFault :=
  if settings.busAddress = "" then some .emptyAddress
  else if settings.directory = "" then some .emptyDirectory
  else if settings.profiles.contains "" then some .emptyProfile
  else none

/-- The settings as they stand, if nothing is wrong with them. -/
def checked (settings : Settings) : Except SettingsError Settings :=
  match settings.fault? with
  | some fault => .error (.invalid fault)
  | none => .ok settings

/-- The settings of a file and an environment. -/
def load (file : FileRead) (env : Environment) : Except SettingsError Settings := do
  ((← ofFile file).override env).checked

/-- The active profiles as a set: ascending, each once. -/
def activeProfiles (settings : Settings) : List String :=
  settings.profiles.mergeSort.eraseDups

end Settings
end Cooling
