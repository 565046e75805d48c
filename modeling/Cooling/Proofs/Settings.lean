import Cooling.Proofs.First
import Cooling.Proofs.Toml.Writing
import Cooling.Settings

/-!
# Which layer decides a setting

Every setting has three layers: environment variables, the file and the default.  The first of
them that says something decides, for each setting on its own, and only what is decided is
checked.  The program goes another way about it: it fills a file's gaps with defaults first and
puts the variables over the result.  The two come to the same (`override_withDefaults`).

What a file says is put down here by the forms that its table may have (`SectionGives`), apart
from how the program reads it, and so is what it may not have (`SectionRefuses`).

* `Given.WrittenIn`, `Gives`: what a table and a file give of the settings, each of which may be
  left out;
* `gives_or_fails`: a file gives something, or it is unreadable or malformed;
* `gives_text`: there is a file for any choice of settings;
* `load_layered`: loading in terms of the layers.
-/

namespace Cooling.Settings

/-! ## 1. What a file gives -/

section Forms

variable {α : Type} (write : α → Toml) (key : String)

/-- **What a section gives of its one field.**  It is the value under the key of a table or the
first item of an array, and must be one that `write` writes.  A table without the key and an array
without items give nothing, nor does a date or a time in place of the section. -/
inductive SectionGives : Toml → Option α → Prop where
  | table {origin : Toml.Origin} {members : Toml.Members} {x : α}
      (h : List.lookup key members = some (write x)) :
      SectionGives (.table origin members) (some x)
  | tableWithout {origin : Toml.Origin} {members : Toml.Members}
      (h : List.lookup key members = none) : SectionGives (.table origin members) none
  | array (x : α) (rest : List Toml) : SectionGives (.array (write x :: rest)) (some x)
  | arrayWithout : SectionGives (.array []) none
  | moment : SectionGives .moment none

/-- **Something else stands in place of a section** or of its one field. -/
inductive SectionRefuses : Toml → Prop where
  | table {origin : Toml.Origin} {members : Toml.Members} {value : Toml}
      (h : List.lookup key members = some value) (hvalue : ∀ x, value ≠ write x) :
      SectionRefuses (.table origin members)
  | array {value : Toml} (rest : List Toml) (hvalue : ∀ x, value ≠ write x) :
      SectionRefuses (.array (value :: rest))
  | string (s : String) : SectionRefuses (.string s)
  | integer (n : Int) : SectionRefuses (.integer n)
  | float (x : Binary64) : SectionRefuses (.float x)
  | boolean (b : Bool) : SectionRefuses (.boolean b)
  | tables (rows : List Toml.Members) : SectionRefuses (.tables rows)

/-- What a file's table gives of a setting: what the section gives, nothing without one. -/
inductive SettingGiven (members : Toml.Members) (name : String) : Option α → Prop where
  | absent (h : List.lookup name members = none) : SettingGiven members name none
  | present {value : Toml} {given : Option α} (h : List.lookup name members = some value)
      (hvalue : SectionGives write key value given) : SettingGiven members name given

/-- Something else stands in a file's table where the section of a setting should. -/
def SettingRefused (members : Toml.Members) (name : String) : Prop :=
  ∃ value, List.lookup name members = some value ∧ SectionRefuses write key value

end Forms

/-- The settings that a file gives. -/
structure Given where
  busAddress : Option String := none
  directory : Option String := none
  profiles : Option (List String) := none
  filter : Option String := none

/-- A list of strings as a file writes it. -/
def writeStrings (ss : List String) : Toml := .array (ss.map .string)

/-- **What a file's table gives.** -/
structure Given.WrittenIn (given : Given) (members : Toml.Members) : Prop where
  busAddress : SettingGiven .string "address" members "bus" given.busAddress
  directory : SettingGiven .string "dir" members "entities" given.directory
  profiles : SettingGiven writeStrings "active" members "profiles" given.profiles
  filter : SettingGiven .string "filter" members "logging" given.filter

/-- A table is not one of settings: one of the four is something else. -/
def Refused (members : Toml.Members) : Prop :=
  SettingRefused Toml.string "address" members "bus" ∨
  SettingRefused Toml.string "dir" members "entities" ∨
  SettingRefused writeStrings "active" members "profiles" ∨
  SettingRefused Toml.string "filter" members "logging"

/-- **What a file gives**: nothing if it is absent, else what its table gives. -/
inductive Gives : FileRead → Given → Prop where
  | absent : Gives .absent {}
  | text {content : String} {members : Toml.Members} {given : Given}
      (hread : Toml.read? content.toList = some members) (hgiven : given.WrittenIn members) :
      Gives (.text content) given

/-- **A content is malformed** if it is no TOML or its table is not one of settings. -/
inductive Malformed (content : String) : Prop where
  | notToml (h : Toml.read? content.toList = none)
  | notSettings {members : Toml.Members} (hread : Toml.read? content.toList = some members)
      (h : Refused members)

/-! ## 2. Reading a setting -/

section Reading

variable {α : Type} {read : Toml → Option α} {write : α → Toml} {key name : String}
  {members : Toml.Members} {value : Toml} {given other : Option α}

/-- Values are read exactly as they are written. -/
def Reads (read : Toml → Option α) (write : α → Toml) : Prop :=
  ∀ value x, read value = some x ↔ value = write x

theorem reads_string : Reads string? .string := by
  intro value s
  cases value <;> simp [string?]

theorem reads_strings : Reads strings? writeStrings := by
  intro value ss
  cases value <;> simp [strings?, writeStrings, mapM_eq_some_iff_eq_map reads_string]

theorem Reads.eq_none_iff (hread : Reads read write) :
    read value = none ↔ ∀ x, value ≠ write x := by
  rw [Option.eq_none_iff_forall_ne_some]
  exact forall_congr' fun x => not_congr (hread value x)

/-- **A section gives what is read of it.** -/
theorem Reads.field?_eq_some_iff (hread : Reads read write) :
    field? read key value = some given ↔ SectionGives write key value given := by
  constructor
  · intro h
    cases value with
    | table origin members =>
      rw [field?] at h
      cases hvalue : Toml.Members.get? members key with
      | none =>
        rw [hvalue] at h
        cases h
        exact .tableWithout hvalue
      | some found =>
        rw [hvalue, Option.map_eq_some_iff] at h
        obtain ⟨x, hx, rfl⟩ := h
        rw [hread found x] at hx
        subst hx
        exact .table hvalue
    | array items =>
      cases items with
      | nil =>
        cases h
        exact .arrayWithout
      | cons item rest =>
        rw [field?, Option.map_eq_some_iff] at h
        obtain ⟨x, hx, rfl⟩ := h
        rw [hread item x] at hx
        subst hx
        exact .array x rest
    | moment =>
      cases h
      exact .moment
    | _ => cases h
  · intro h
    have hback (x : α) : read (write x) = some x := (hread _ x).mpr rfl
    cases h with
    | table h => simp only [field?, Toml.Members.get?, h, hback, Option.map_some]
    | tableWithout h => simp only [field?, Toml.Members.get?, h]
    | array x rest => simp only [field?, hback, Option.map_some]
    | arrayWithout => rfl
    | moment => rfl

/-- A section of which nothing is read is something else. -/
theorem Reads.refuses_of_field?_eq_none (hread : Reads read write)
    (h : field? read key value = none) : SectionRefuses write key value := by
  cases value with
  | table origin members =>
    rw [field?] at h
    cases hvalue : Toml.Members.get? members key with
    | none =>
      rw [hvalue] at h
      cases h
    | some found =>
      rw [hvalue, Option.map_eq_none_iff, hread.eq_none_iff] at h
      exact .table hvalue h
  | array items =>
    cases items with
    | nil => cases h
    | cons item rest =>
      rw [field?, Option.map_eq_none_iff, hread.eq_none_iff] at h
      exact .array rest h
  | moment => cases h
  | string s => exact .string s
  | integer n => exact .integer n
  | float x => exact .float x
  | boolean b => exact .boolean b
  | tables rows => exact .tables rows

/-- What gives something is not something else. -/
theorem SectionGives.not_refuses (h : SectionGives write key value given) :
    ¬ SectionRefuses write key value := by
  intro hrefuses
  cases h with
  | table h =>
    cases hrefuses with
    | table h' hvalue => exact hvalue _ (Option.some.inj (h'.symm.trans h))
  | tableWithout h =>
    cases hrefuses with
    | table h' => cases h'.symm.trans h
  | array x =>
    cases hrefuses with
    | array _ hvalue => exact hvalue x rfl
  | arrayWithout => cases hrefuses
  | moment => cases hrefuses

/-- A setting is given or refused. -/
theorem Reads.given_or_refused (hread : Reads read write) (members : Toml.Members)
    (name key : String) :
    (∃ given, SettingGiven write key members name given) ∨
      SettingRefused write key members name := by
  cases hsection : List.lookup name members with
  | none => exact .inl ⟨none, .absent hsection⟩
  | some value =>
    cases hfield : field? read key value with
    | none => exact .inr ⟨value, hsection, hread.refuses_of_field?_eq_none hfield⟩
    | some given =>
      exact .inl ⟨given, .present hsection (hread.field?_eq_some_iff.mp hfield)⟩

theorem SettingGiven.not_refused (h : SettingGiven write key members name given) :
    ¬ SettingRefused write key members name := by
  rintro ⟨value, hsection, hrefuses⟩
  cases h with
  | absent h => cases hsection.symm.trans h
  | present h hvalue =>
    cases hsection.symm.trans h
    exact hvalue.not_refuses hrefuses

theorem SettingGiven.unique (hread : Reads read write)
    (h : SettingGiven write key members name given)
    (h' : SettingGiven write key members name other) : given = other := by
  cases h with
  | absent h =>
    cases h' with
    | absent => rfl
    | present h' => cases h'.symm.trans h
  | present h hvalue =>
    cases h' with
    | absent h' => cases h'.symm.trans h
    | present h' hvalue' =>
      cases h'.symm.trans h
      have hfield := hread.field?_eq_some_iff.mpr hvalue
      rw [hread.field?_eq_some_iff.mpr hvalue'] at hfield
      exact (Option.some.inj hfield).symm

/-- **A setting is what is given**, the default if nothing is. -/
theorem Reads.setting?_eq_some_iff (hread : Reads read write) {default x : α} :
    setting? read members name key default = some x ↔
      ∃ given, SettingGiven write key members name given ∧ given.getD default = x := by
  rw [setting?, Toml.Members.get?]
  constructor
  · intro h
    cases hsection : List.lookup name members with
    | none =>
      rw [hsection] at h
      exact ⟨none, .absent hsection, Option.some.inj h⟩
    | some value =>
      rw [hsection, Option.map_eq_some_iff] at h
      obtain ⟨given, hgiven, hx⟩ := h
      exact ⟨given, .present hsection (hread.field?_eq_some_iff.mp hgiven), hx⟩
  · rintro ⟨given, hgiven, rfl⟩
    cases hgiven with
    | absent h => simp only [h, Option.getD_none]
    | present h hvalue => simp only [h, hread.field?_eq_some_iff.mpr hvalue, Option.map_some]

end Reading

/-! ## 3. Reading a file -/

/-- The settings with the defaults for what is not given. -/
def Given.withDefaults (given : Given) : Settings :=
  let default : Settings := {}
  { busAddress := given.busAddress.getD default.busAddress
    directory := given.directory.getD default.directory
    profiles := given.profiles.getD default.profiles
    filter := given.filter.getD default.filter }

/-- **The settings of a table** are what it gives, with the defaults for the rest. -/
theorem ofTable?_eq_some_iff {members : Toml.Members} {settings : Settings} :
    ofTable? members = some settings ↔
      ∃ given : Given, given.WrittenIn members ∧ given.withDefaults = settings := by
  simp only [ofTable?, Option.bind_eq_bind, Option.bind_eq_some_iff, Option.pure_def,
    Option.some.injEq, reads_string.setting?_eq_some_iff, reads_strings.setting?_eq_some_iff]
  constructor
  · rintro ⟨_, ⟨address, haddress, rfl⟩, _, ⟨directory, hdirectory, rfl⟩, _,
      ⟨profiles, hprofiles, rfl⟩, _, ⟨filter, hfilter, rfl⟩, rfl⟩
    exact ⟨⟨address, directory, profiles, filter⟩, ⟨haddress, hdirectory, hprofiles, hfilter⟩, rfl⟩
  · rintro ⟨given, hgiven, rfl⟩
    exact ⟨_, ⟨_, hgiven.busAddress, rfl⟩, _, ⟨_, hgiven.directory, rfl⟩, _,
      ⟨_, hgiven.profiles, rfl⟩, _, ⟨_, hgiven.filter, rfl⟩, rfl⟩

theorem Given.WrittenIn.unique {given other : Given} {members : Toml.Members}
    (h : given.WrittenIn members) (h' : other.WrittenIn members) : given = other := by
  obtain ⟨address, directory, profiles, filter⟩ := given
  obtain ⟨address', directory', profiles', filter'⟩ := other
  obtain rfl := h.busAddress.unique reads_string h'.busAddress
  obtain rfl := h.directory.unique reads_string h'.directory
  obtain rfl := h.profiles.unique reads_strings h'.profiles
  obtain rfl := h.filter.unique reads_string h'.filter
  rfl

theorem Given.WrittenIn.not_refused {given : Given} {members : Toml.Members}
    (h : given.WrittenIn members) : ¬ Refused members := by
  rintro (hrefused | hrefused | hrefused | hrefused)
  · exact h.busAddress.not_refused hrefused
  · exact h.directory.not_refused hrefused
  · exact h.profiles.not_refused hrefused
  · exact h.filter.not_refused hrefused

/-- A table gives settings or is not one of settings. -/
theorem written_or_refused (members : Toml.Members) :
    (∃ given : Given, given.WrittenIn members) ∨ Refused members := by
  rcases reads_string.given_or_refused members "bus" "address" with ⟨address, haddress⟩ | h
  · rcases reads_string.given_or_refused members "entities" "dir" with ⟨directory, hdirectory⟩ | h
    · rcases reads_strings.given_or_refused members "profiles" "active" with
        ⟨profiles, hprofiles⟩ | h
      · rcases reads_string.given_or_refused members "logging" "filter" with ⟨filter, hfilter⟩ | h
        · exact .inl ⟨⟨address, directory, profiles, filter⟩,
            ⟨haddress, hdirectory, hprofiles, hfilter⟩⟩
        · exact .inr (.inr (.inr (.inr h)))
      · exact .inr (.inr (.inr (.inl h)))
    · exact .inr (.inr (.inl h))
  · exact .inr (.inl h)

/-- A file gives one thing only. -/
theorem Gives.unique {file : FileRead} {given other : Given} (h : Gives file given)
    (h' : Gives file other) : given = other := by
  cases h with
  | absent =>
    cases h'
    rfl
  | text hread hgiven =>
    cases h' with
    | text hread' hgiven' =>
      cases hread'.symm.trans hread
      exact hgiven.unique hgiven'

theorem gives_or_fails : ∀ file : FileRead,
    (∃ given, Gives file given) ∨ (∃ reason, file = .unreadable reason) ∨
      ∃ content, file = .text content ∧ Malformed content
  | .absent => .inl ⟨_, .absent⟩
  | .unreadable reason => .inr (.inl ⟨reason, rfl⟩)
  | .text content => by
    cases hread : Toml.read? content.toList with
    | none => exact .inr (.inr ⟨content, rfl, .notToml hread⟩)
    | some members =>
      rcases written_or_refused members with ⟨given, hgiven⟩ | hrefused
      · exact .inl ⟨given, .text hread hgiven⟩
      · exact .inr (.inr ⟨content, rfl, .notSettings hread hrefused⟩)

theorem ofFile_of_gives {file : FileRead} {given : Given} (h : Gives file given) :
    ofFile file = .ok given.withDefaults := by
  cases h with
  | absent => rfl
  | text hread hgiven =>
    rw [ofFile, hread, Option.bind_eq_bind, Option.bind_some,
      ofTable?_eq_some_iff.mpr ⟨_, hgiven, rfl⟩]

theorem ofFile_of_malformed {content : String} (h : Malformed content) :
    ofFile (.text content) = .error (.malformed content) := by
  rw [ofFile]
  cases h with
  | notToml hread =>
    rw [hread]
    rfl
  | @notSettings members hread hrefused =>
    have hnone : ofTable? members = none := by
      refine Option.eq_none_iff_forall_ne_some.mpr fun settings hsettings => ?_
      obtain ⟨given, hgiven, -⟩ := ofTable?_eq_some_iff.mp hsettings
      exact hgiven.not_refused hrefused
    rw [hread, Option.bind_eq_bind, Option.bind_some, hnone]

/-! ## 4. Writing a file -/

section Writing

variable {α : Type} (name key : String) (text : α → List Char) (write : α → Toml)

/-- A setting as a file writes it: a header with one line, or with none if it is left out. -/
def writtenBlock (given : Option α) : Toml.Block :=
  ⟨name, (given.map fun x => ⟨key, text x, write x⟩).toList⟩

variable {name key text write} {members : Toml.Members} {given : Option α}

theorem readable_writtenBlock (hname : Toml.IsBareName name) (hkey : Toml.IsBareName key)
    (htext : ∀ x, Toml.Spells Toml.maxDepth (text x) (write x)) :
    (writtenBlock name key text write given).Readable where
  name := hname
  lines line hline := by
    obtain ⟨x, -, rfl⟩ := Option.map_eq_some_iff.mp (Option.mem_toList.mp hline)
    exact ⟨hkey, htext x⟩
  nodup := by cases given <;> simp [writtenBlock]

/-- A setting that is written is given. -/
theorem settingGiven_writtenBlock
    (h : List.lookup name members = some (writtenBlock name key text write given).member.2) :
    SettingGiven write key members name given := by
  refine .present h ?_
  cases given with
  | none => exact .tableWithout rfl
  | some x => exact .table (List.lookup_cons_self)

end Writing

/-- A list of strings as it is written. -/
def stringsText (ss : List String) : List Char := Toml.arrayText (ss.map Toml.stringText)

theorem spells_stringsText (depth : Nat) (ss : List String) :
    Toml.Spells (depth + 1) (stringsText ss) (writeStrings ss) := by
  refine Toml.spells_arrayText (List.forall₂_map_left_iff.mpr (List.forall₂_map_right_iff.mpr ?_))
  exact List.forall₂_same.mpr fun s _ => Toml.spells_stringText depth s

namespace Given

/-- The parts of a file, one for each setting. -/
def blocks (given : Given) : List Toml.Block :=
  [writtenBlock "bus" "address" Toml.stringText .string given.busAddress,
    writtenBlock "entities" "dir" Toml.stringText .string given.directory,
    writtenBlock "profiles" "active" stringsText writeStrings given.profiles,
    writtenBlock "logging" "filter" Toml.stringText .string given.filter]

/-- The text of a file that gives the settings. -/
def text (given : Given) : String := .ofList (given.blocks.flatMap Toml.Block.chars)

theorem readable_of_mem_blocks (given : Given) : ∀ block ∈ given.blocks, block.Readable := by
  have hstring := Toml.spells_stringText Toml.maxDepth
  simp only [blocks, List.mem_cons, List.not_mem_nil, or_false]
  rintro block (rfl | rfl | rfl | rfl)
  · exact readable_writtenBlock (by decide) (by decide) hstring
  · exact readable_writtenBlock (by decide) (by decide) hstring
  · exact readable_writtenBlock (by decide) (by decide) (spells_stringsText _)
  · exact readable_writtenBlock (by decide) (by decide) hstring

theorem nodup_blocks (given : Given) : (given.blocks.map Toml.Block.name).Nodup := by
  have hnames : given.blocks.map Toml.Block.name = ["bus", "entities", "profiles", "logging"] := rfl
  rw [hnames]
  decide

end Given

/-- **A file can give any of the settings and leave out the others.** -/
theorem gives_text (given : Given) : Gives (.text given.text) given := by
  have hread : Toml.read? given.text.toList = some (given.blocks.map Toml.Block.member) := by
    rw [Given.text, String.toList_ofList]
    exact Toml.read?_blocks given.readable_of_mem_blocks given.nodup_blocks
  exact .text hread
    { busAddress := settingGiven_writtenBlock rfl
      directory := settingGiven_writtenBlock rfl
      profiles := settingGiven_writtenBlock rfl
      filter := settingGiven_writtenBlock rfl }

/-! ## 5. The layers -/

section Layers

variable (value : String → Variable) {given other : Given}

/-- The settings by layers: for each the first that says something, the variables before the
file and the file before the default. -/
def layered (given : Given) : Settings where
  busAddress := ((value "FANCTL_BUS_ADDRESS").text?.or given.busAddress).getD
    "unix:path=/var/run/dbus/system_bus_socket"
  directory := ((value "FANCTL_CONFIG_DIR").text?.or given.directory).getD "/usr/share/fanctl"
  profiles := (((value "FANCTL_PROFILES").text?.map profileList).or given.profiles).getD []
  filter := ((value "RUST_LOG").text?.or ((value "FANCTL_LOG").text?.or given.filter)).getD
    "fanctld=info,fanctl_app=info"

/-- **Variables over a file whose gaps are filled** are the layers one by one. -/
theorem override_withDefaults (given : Given) :
    given.withDefaults.override (.ofVariables value) = layered value given := by
  simp only [override, Given.withDefaults, layered, Environment.ofVariables, Option.getD_or]
  rfl

/-- A list of profiles that is written in a variable has no empty name in it. -/
theorem empty_notMem_profileList (s : String) : "" ∉ profileList s := by
  intro h
  obtain ⟨word, hword, hempty⟩ := List.mem_map.mp h
  have hne : (!word.isEmpty) = true := (List.mem_filter.mp hword).2
  have hnil : word = [] := String.ofList_eq_empty_iff.mp hempty
  rw [hnil] at hne
  cases hne

/-- What a file says of a setting that a variable decides does not matter. -/
theorem layered_congr
    (hbus : (value "FANCTL_BUS_ADDRESS").text? = none → given.busAddress = other.busAddress)
    (hdir : (value "FANCTL_CONFIG_DIR").text? = none → given.directory = other.directory)
    (hprofiles : (value "FANCTL_PROFILES").text? = none → given.profiles = other.profiles)
    (hfilter : (value "RUST_LOG").text? = none → (value "FANCTL_LOG").text? = none →
      given.filter = other.filter) :
    layered value given = layered value other := by
  have hor {α : Type} {upper x y : Option α} (h : upper = none → x = y) :
      upper.or x = upper.or y := by
    cases upper with
    | none => exact congrArg _ (h rfl)
    | some s => rfl
  have hlist (h : (value "FANCTL_PROFILES").text?.map profileList = none) :
      given.profiles = other.profiles := hprofiles (Option.map_eq_none_iff.mp h)
  rw [layered, layered, hor hbus, hor hdir, hor hlist, hor fun h => hor (hfilter h)]

end Layers

/-! ## 6. The checks and the result -/

/-- Of the checks the first that fails decides. -/
theorem checked_eq (settings : Settings) :
    settings.checked =
      if settings.busAddress = "" then .error (.invalid .emptyAddress)
      else if settings.directory = "" then .error (.invalid .emptyDirectory)
      else if "" ∈ settings.profiles then .error (.invalid .emptyProfile)
      else .ok settings := by
  rw [checked, fault?]
  by_cases hbus : settings.busAddress = ""
  · rw [if_pos hbus, if_pos hbus]
  rw [if_neg hbus, if_neg hbus]
  by_cases hdir : settings.directory = ""
  · rw [if_pos hdir, if_pos hdir]
  rw [if_neg hdir, if_neg hdir]
  by_cases hprofiles : "" ∈ settings.profiles
  · rw [if_pos (List.contains_iff_mem.mpr hprofiles), if_pos hprofiles]
  · rw [if_neg fun h => hprofiles (List.contains_iff_mem.mp h), if_neg hprofiles]

theorem load_of_gives {file : FileRead} {given : Given} (h : Gives file given)
    (value : String → Variable) :
    load file (.ofVariables value) = (layered value given).checked := by
  rw [load, ofFile_of_gives h, ← override_withDefaults]
  rfl

/-- **Loading by layers**, for every file and whatever the variables are set to.

A file that is unreadable or malformed decides alone.  Otherwise each setting is the variable's,
the file's or the default, in this order, and the result is checked for an empty address, an
empty directory and empty profile names, in this order.  So what the file says of an overridden
setting does not matter, an override of the profiles names none that is empty, and nothing saves
an address or a directory overridden by an empty text. -/
theorem load_layered (file : FileRead) (value : String → Variable) :
    -- what a file gives
    ((∃ given, Gives file given) ∨ (∃ reason, file = .unreadable reason) ∨
      ∃ content, file = .text content ∧ Malformed content) ∧
    (∀ given other, Gives file given → Gives file other → given = other) ∧
    (∀ given : Given, Gives (.text given.text) given) ∧
    -- a file that decides alone
    (∀ reason, file = .unreadable reason →
      load file (.ofVariables value) = .error (.unreadable reason)) ∧
    (∀ content, file = .text content → Malformed content →
      load file (.ofVariables value) = .error (.malformed content)) ∧
    -- the layers and the checks
    (∀ given, Gives file given →
      load file (.ofVariables value) =
        let settings := layered value given
        if settings.busAddress = "" then .error (.invalid .emptyAddress)
        else if settings.directory = "" then .error (.invalid .emptyDirectory)
        else if "" ∈ settings.profiles then .error (.invalid .emptyProfile)
        else .ok settings) ∧
    (∀ given other : Given,
      ((value "FANCTL_BUS_ADDRESS").text? = none → given.busAddress = other.busAddress) →
      ((value "FANCTL_CONFIG_DIR").text? = none → given.directory = other.directory) →
      ((value "FANCTL_PROFILES").text? = none → given.profiles = other.profiles) →
      ((value "RUST_LOG").text? = none → (value "FANCTL_LOG").text? = none →
        given.filter = other.filter) →
      layered value given = layered value other) ∧
    (∀ given s, value "FANCTL_PROFILES" = .text s → "" ∉ (layered value given).profiles) ∧
    (∀ given, Gives file given → value "FANCTL_BUS_ADDRESS" = .text "" →
      load file (.ofVariables value) = .error (.invalid .emptyAddress)) ∧
    ∀ given, Gives file given → value "FANCTL_CONFIG_DIR" = .text "" →
      load file (.ofVariables value) = .error (.invalid .emptyAddress) ∨
      load file (.ofVariables value) = .error (.invalid .emptyDirectory) := by
  refine ⟨gives_or_fails file, fun given other => Gives.unique, gives_text,
    ?_, ?_, ?_, ?_, ?_, ?_, ?_⟩
  · rintro reason rfl
    rfl
  · rintro content rfl h
    rw [load, ofFile_of_malformed h]
    rfl
  · intro given h
    rw [load_of_gives h, checked_eq]
  · exact fun given other => layered_congr value
  · intro given s hprofiles
    have hlist : (layered value given).profiles = profileList s := by
      simp [layered, hprofiles, Variable.text?]
    rw [hlist]
    exact empty_notMem_profileList s
  · intro given h hbus
    have hempty : (layered value given).busAddress = "" := by simp [layered, hbus, Variable.text?]
    rw [load_of_gives h, checked_eq, if_pos hempty]
  · intro given h hdir
    have hempty : (layered value given).directory = "" := by simp [layered, hdir, Variable.text?]
    rw [load_of_gives h, checked_eq, if_pos hempty]
    split
    · exact .inl rfl
    · exact .inr rfl

/-- An override mends a bad value in the file. -/
example : load (.text "[bus]\naddress = ''\n") (.ofVariables fun name =>
    if name = "FANCTL_BUS_ADDRESS" then .text "unix:a" else .unset) =
    .ok { busAddress := "unix:a" } := rfl

end Cooling.Settings
