import Cooling.Proofs.Entity.Events
import Cooling.Proofs.Inventory.Checks
import Cooling.Proofs.Inventory.Contents
import Cooling.Proofs.Logged

/-!
# Loading the inventory

The inventory of a directory is loaded in seven steps: three files, then three scans for
repeated names and one for unknown groups.  This module puts the steps together.

* `value_load_eq_ok_iff`: there is an inventory exactly if the files list it and it is consistent;
* `writes_load`: what is reported on the way;
* `load_inventory`: what may be relied on once the inventory is loaded;
* `load_fails_with_first_fault`: otherwise the first of seventeen faults is reported, every
  fault of a file before any repeated name and those before unknown groups.
-/

namespace Cooling.Inventory

variable {files : Files} {dir : String} {bus : Bus.Handle} {inventory : Inventory}

/-! ## 1. The steps -/

/-- The files of a directory list the entities of the inventory. -/
structure Configures (files : Files) (dir : String) (bus : Bus.Handle)
    (inventory : Inventory) : Prop where
  fans : Lists (Fan.ofJson bus) (files (Files.path dir Fan.fileName)) inventory.fans
  groups : ListsIfPresent Group.ofJson (files (Files.path dir Group.fileName)) inventory.groups
  events : ListsIfPresent Event.ofJson (files (Files.path dir Event.fileName)) inventory.events

/-- Names are distinct within each kind, and events name groups that are there. -/
structure Consistent (inventory : Inventory) : Prop where
  fans : (inventory.fans.map (·.name)).Nodup
  groups : (inventory.groups.map (·.name)).Nodup
  events : (inventory.events.map (·.name)).Nodup
  references : ∀ event ∈ inventory.events, ∀ name ∈ event.groups,
    name ∈ inventory.groups.map (·.name)

/-- A directory configures one inventory only. -/
theorem Configures.unique {other : Inventory} (h : Configures files dir bus inventory)
    (h' : Configures files dir bus other) : inventory = other := by
  obtain ⟨fans, groups, events⟩ := inventory
  obtain ⟨fans', groups', events'⟩ := other
  cases h.fans.unique h'.fans
  cases h.groups.unique h'.groups
  cases h.events.unique h'.events
  rfl

/-- What loading comes to as a sequence of steps, one for each file and each check. -/
theorem value_load (files : Files) (dir : String) (bus : Bus.Handle) :
    (load files dir bus).run.value = do
      let fansPath := Files.path dir Fan.fileName
      let groupsPath := Files.path dir Group.fileName
      let eventsPath := Files.path dir Event.fileName
      let fans ← listed fansPath (Fan.ofJson bus) (files fansPath)
      let groups ← listedIfPresent groupsPath Group.ofJson (files groupsPath)
      let events ← listedIfPresent eventsPath Event.ofJson (files eventsPath)
      checkUnique fansPath (fans.map (·.name))
      checkUnique groupsPath (groups.map (·.name))
      checkUnique eventsPath (events.map (·.name))
      checkGroups ⟨fans, groups, events⟩
      return ⟨fans, groups, events⟩ := by
  simp only [load, listed, requiredItems, listedIfPresent, bind_assoc, Attempt.value_bind]
  congr 1
  funext items
  cases items with
  | none => rfl
  | some items =>
    simp only [pure_bind, Attempt.value_bind, Attempt.value_liftExcept, Attempt.value_lift,
      Attempt.value_pure]
    rfl

/-- **There is an inventory exactly if the directory configures it consistently.** -/
theorem value_load_eq_ok_iff :
    (load files dir bus).run.value = .ok inventory ↔
      Configures files dir bus inventory ∧ Consistent inventory := by
  simp only [value_load, bind_eq_ok_iff, listed_eq_ok_iff, listedIfPresent_eq_ok_iff,
    checkUnique_eq_ok_iff, checkGroups_eq_ok_iff]
  constructor
  · rintro ⟨fans, hfans, groups, hgroups, events, hevents, _, hfans', _, hgroups', _, hevents',
      _, hreferences, h⟩
    cases h
    exact ⟨⟨hfans, hgroups, hevents⟩, ⟨hfans', hgroups', hevents', hreferences⟩⟩
  · rintro ⟨hfiles, hchecks⟩
    exact ⟨_, hfiles.fans, _, hfiles.groups, _, hfiles.events, (), hchecks.fans, (),
      hchecks.groups, (), hchecks.events, (), hchecks.references, rfl⟩

/-- Loading reports which files are not there and how much there is, and nothing else. -/
theorem writes_load (files : Files) (dir : String) (bus : Bus.Handle) :
    Attempt.Writes (fun r => (∃ path, files path = .absent ∧ r = absentRecord path) ∨
      ∃ inventory, r = loadedRecord dir inventory) (load files dir bus) := by
  have hitems (path : String) : Attempt.Writes (fun r =>
      (∃ path, files path = .absent ∧ r = absentRecord path) ∨
        ∃ inventory, r = loadedRecord dir inventory) (items? path (files path)) := by
    intro r hr
    rw [log_items?] at hr
    split at hr
    · rename_i habsent
      exact .inl ⟨path, habsent, List.mem_singleton.mp hr⟩
    · cases hr
  refine (hitems _).bind fun items => ?_
  cases items with
  | none => exact Attempt.writes_throw _
  | some items =>
    refine (Attempt.writes_liftExcept _).bind fun fans => ?_
    refine (hitems _).bind fun items => (Attempt.writes_liftExcept _).bind fun groups => ?_
    refine (hitems _).bind fun items => (Attempt.writes_liftExcept _).bind fun events => ?_
    refine (Attempt.writes_liftExcept _).bind fun _ => ?_
    refine (Attempt.writes_liftExcept _).bind fun _ => ?_
    refine (Attempt.writes_liftExcept _).bind fun _ => ?_
    refine (Attempt.writes_liftExcept _).bind fun _ => ?_
    refine (Attempt.writes_lift fun r hr => .inr ?_).bind fun _ => Attempt.writes_pure _
    exact ⟨⟨fans, groups, events⟩, List.mem_singleton.mp hr⟩

/-! ## 2. What is there after loading -/

/-- A name of an inventory's groups is the name of exactly one. -/
theorem exists_filter_eq_singleton (h : Consistent inventory) {name : String}
    (hname : name ∈ inventory.groups.map (·.name)) :
    ∃ group, inventory.groups.filter (·.name == name) = [group] := by
  cases hgroup : inventory.group? name with
  | none => exact absurd hname (group?_eq_none_iff.mp hgroup)
  | some group => exact ⟨group, (group?_eq_some_iff_filter h.groups).mp hgroup⟩

/-- What is true of everything an item can be read as is true of what a file lists. -/
theorem Lists.forall_mem {α : Type} {ofJson : Json → Except EntityError α} {content : FileRead}
    {found : List α} (h : Lists ofJson content found) {P : α → Prop}
    (hP : ∀ j a, ofJson j = .ok a → P a) : ∀ a ∈ found, P a := by
  obtain ⟨items, -, hfound⟩ := h
  induction hfound with
  | nil => exact nofun
  | cons hj _ ih => exact List.forall_mem_cons.mpr ⟨hP _ _ hj, ih⟩

theorem ListsIfPresent.forall_mem {α : Type} {ofJson : Json → Except EntityError α}
    {content : FileRead} {found : List α} (h : ListsIfPresent ofJson content found)
    {P : α → Prop} (hP : ∀ j a, ofJson j = .ok a → P a) : ∀ a ∈ found, P a := by
  rcases h with ⟨-, rfl⟩ | h
  · exact nofun
  · exact h.forall_mem hP

/-- Every entity that files list has a name. -/
theorem Configures.name_ne_empty (h : Configures files dir bus inventory) :
    (∀ fan ∈ inventory.fans, fan.name ≠ "") ∧ (∀ group ∈ inventory.groups, group.name ≠ "") ∧
      ∀ event ∈ inventory.events, event.name ≠ "" := by
  refine ⟨h.fans.forall_mem fun j fan hj => ?_, h.groups.forall_mem fun j group hj => ?_,
    h.events.forall_mem fun j event hj => ?_⟩
  · exact (Fan.ofJson_eq_ok_iff.mp hj).1.name_ne_empty
  · exact (Group.ofJson_eq_ok_iff.mp hj).name_ne_empty
  · exact (Event.ofJson_eq_ok_iff.mp hj).name_ne_empty

/-- Every fan that files list is driven on the given bus. -/
theorem Configures.bus_eq (h : Configures files dir bus inventory) :
    ∀ fan ∈ inventory.fans, fan.bus = bus :=
  h.fans.forall_mem fun _ _ hj => (Fan.ofJson_eq_ok_iff.mp hj).2

/-- **What may be relied on once the inventory is loaded.**  It is what the files list, no name
is empty or stands twice among the entities of a kind, every fan has the given connection,
every group that an event names is there once, and looking up a name finds the one group that
has it or nothing. -/
theorem load_inventory (h : (load files dir bus).run.value = .ok inventory) :
    Configures files dir bus inventory ∧
    (∀ names ∈ [inventory.fans.map (·.name), inventory.groups.map (·.name),
        inventory.events.map (·.name)], names.Nodup ∧ ∀ name ∈ names, name ≠ "") ∧
    (∀ fan ∈ inventory.fans, fan.bus.sameConnection bus = true) ∧
    (∀ event ∈ inventory.events, ∀ name ∈ event.groups,
      ∃ group, inventory.groups.filter (·.name == name) = [group]) ∧
    (∀ name group, inventory.group? name = some group ↔
      inventory.groups.filter (·.name == name) = [group]) ∧
    ∀ name, inventory.group? name = none ↔ ∀ group ∈ inventory.groups, group.name ≠ name := by
  obtain ⟨hfiles, hchecks⟩ := value_load_eq_ok_iff.mp h
  refine ⟨hfiles, ?_, ?_, ?_, ?_, ?_⟩
  · obtain ⟨hfans, hgroups, hevents⟩ := hfiles.name_ne_empty
    simp only [List.forall_mem_cons, List.not_mem_nil, false_implies, implies_true, and_true,
      List.forall_mem_map]
    exact ⟨⟨hchecks.fans, hfans⟩, ⟨hchecks.groups, hgroups⟩, hchecks.events, hevents⟩
  · intro fan hfan
    rw [hfiles.bus_eq fan hfan]
    exact beq_self_eq_true _
  · exact fun event hevent name hname =>
      exists_filter_eq_singleton hchecks (hchecks.references event hevent name hname)
  · exact fun name group => group?_eq_some_iff_filter hchecks.groups
  · intro name
    rw [group?_eq_none_iff, List.mem_map]
    exact ⟨fun h group hgroup hname => h ⟨group, hgroup, hname⟩,
      fun h ⟨group, hgroup, hname⟩ => h group hgroup hname⟩

/-- A directory with one entity of each kind. -/
def sampleFiles : Files := fun path =>
  if path = "conf/fans.json" then
    .text ("[\x7b\"name\": \"fan0\", \"zone\": \"0\", \"sensors\": [\"fan0_0\"], " ++
      "\"interface\": \"FanSpeed\"\x7d]")
  else if path = "conf/groups.json" then
    .text ("[\x7b\"name\": \"inlets\", \"members\": [\"/inlet0\"], \"interface\": \"Value\", " ++
      "\"property\": \"Value\"\x7d]")
  else if path = "conf/events.json" then
    .text ("[\x7b\"name\": \"hot\", \"groups\": [\"inlets\"], " ++
      "\"actions\": [\x7b\"name\": \"net_target_increase\"\x7d]\x7d]")
  else .absent

/-- The entities of that directory. -/
def sampleInventory (bus : Bus.Handle) : Inventory where
  fans := [⟨⟨"fan0", []⟩, "0", ["fan0_0"], "FanSpeed", bus⟩]
  groups := [⟨⟨"inlets", []⟩, ["/inlet0"], "Value", "Value"⟩]
  events := [⟨⟨"hot", []⟩, ["inlets"],
    [⟨"net_target_increase", .object [("name", .string "net_target_increase")]⟩]⟩]

theorem load_sample (bus : Bus.Handle) :
    (load sampleFiles "conf" bus).run.value = .ok (sampleInventory bus) := by
  rfl

/-- Such an inventory is loaded, and what it may be relied on for is not empty talk: there is a
fan, a group, and an event that names it. -/
theorem load_inventory_sample :
    (load sampleFiles "conf" ⟨"unix:", 0⟩).run.value = .ok (sampleInventory ⟨"unix:", 0⟩) ∧
    Configures sampleFiles "conf" ⟨"unix:", 0⟩ (sampleInventory ⟨"unix:", 0⟩) ∧
    ∀ event ∈ (sampleInventory ⟨"unix:", 0⟩).events, ∀ name ∈ event.groups,
      ∃ group, (sampleInventory ⟨"unix:", 0⟩).groups.filter (·.name == name) = [group] := by
  have h := load_sample ⟨"unix:", 0⟩
  obtain ⟨hconfigures, -, -, hreferences, -⟩ := load_inventory h
  exact ⟨h, hconfigures, hreferences⟩

/-! ## 3. The first fault -/

/-- Everything that can be wrong with a directory, in the order in which it counts. -/
def faults (files : Files) (dir : String) (bus : Bus.Handle) : List (LoadError → Prop) :=
  let fansPath := Files.path dir Fan.fileName
  let groupsPath := Files.path dir Group.fileName
  let eventsPath := Files.path dir Event.fileName
  let listsFans := Lists (Fan.ofJson bus) (files fansPath)
  let listsGroups := ListsIfPresent Group.ofJson (files groupsPath)
  let listsEvents := ListsIfPresent Event.ofJson (files eventsPath)
  missing fansPath (files fansPath) :: fileFaults fansPath (Fan.ofJson bus) (files fansPath) ++
    (fileFaults groupsPath Group.ofJson (files groupsPath) ++
    (fileFaults eventsPath Event.ofJson (files eventsPath) ++
    [fun e => ∃ fans, listsFans fans ∧ repeatedName fansPath (fans.map (·.name)) e,
      fun e => ∃ groups, listsGroups groups ∧ repeatedName groupsPath (groups.map (·.name)) e,
      fun e => ∃ events, listsEvents events ∧ repeatedName eventsPath (events.map (·.name)) e,
      fun e => ∃ groups, listsGroups groups ∧ ∃ events, listsEvents events ∧
        unknownGroup groups events e]))

/-- The faults decide what loading comes to, each group of them one step of it. -/
theorem decides_load (files : Files) (dir : String) (bus : Bus.Handle) :
    Decides (faults files dir bus) (load files dir bus).run.value := by
  rw [value_load]
  refine decides_listed.bind fun fans hfans => ?_
  refine decides_listedIfPresent.bind fun groups hgroups => ?_
  refine decides_listedIfPresent.bind fun events hevents => ?_
  rw [listed_eq_ok_iff] at hfans
  rw [listedIfPresent_eq_ok_iff] at hgroups hevents
  -- the checks are about what was read, the conditions about what the files list
  refine .cons (.of_unique hfans (fun _ h => h.unique hfans) decides_checkUnique) fun _ _ => ?_
  refine .cons (.of_unique hgroups (fun _ h => h.unique hgroups) decides_checkUnique) fun _ _ => ?_
  refine .cons (.of_unique hevents (fun _ h => h.unique hevents) decides_checkUnique) fun _ _ => ?_
  refine .cons (.of_unique hgroups (fun _ h => h.unique hgroups) ?_) fun _ _ => .ok _
  exact .of_unique hevents (fun _ h => h.unique hevents) decides_checkGroups

/-- **Loading fails exactly if one of the faults is there**, and with the first one. -/
theorem load_fails_with_first_fault (files : Files) (dir : String) (bus : Bus.Handle) :
    ((∃ e, (load files dir bus).run.value = .error e) ↔
      ∃ fault ∈ faults files dir bus, ∃ e, fault e) ∧
    ∀ e, (load files dir bus).run.value = .error e ↔
      First (fun fault e => fault e) (faults files dir bus) e := by
  have hdecides := decides_load files dir bus
  refine ⟨?_, hdecides⟩
  rw [← exists_first]
  exact exists_congr hdecides

end Cooling.Inventory
