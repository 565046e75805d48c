import Cooling.Proofs.Startup
import Cooling.Proofs.Text.Bytes
import Mathlib.Algebra.Ring.Nat
import Mathlib.Data.List.Nodup

/-!
# The zones of the active fans

The zone table is filled fan by fan: each appends its name to the list of its zone.  What one
step keeps (`Groups.update`) is that a zone has a list exactly if some fan so far is in it, and
then those fans' names in order, and that all lists together are all the names.  From this and
the order of the table everything else follows, as the names of an inventory are distinct.

* `groups_zoneTable`: what the table of any list of fans holds;
* `warnings_written`: a service that has an inventory warns of its zones only;
* `zones_partition_fans`: the table of the active fans of an inventory.
-/

namespace Cooling

/-! ## 1. Filling the table -/

/-- The names of the fans in a zone, in order. -/
def namesIn (fans : List Fan) (zone : String) : List String :=
  (fans.filter (·.zone == zone)).map (·.name)

/-- A table holds the fans by zone: the list of each zone is that of its fans' names, there is
none without fans, and together the lists are all the names. -/
structure Groups (zones : Table (List String)) (fans : List Fan) : Prop where
  listed : ∀ zone names, zones.get? zone = some names ↔ names = namesIn fans zone ∧ names ≠ []
  all : (zones.entries.flatMap (·.2)).Perm (fans.map (·.name))

variable {zones : Table (List String)} {fans : List Fan}

theorem namesIn_concat (fans : List Fan) (fan : Fan) (zone : String) :
    namesIn (fans ++ [fan]) zone =
      if fan.zone = zone then namesIn fans zone ++ [fan.name] else namesIn fans zone := by
  rw [namesIn, List.filter_append, List.map_append]
  by_cases h : fan.zone = zone
  · rw [if_pos h, List.filter_cons_of_pos (by simpa using h)]
    rfl
  · rw [if_neg h, List.filter_cons_of_neg (by simpa using h)]
    exact List.append_nil _

theorem namesIn_eq_nil_iff {zone : String} :
    namesIn fans zone = [] ↔ ∀ fan ∈ fans, fan.zone ≠ zone := by
  simp [namesIn, List.filter_eq_nil_iff]

/-- Appending to the list under a key adds to all lists together. -/
theorem Table.perm_flatMap_update {α : Type} (t : Table (List α)) (key : String) (x : α) :
    ((t.update key fun xs => xs.getD [] ++ [x]).entries.flatMap (·.2)).Perm
      (t.entries.flatMap (·.2) ++ [x]) := by
  obtain ⟨entries, h⟩ := t
  simp only [update]
  clear h
  induction entries with
  | nil => exact .refl _
  | cons e rest ih =>
    obtain ⟨k, xs⟩ := e
    rw [updateEntries]
    split
    · exact @List.perm_append_comm _ [x] _
    · split
      · simp only [List.flatMap_cons, Option.getD_some, List.append_assoc]
        exact List.Perm.append_left xs List.perm_append_comm
      · simp only [List.flatMap_cons, List.append_assoc]
        exact List.Perm.append_left xs ih

theorem Groups.getD_get? (h : Groups zones fans) (zone : String) :
    (zones.get? zone).getD [] = namesIn fans zone := by
  cases hget : zones.get? zone with
  | some names => exact ((h.listed zone names).mp hget).1
  | none =>
    refine Decidable.byContradiction fun hne => ?_
    have hsome := (h.listed zone _).mpr ⟨rfl, Ne.symm hne⟩
    cases hget.symm.trans hsome

theorem groups_empty : Groups .empty [] where
  listed := by simp [namesIn]
  all := .refl _

/-- **One more fan** is added to the end of its zone's list, and nowhere else. -/
theorem Groups.update (h : Groups zones fans) (fan : Fan) :
    Groups (zones.update fan.zone fun names => names.getD [] ++ [fan.name]) (fans ++ [fan]) where
  listed := by
    intro zone names
    rw [namesIn_concat]
    by_cases hzone : zone = fan.zone
    · subst hzone
      rw [Table.get?_update_self, h.getD_get?, if_pos rfl, Option.some.injEq, eq_comm]
      refine (and_iff_left_of_imp ?_).symm
      rintro rfl
      exact List.append_ne_nil_of_right_ne_nil _ (List.cons_ne_nil _ _)
    · rw [Table.get?_update_of_ne _ _ hzone, if_neg (Ne.symm hzone)]
      exact h.listed zone names
  all := by
    rw [List.map_append]
    exact (Table.perm_flatMap_update zones fan.zone fan.name).trans (h.all.append_right _)

/-- Fans that are added one after the other follow those that the table holds. -/
theorem Groups.foldl : ∀ (fans : List Fan) {zones : Table (List String)} {before : List Fan},
    Groups zones before →
      Groups (fans.foldl (fun zones fan =>
        zones.update fan.zone fun names => names.getD [] ++ [fan.name]) zones) (before ++ fans)
  | [], _, before, h => by rwa [List.append_nil]
  | fan :: fans, _, before, h => by
    have hrest := Groups.foldl fans (h.update fan)
    rwa [List.append_assoc] at hrest

/-- **The table of any fans** holds them by zone. -/
theorem groups_zoneTable (fans : List Fan) : Groups (zoneTable fans) fans :=
  groups_empty.foldl fans

theorem Groups.mem_keys_iff (h : Groups zones fans) {zone : String} :
    zone ∈ zones.keys ↔ ∃ fan ∈ fans, fan.zone = zone := by
  rw [← Table.contains_iff, Table.contains, Option.isSome_iff_exists]
  simp only [h.listed]
  constructor
  · rintro ⟨names, rfl, hne⟩
    simpa using mt namesIn_eq_nil_iff.mpr hne
  · rintro ⟨fan, hfan, hzone⟩
    exact ⟨_, rfl, fun hnil => namesIn_eq_nil_iff.mp hnil fan hfan hzone⟩

theorem Groups.entries_eq_nil_iff (h : Groups zones fans) : zones.entries = [] ↔ fans = [] := by
  constructor
  · intro hnil
    have hperm := h.all
    rw [hnil] at hperm
    exact List.map_eq_nil_iff.mp hperm.nil_eq.symm
  · rintro rfl
    refine List.eq_nil_iff_forall_not_mem.mpr fun e he => ?_
    have hlisted := (h.listed e.1 e.2).mp (Table.mem_entries_iff.mp he)
    exact hlisted.2 hlisted.1

/-! ## 2. Warnings -/

namespace Service

variable {file : FileRead} {env : Environment} {files : Files} {settings : Settings}
  {inventory : Inventory}

/-- The records that warn. -/
def warnings (records : List Log.Record) : List Log.Record := records.filter (·.level == .warn)

/-- An attempt warns of nothing. -/
def Calm {ε α : Type} (x : Attempt ε α) : Prop := x.Writes (·.level ≠ .warn)

theorem calm_iff {ε α : Type} {x : Attempt ε α} : Calm x ↔ warnings x.run.log = [] := by
  simp [Calm, Attempt.Writes, warnings]

theorem value_stage_eq_ok_iff {ε α : Type} {wrap : ε → StartupError} {x : Attempt ε α} {a : α} :
    (stage wrap x).run.value = .ok a ↔ x.run.value = .ok a := mapError_eq_ok_iff

theorem calm_reportAll {ε : Type} {rs : List Log.Record} (h : warnings rs = []) :
    Calm (liftM (Logged.reportAll rs) : Attempt ε Unit) := by
  rwa [calm_iff, Attempt.log_lift, Logged.log_reportAll]

/-- After an attempt that succeeds and warns of nothing, the next one does the warning. -/
theorem Calm.warnings_bind {ε α β : Type} {x : Attempt ε α} {f : α → Attempt ε β} {a : α}
    (hx : Calm x) (ha : x.run.value = .ok a) :
    warnings (x >>= f).run.log = warnings (f a).run.log := by
  have hnil : x.run.log.filter (·.level == .warn) = [] := calm_iff.mp hx
  rw [Attempt.log_bind, ha, warnings, List.filter_append, hnil]
  rfl

theorem warnings_reportAll_bind {ε α : Type} {rs : List Log.Record}
    {f : Unit → Attempt ε α} (hf : Calm (f ())) :
    warnings ((liftM (Logged.reportAll rs) : Attempt ε Unit) >>= f).run.log = warnings rs := by
  rw [Attempt.log_bind, Attempt.log_lift, Attempt.value_lift, Logged.log_reportAll, warnings,
    List.filter_append]
  exact (congrArg _ (calm_iff.mp hf)).trans (List.append_nil _)

theorem calm_load (files : Files) (dir : String) (bus : Bus.Handle) :
    Calm (Inventory.load files dir bus) := by
  refine (Inventory.writes_load files dir bus).imp fun r hr => ?_
  rcases hr with ⟨path, -, rfl⟩ | ⟨inventory, rfl⟩ <;> exact Log.Level.noConfusion

theorem calm_ofEvent (catalogue : Catalogue) (event : Event) :
    Calm (ReadyEvent.ofEvent catalogue event) := by
  refine (ReadyEvent.writes_ofEvent catalogue event).imp fun r hr => ?_
  rcases hr with ⟨count, rfl⟩ | ⟨name, rfl⟩ <;> exact Log.Level.noConfusion

theorem calm_mapM_ofEvent (catalogue : Catalogue) (events : List Event) :
    Calm (events.mapM (ReadyEvent.ofEvent catalogue)) :=
  Attempt.writes_mapM fun event _ => calm_ofEvent catalogue event

/-- **The service warns of its zones only**, once it has settings and an inventory. -/
theorem warnings_written (hsettings : Settings.load file env = .ok settings)
    (hinventory : (Inventory.load files settings.directory (handle settings)).run.value =
      .ok inventory) :
    warnings (written file env files) = warnings
      (zoneRecords settings (zoneTable (inventory.activeFans settings.activeProfiles))) := by
  have hstarting : Calm (liftM (Logged.report (record .info "starting fanctld v0.1.0")) :
      Attempt StartupError Unit) := calm_reportAll rfl
  have hinit : Calm (stage .catalogue (ExceptT.mk ((·.1) <$> ({} : Shared).init))) :=
    writes_stage (calm_iff.mpr rfl)
  have hcatalogue : (stage .catalogue (ExceptT.mk ((·.1) <$> ({} : Shared).init))).run.value =
      .ok ⟨0, builtInCatalogue⟩ := value_stage_eq_ok_iff.mpr value_init
  have hevents (events : List ReadyEvent) : warnings (events.map eventRecord) = [] := by
    simp [warnings, eventRecord, record]
  rw [written, hsettings]
  show warnings (start settings files).run.log = _
  rw [start, hstarting.warnings_bind rfl, hinit.warnings_bind hcatalogue]
  have hload : Calm (stage (.inventory settings.directory)
      (Inventory.load files settings.directory (handle settings))) :=
    writes_stage (calm_load _ _ _)
  refine (hload.warnings_bind (value_stage_eq_ok_iff.mpr hinventory)).trans ?_
  -- the zones are what is left to warn of: after them come the events and the end
  refine warnings_reportAll_bind ?_
  refine (writes_stage (calm_mapM_ofEvent _ _)).bind fun events => ?_
  refine (calm_reportAll (hevents events)).bind fun _ => ?_
  exact (calm_reportAll rfl).bind fun _ => Attempt.writes_pure _

/-- That there are no zones is the one thing to warn of. -/
theorem warnings_zoneRecords (settings : Settings) (zones : Table (List String)) :
    warnings (zoneRecords settings zones) =
      if zones.entries.isEmpty then
        [record .warn "no fan is active" [.plain "profiles" (Text.quotedList settings.profiles)]]
      else [] := by
  rw [zoneRecords]
  split
  · rfl
  · refine List.filter_eq_nil_iff.mpr fun r hr => ?_
    obtain ⟨⟨zone, fans⟩, -, rfl⟩ := List.mem_map.mp hr
    exact Bool.false_ne_true

end Service

/-! ## 3. The active fans of an inventory -/

/-- A table holds the active ones of some fans by zone, each once. -/
structure Partitions (zones : Table (List String)) (fans : List Fan) (active : List String) :
    Prop where
  ascending : zones.keys.Pairwise fun a b => Text.bytes a < Text.bytes b
  keys : ∀ zone, zone ∈ zones.keys ↔
    ∃ fan ∈ fans, fan.isActive active = true ∧ fan.zone = zone
  lists : ∀ zone names, (zone, names) ∈ zones.entries → names ≠ [] ∧
    names = (fans.filter fun fan => fan.zone == zone && fan.isActive active).map (·.name)
  once : ∀ fan ∈ fans, (zones.entries.flatMap (·.2)).count fan.name =
    if fan.isActive active then 1 else 0
  known : ∀ name ∈ zones.entries.flatMap (·.2),
    ∃ fan ∈ fans, fan.isActive active = true ∧ fan.name = name
  lengths : (zones.entries.map (·.2.length)).sum = (fans.filter (·.isActive active)).length
  none : zones.entries = [] ↔ ∀ fan ∈ fans, fan.isActive active = false

/-- With distinct names a name stands among those of the active fans once if its fan is one. -/
theorem count_name_filter {fans : List Fan} (hnodup : (fans.map (·.name)).Nodup) {fan : Fan}
    (hfan : fan ∈ fans) (p : Fan → Bool) :
    ((fans.filter p).map (·.name)).count fan.name = if p fan then 1 else 0 := by
  have hsub : ((fans.filter p).map (·.name)).Sublist (fans.map (·.name)) :=
    List.filter_sublist.map _
  split
  · rename_i hp
    exact List.count_eq_one_of_mem (hnodup.sublist hsub)
      (List.mem_map_of_mem (List.mem_filter.mpr ⟨hfan, hp⟩))
  · rename_i hp
    refine List.count_eq_zero.mpr fun hmem => ?_
    obtain ⟨other, hother, hname⟩ := List.mem_map.mp hmem
    have hother := List.mem_filter.mp hother
    obtain rfl := List.inj_on_of_nodup_map hnodup hother.1 hfan hname
    exact hp hother.2

/-- What a table holds of the active ones of fans with distinct names. -/
theorem Groups.partitions {zones : Table (List String)} {fans : List Fan} {active : List String}
    (h : Groups zones (fans.filter (·.isActive active))) (hnodup : (fans.map (·.name)).Nodup) :
    Partitions zones fans active where
  ascending := zones.pairwise_keys_bytes
  keys zone := by
    rw [h.mem_keys_iff]
    simp only [List.mem_filter, and_assoc]
  lists zone names hmem := by
    obtain ⟨hnames, hne⟩ := (h.listed zone names).mp (Table.mem_entries_iff.mp hmem)
    rw [namesIn, List.filter_filter] at hnames
    exact ⟨hne, hnames⟩
  once fan hfan := by
    rw [h.all.count_eq]
    exact count_name_filter hnodup hfan _
  known name hmem := by
    obtain ⟨fan, hfan, hname⟩ := List.mem_map.mp (h.all.mem_iff.mp hmem)
    have hfan := List.mem_filter.mp hfan
    exact ⟨fan, hfan.1, hfan.2, hname⟩
  lengths := by
    have hlength := h.all.length_eq
    rwa [List.length_flatMap, List.length_map] at hlength
  none := by
    rw [h.entries_eq_nil_iff, List.filter_eq_nil_iff]
    simp

/-- **The zones of an inventory.**  For whatever profiles are active, the table of its active
fans has a list for each of their zones, in ascending order, and the lists are their names in
the order of the file: no list is empty, each active fan stands in the table once and no other
stands in it.  The service that has the inventory has this table of its own profiles, and warns
that no fan is active exactly if none is. -/
theorem zones_partition_fans {files : Files} {dir : String} {bus : Bus.Handle}
    {inventory : Inventory} (h : (Inventory.load files dir bus).run.value = .ok inventory) :
    (∀ active, Partitions (zoneTable (inventory.activeFans active)) inventory.fans active) ∧
    ∀ file env settings, Settings.load file env = .ok settings → settings.directory = dir →
      Service.handle settings = bus →
      (∀ service, Service.ready file env files = .ok service →
        service.zones = zoneTable (inventory.activeFans settings.activeProfiles)) ∧
      Service.warnings (Service.written file env files) =
        if ∀ fan ∈ inventory.fans, fan.isActive settings.activeProfiles = false then
          [Service.record .warn "no fan is active"
            [.plain "profiles" (Text.quotedList settings.profiles)]]
        else [] := by
  have hloaded := h
  rw [Inventory.value_load_eq_ok_iff] at hloaded
  have hpartitions (active : List String) :
      Partitions (zoneTable (inventory.activeFans active)) inventory.fans active :=
    (groups_zoneTable _).partitions hloaded.2.fans
  refine ⟨hpartitions, ?_⟩
  rintro file env settings hsettings rfl rfl
  constructor
  · intro service hready
    obtain ⟨hsettings', hinventory, hzones, -⟩ := Service.ready_eq_ok_iff.mp hready
    cases hsettings.symm.trans hsettings'
    cases h.symm.trans hinventory
    exact hzones
  · rw [Service.warnings_written hsettings h, Service.warnings_zoneRecords]
    exact if_congr (List.isEmpty_iff.trans (hpartitions _).none) rfl rfl

/-- A directory with three fans in two zones, one of them for water cooling only. -/
def threeFans : Files := fun path =>
  if path = "conf/fans.json" then
    .text ("[\x7b\"name\":\"a\",\"zone\":\"1\",\"sensors\":[\"a0\"],\"interface\":\"i\"\x7d," ++
      "\x7b\"name\":\"b\",\"zone\":\"0\",\"sensors\":[\"b0\"],\"interface\":\"i\"\x7d," ++
      "\x7b\"name\":\"c\",\"zone\":\"1\",\"sensors\":[\"c0\"],\"interface\":\"i\"," ++
      "\"profiles\":[\"water\"]\x7d]")
  else .absent

/-- The fans of that directory. -/
def threeFansInventory (bus : Bus.Handle) : Inventory where
  fans := [⟨⟨"a", []⟩, "1", ["a0"], "i", bus⟩, ⟨⟨"b", []⟩, "0", ["b0"], "i", bus⟩,
    ⟨⟨"c", ["water"]⟩, "1", ["c0"], "i", bus⟩]

set_option maxRecDepth 4096 in
theorem load_threeFans (bus : Bus.Handle) :
    (Inventory.load threeFans "conf" bus).run.value = .ok (threeFansInventory bus) := by
  rfl

/-- Settings for that directory with water cooling. -/
def waterSettings : Settings := { directory := "conf", profiles := ["water"] }

/-- The environment that makes them. -/
def waterEnvironment : Environment := { directory := .text "conf", profiles := .text "water" }

/-- With water cooling all three are in the table, the two of one zone keep their order, and the
service that is set up so warns of nothing. -/
theorem zones_partition_threeFans :
    (Inventory.load threeFans "conf" (Service.handle waterSettings)).run.value =
      .ok (threeFansInventory (Service.handle waterSettings)) ∧
    (zoneTable ((threeFansInventory (Service.handle waterSettings)).activeFans ["water"])).entries =
      [("0", ["b"]), ("1", ["a", "c"])] ∧
    Partitions
      (zoneTable ((threeFansInventory (Service.handle waterSettings)).activeFans ["water"]))
      (threeFansInventory (Service.handle waterSettings)).fans ["water"] ∧
    Settings.load .absent waterEnvironment = .ok waterSettings ∧
    Service.warnings (Service.written .absent waterEnvironment threeFans) = [] := by
  have h := load_threeFans (Service.handle waterSettings)
  have hsettings : Settings.load .absent waterEnvironment = .ok waterSettings := by rfl
  obtain ⟨hpartitions, hservice⟩ := zones_partition_fans h
  obtain ⟨-, hwarnings⟩ := hservice .absent waterEnvironment waterSettings hsettings rfl rfl
  refine ⟨h, by decide, hpartitions ["water"], hsettings, hwarnings.trans (if_neg ?_)⟩
  -- a fan without profiles is always active
  intro hinactive
  exact Bool.noConfusion (hinactive _ List.mem_cons_self)

end Cooling
