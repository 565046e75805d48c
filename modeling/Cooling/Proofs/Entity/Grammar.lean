import Cooling.Entity.Fan
import Cooling.Entity.Group
import Cooling.Proofs.Entity.Fields

/-!
# The grammar of fans and groups

A JSON value describes a fan or a group if every field of it is what stands under its key.  What
is described in this way is read, and what is read is described; whatever else the object holds
makes no difference.  A value that describes nothing is refused for the first of its faults, and
the faults are the broken rules of the fields, in the order in which these are asked for.

* `Fan.ofJson_eq_ok_iff`, `Group.ofJson_eq_ok_iff`: reading accepts what is described;
* `Fan.decides_ofJson`, `Group.decides_ofJson`: the faults decide the reading;
* `Entity.fan_and_group_grammar`: both, and that other keys do not count.
-/

namespace Cooling

namespace Entity

variable {entity : String} {members : Json.Members}

/-! ## 1. The common part -/

/-- The common part of an entity stands in an object: its name, which is not empty, and its
profiles. -/
structure Base.DescribedBy (base : Base) (j : Json) : Prop where
  isObject : IsObject j
  name : j.get? "name" = some (.string base.name)
  name_ne_empty : base.name ≠ ""
  profiles : HoldsIfAny (j.get? "profiles") base.profiles

/-- What can be wrong with the common part. -/
def baseFaults (entity : String) (j : Json) : List (EntityError → Prop) :=
  [FieldFault entity "name" .filledString (j.get? "name"),
    FieldFault entity "profiles" .optionalStrings (j.get? "profiles")]

theorem Base.ofMembers_eq_ok_iff {base : Base} :
    Base.ofMembers entity members = .ok base ↔ base.DescribedBy (.object members) := by
  simp only [Base.ofMembers, bind_eq_ok_iff, requiredString_eq_ok_iff, nonemptyString_eq_ok_iff,
    optionalStrings_eq_ok_iff]
  constructor
  · rintro ⟨name, hname, name', ⟨rfl, hne⟩, profiles, hprofiles, h⟩
    cases h
    exact ⟨⟨members, rfl⟩, hname, hne, hprofiles⟩
  · rintro ⟨-, hname, hne, hprofiles⟩
    exact ⟨base.name, hname, base.name, ⟨rfl, hne⟩, base.profiles, hprofiles, rfl⟩

theorem Base.decides_ofMembers :
    Decides (baseFaults entity (.object members)) (Base.ofMembers entity members) := by
  unfold Base.ofMembers
  refine .cons₂ decides_filledString fun name _ => ?_
  exact .cons decides_optionalStrings fun profiles _ => .ok _

/-! ## 2. Agreement on keys -/

/-- Two values agree on keys: both are objects or neither is, and each of the keys has one value
in both. -/
structure AgreeOn (keys : List String) (j j' : Json) : Prop where
  isObject : IsObject j ↔ IsObject j'
  get? : ∀ key ∈ keys, j.get? key = j'.get? key

theorem AgreeOn.mono {keys fewer : List String} {j j' : Json} (h : AgreeOn keys j j')
    (hfewer : ∀ key ∈ fewer, key ∈ keys) : AgreeOn fewer j j' := by
  refine ⟨h.isObject, ?_⟩
  intro key hkey
  exact h.get? key (hfewer key hkey)

variable {j j' : Json}

theorem notAnObject_congr {keys : List String} (h : AgreeOn keys j j') :
    NotAnObject entity j = NotAnObject entity j' := by
  ext e
  rw [NotAnObject, NotAnObject, h.isObject]

/-- The common part is described by its two keys. -/
theorem Base.DescribedBy.congr {base : Base} (h : AgreeOn ["name", "profiles"] j j')
    (hbase : base.DescribedBy j) : base.DescribedBy j' := by
  obtain ⟨hobject, hname, hne, hprofiles⟩ := hbase
  rw [h.get? "name" (by simp)] at hname
  rw [h.get? "profiles" (by simp)] at hprofiles
  exact ⟨h.isObject.mp hobject, hname, hne, hprofiles⟩

theorem baseFaults_congr (h : AgreeOn ["name", "profiles"] j j') :
    baseFaults entity j = baseFaults entity j' := by
  rw [baseFaults, baseFaults, h.get? "name" (by simp), h.get? "profiles" (by simp)]

end Entity

open Entity

/-! ## 3. Fans -/

namespace Fan

/-- The interface stands under its key, or under the older one if the key is not there. -/
def HoldsInterface (interface older : Option Json) (name : String) : Prop :=
  interface = some (.string name) ∨ interface = none ∧ older = some (.string name)

/-- What can be wrong with the interface.  The older key counts only where the other one is
absent, and where both are it is the other one that is missed. -/
inductive InterfaceFault : (interface older : Option Json) → EntityError → Prop where
  | missing : InterfaceFault none none (.missingField entity "interface")
  | invalid {j : Json} {older : Option Json} (h : ¬ Shape.string.Holds j) :
      InterfaceFault (some j) older (.invalidField entity "interface" .string)
  | invalidOlder {j : Json} (h : ¬ Shape.string.Holds j) :
      InterfaceFault none (some j) (.invalidField entity "target_interface" .string)

/-- A value describes a fan. -/
structure DescribedBy (fan : Fan) (j : Json) : Prop extends fan.toBase.DescribedBy j where
  zone : j.get? "zone" = some (.string fan.zone)
  sensors : j.get? "sensors" = some (.ofStrings fan.sensors)
  sensors_ne_nil : fan.sensors ≠ []
  interface : HoldsInterface (j.get? "interface") (j.get? "target_interface") fan.interface

/-- Everything that can be wrong with a value that should describe a fan, in the order in which
it counts. -/
def faults (j : Json) : List (EntityError → Prop) :=
  NotAnObject entity j :: (baseFaults entity j ++
    [FieldFault entity "zone" .string (j.get? "zone"),
      FieldFault entity "sensors" .filledStrings (j.get? "sensors"),
      InterfaceFault (j.get? "interface") (j.get? "target_interface")])

/-- The keys that a fan is read from. -/
def keys : List String :=
  ["name", "profiles", "zone", "sensors", "interface", "target_interface"]

variable {members : Json.Members} {bus : Bus.Handle} {fan : Fan} {j j' : Json}

theorem interfaceKey_of_some (h : members.get? "interface" = some j) :
    interfaceKey members = "interface" := by
  simp [interfaceKey, h]

theorem interfaceKey_of_older (h : members.get? "interface" = none)
    (holder : members.get? "target_interface" = some j) :
    interfaceKey members = "target_interface" := by
  simp [interfaceKey, h, holder]

theorem interfaceKey_of_none (h : members.get? "target_interface" = none) :
    interfaceKey members = "interface" := by
  simp [interfaceKey, h]

theorem get?_interfaceKey_eq_some_iff {name : String} :
    members.get? (interfaceKey members) = some (.string name) ↔
      HoldsInterface (members.get? "interface") (members.get? "target_interface") name := by
  unfold HoldsInterface
  cases hinterface : members.get? "interface" with
  | some j =>
    rw [interfaceKey_of_some hinterface, hinterface]
    simp
  | none =>
    cases holder : members.get? "target_interface" with
    | some j =>
      rw [interfaceKey_of_older hinterface holder, holder]
      simp
    | none =>
      rw [interfaceKey_of_none holder, hinterface]
      simp

theorem decides_interface :
    Decides [InterfaceFault (members.get? "interface") (members.get? "target_interface")]
      (requiredString entity members (interfaceKey members)) := by
  refine .of_forall_iff fun e => ?_
  rw [decides_requiredString.eq_error_iff]
  cases hinterface : members.get? "interface" with
  | some j =>
    rw [interfaceKey_of_some hinterface, hinterface, fieldFault_string_iff]
    constructor
    · rintro ⟨h, rfl⟩
      exact .invalid h
    · intro h
      cases h with
      | invalid h => exact ⟨h, rfl⟩
  | none =>
    cases holder : members.get? "target_interface" with
    | some j =>
      rw [interfaceKey_of_older hinterface holder, holder, fieldFault_string_iff]
      constructor
      · rintro ⟨h, rfl⟩
        exact .invalidOlder h
      · intro h
        cases h with
        | invalidOlder h => exact ⟨h, rfl⟩
    | none =>
      rw [interfaceKey_of_none holder, hinterface, fieldFault_none_iff]
      constructor
      · rintro ⟨-, rfl⟩
        exact .missing
      · rintro ⟨⟩
        exact ⟨rfl, rfl⟩

theorem ofJson_eq_ok_iff :
    ofJson bus j = .ok fan ↔ fan.DescribedBy j ∧ fan.bus = bus := by
  simp only [ofJson, bind_eq_ok_iff, members_eq_ok_iff, Base.ofMembers_eq_ok_iff,
    requiredString_eq_ok_iff, requiredStrings_eq_ok_iff, nonempty_eq_ok_iff,
    get?_interfaceKey_eq_some_iff]
  constructor
  · rintro ⟨members, rfl, base, hbase, zone, hzone, sensors, hsensors, sensors', ⟨rfl, hne⟩,
      interface, hinterface, h⟩
    cases h
    exact ⟨⟨hbase, hzone, hsensors, hne, hinterface⟩, rfl⟩
  · rintro ⟨⟨hbase, hzone, hsensors, hne, hinterface⟩, rfl⟩
    obtain ⟨members, rfl⟩ := hbase.isObject
    exact ⟨members, rfl, fan.toBase, hbase, fan.zone, hzone, fan.sensors, hsensors, fan.sensors,
      ⟨rfl, hne⟩, fan.interface, hinterface, rfl⟩

/-- **The faults of a fan decide its reading.** -/
theorem decides_ofJson (bus : Bus.Handle) (j : Json) : Decides (faults j) (ofJson bus j) := by
  unfold ofJson
  refine .cons decides_members fun members hmembers => ?_
  rw [members_eq_ok_iff] at hmembers
  subst hmembers
  refine Base.decides_ofMembers.bind fun base _ => ?_
  refine .cons decides_requiredString fun zone _ => ?_
  refine .cons₂ decides_filledStrings fun sensors _ => ?_
  exact .cons decides_interface fun interface _ => .ok _

/-- **A fan is read from its keys alone.** -/
theorem ofJson_congr (h : AgreeOn keys j j') : ofJson bus j = ofJson bus j' := by
  have hcommon : AgreeOn ["name", "profiles"] j j' := h.mono (by simp [keys])
  have hzone := h.get? "zone" (by simp [keys])
  have hsensors := h.get? "sensors" (by simp [keys])
  have hinterface := h.get? "interface" (by simp [keys])
  have holder := h.get? "target_interface" (by simp [keys])
  have hfaults : faults j = faults j' := by
    rw [faults, faults, notAnObject_congr h, baseFaults_congr hcommon, hzone, hsensors,
      hinterface, holder]
  refine (hfaults ▸ decides_ofJson bus j).eq_of_forall_ok (decides_ofJson bus j') fun fan hfan => ?_
  rw [ofJson_eq_ok_iff] at hfan ⊢
  obtain ⟨⟨hbase, hfanZone, hfanSensors, hne, hfanInterface⟩, hbus⟩ := hfan
  rw [hzone] at hfanZone
  rw [hsensors] at hfanSensors
  rw [hinterface, holder] at hfanInterface
  exact ⟨⟨hbase.congr hcommon, hfanZone, hfanSensors, hne, hfanInterface⟩, hbus⟩

end Fan

/-! ## 4. Groups -/

namespace Group

/-- A value describes a group. -/
structure DescribedBy (group : Group) (j : Json) : Prop extends group.toBase.DescribedBy j where
  members : j.get? "members" = some (.ofStrings group.members)
  members_ne_nil : group.members ≠ []
  interface : j.get? "interface" = some (.string group.interface)
  property : j.get? "property" = some (.string group.property)

/-- Everything that can be wrong with a value that should describe a group, in the order in
which it counts. -/
def faults (j : Json) : List (EntityError → Prop) :=
  NotAnObject entity j :: (baseFaults entity j ++
    [FieldFault entity "members" .filledStrings (j.get? "members"),
      FieldFault entity "interface" .string (j.get? "interface"),
      FieldFault entity "property" .string (j.get? "property")])

/-- The keys that a group is read from. -/
def keys : List String := ["name", "profiles", "members", "interface", "property"]

variable {group : Group} {j j' : Json}

theorem ofJson_eq_ok_iff : ofJson j = .ok group ↔ group.DescribedBy j := by
  simp only [ofJson, bind_eq_ok_iff, members_eq_ok_iff, Base.ofMembers_eq_ok_iff,
    requiredString_eq_ok_iff, requiredStrings_eq_ok_iff, nonempty_eq_ok_iff]
  constructor
  · rintro ⟨fields, rfl, base, hbase, members, hmembers, members', ⟨rfl, hne⟩, interface,
      hinterface, property, hproperty, h⟩
    cases h
    exact ⟨hbase, hmembers, hne, hinterface, hproperty⟩
  · rintro ⟨hbase, hmembers, hne, hinterface, hproperty⟩
    obtain ⟨fields, rfl⟩ := hbase.isObject
    exact ⟨fields, rfl, group.toBase, hbase, group.members, hmembers, group.members, ⟨rfl, hne⟩,
      group.interface, hinterface, group.property, hproperty, rfl⟩

/-- **The faults of a group decide its reading.** -/
theorem decides_ofJson (j : Json) : Decides (faults j) (ofJson j) := by
  unfold ofJson
  refine .cons decides_members fun fields hfields => ?_
  rw [members_eq_ok_iff] at hfields
  subst hfields
  refine Base.decides_ofMembers.bind fun base _ => ?_
  refine .cons₂ decides_filledStrings fun members _ => ?_
  refine .cons decides_requiredString fun interface _ => ?_
  exact .cons decides_requiredString fun property _ => .ok _

/-- **A group is read from its keys alone.** -/
theorem ofJson_congr (h : AgreeOn keys j j') : ofJson j = ofJson j' := by
  have hcommon : AgreeOn ["name", "profiles"] j j' := h.mono (by simp [keys])
  have hmembers := h.get? "members" (by simp [keys])
  have hinterface := h.get? "interface" (by simp [keys])
  have hproperty := h.get? "property" (by simp [keys])
  have hfaults : faults j = faults j' := by
    rw [faults, faults, notAnObject_congr h, baseFaults_congr hcommon, hmembers, hinterface,
      hproperty]
  refine (hfaults ▸ decides_ofJson j).eq_of_forall_ok (decides_ofJson j') fun group hgroup => ?_
  rw [ofJson_eq_ok_iff] at hgroup ⊢
  obtain ⟨hbase, hgroupMembers, hne, hgroupInterface, hgroupProperty⟩ := hgroup
  rw [hmembers] at hgroupMembers
  rw [hinterface] at hgroupInterface
  rw [hproperty] at hgroupProperty
  exact ⟨hbase.congr hcommon, hgroupMembers, hne, hgroupInterface, hgroupProperty⟩

end Group

/-! ## 5. Both -/

/-- **The grammar of fans and groups.**  A value is read as a fan or a group exactly if it
describes it; the fan is driven on the given bus.  Any other value is refused with the error of
its first fault.  What stands under other keys changes nothing. -/
theorem Entity.fan_and_group_grammar (bus : Bus.Handle) (j : Json) :
    (∀ fan, Fan.ofJson bus j = .ok fan ↔ fan.DescribedBy j ∧ fan.bus = bus) ∧
    (∀ e, Fan.ofJson bus j = .error e ↔ First (fun fault e => fault e) (Fan.faults j) e) ∧
    (∀ j', AgreeOn Fan.keys j j' → Fan.ofJson bus j = Fan.ofJson bus j') ∧
    (∀ group, Group.ofJson j = .ok group ↔ group.DescribedBy j) ∧
    (∀ e, Group.ofJson j = .error e ↔ First (fun fault e => fault e) (Group.faults j) e) ∧
    ∀ j', AgreeOn Group.keys j j' → Group.ofJson j = Group.ofJson j' := by
  refine ⟨?_, Fan.decides_ofJson bus j, ?_, ?_, Group.decides_ofJson j, ?_⟩
  · intro fan
    exact Fan.ofJson_eq_ok_iff
  · intro j' h
    exact Fan.ofJson_congr h
  · intro group
    exact Group.ofJson_eq_ok_iff
  · intro j' h
    exact Group.ofJson_congr h

/-- An interface that is `null` is there, so the older key does not help. -/
example (bus : Bus.Handle) :
    Fan.ofJson bus (.object [("name", .string "fan0"), ("zone", .string "0"),
      ("sensors", .ofStrings ["fan0_0"]), ("interface", .null),
      ("target_interface", .string "FanSpeed")]) =
        .error (.invalidField "fan" "interface" .string) := rfl

end Cooling
