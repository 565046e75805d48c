import Cooling.Entity.Event
import Cooling.Proofs.Entity.Grammar

/-!
# The grammar of events

An event holds the entries of its actions, which are values of their own with a fault of their
own: an entry that is no object with a name is reported as an action, not as the event.  Of an
entry only the name is read.  The rest of it is kept as it stands, for the behaviour of that
name to read, and neither it nor an unknown key of the event can make the reading fail.

* `ActionEntry.ofJson_eq_ok_iff`, `Event.ofJson_eq_ok_iff`: reading accepts what is described;
* `ActionEntry.decides_ofJson`, `Event.decides_ofJson`: the faults decide the reading;
* `Event.grammar`: both for events, and what does not count.
-/

namespace Cooling

open Entity

variable {j j' : Json}

/-! ## 1. Action entries -/

namespace ActionEntry

/-- A value describes an entry: the entry has the name that stands there and keeps the value as
a whole. -/
structure DescribedBy (entry : ActionEntry) (j : Json) : Prop where
  isObject : IsObject j
  name : j.get? "name" = some (.string entry.name)
  name_ne_empty : entry.name ≠ ""
  config : entry.config = j

/-- What can be wrong with a value that should describe an entry. -/
def faults (j : Json) : List (EntityError → Prop) :=
  [NotAnObject "action" j, FieldFault "action" "name" .filledString (j.get? "name")]

variable {entry : ActionEntry}

theorem ofJson_eq_ok_iff : ofJson j = .ok entry ↔ entry.DescribedBy j := by
  simp only [ofJson, bind_eq_ok_iff, members_eq_ok_iff, requiredString_eq_ok_iff,
    nonemptyString_eq_ok_iff]
  constructor
  · rintro ⟨members, rfl, name, hname, name', ⟨rfl, hne⟩, h⟩
    cases h
    exact ⟨⟨members, rfl⟩, hname, hne, rfl⟩
  · rintro ⟨⟨members, rfl⟩, hname, hne, hconfig⟩
    refine ⟨members, rfl, entry.name, hname, entry.name, ⟨rfl, hne⟩, ?_⟩
    rw [← hconfig]
    rfl

theorem decides_ofJson (j : Json) : Decides (faults j) (ofJson j) := by
  unfold ofJson
  refine .cons decides_members fun members hmembers => ?_
  rw [members_eq_ok_iff] at hmembers
  subst hmembers
  exact .cons₂ decides_filledString fun name _ => .ok _

theorem faults_congr (h : AgreeOn ["name"] j j') : faults j = faults j' := by
  rw [faults, faults, notAnObject_congr h, h.get? "name" (by simp)]

/-- Entries are read from values exactly if these are what the entries keep. -/
theorem mapM_ofJson_eq_ok_iff {items : List Json} {entries : List ActionEntry} :
    items.mapM ofJson = .ok entries ↔
      items = entries.map (·.config) ∧ ∀ entry ∈ entries, entry.DescribedBy entry.config := by
  simp only [mapM_eq_ok_iff, ofJson_eq_ok_iff]
  constructor
  · intro h
    induction h with
    | nil => exact ⟨rfl, nofun⟩
    | cons hentry _ ih =>
      obtain ⟨rfl, hrest⟩ := ih
      obtain rfl := hentry.config
      exact ⟨rfl, List.forall_mem_cons.mpr ⟨hentry, hrest⟩⟩
  · rintro ⟨rfl, h⟩
    exact List.forall₂_map_left_iff.mpr (List.forall₂_same.mpr h)

end ActionEntry

/-! ## 2. Events -/

namespace Event

/-- A value describes an event.  The entries of its actions keep, in order, all that the array
holds. -/
structure DescribedBy (event : Event) (j : Json) : Prop extends event.toBase.DescribedBy j where
  groups : HoldsIfAny (j.get? "groups") event.groups
  actions : j.get? "actions" = some (.array (event.actions.map (·.config)))
  actions_ne_nil : event.actions ≠ []
  entries : ∀ entry ∈ event.actions, entry.DescribedBy entry.config

/-- An item of the actions is wrong; the first such item counts, and its first fault. -/
def EntryFault (actions : Option Json) (e : EntityError) : Prop :=
  ∃ items, actions = some (.array items) ∧
    First (fun item e => First (fun fault e => fault e) (ActionEntry.faults item) e) items e

/-- Everything that can be wrong with a value that should describe an event, in the order in
which it counts. -/
def faults (j : Json) : List (EntityError → Prop) :=
  NotAnObject "event" j :: (baseFaults "event" j ++
    [FieldFault "event" "groups" .optionalStrings (j.get? "groups"),
      FieldFault "event" "actions" .filledObjects (j.get? "actions"),
      EntryFault (j.get? "actions")])

/-- The keys that an event is read from. -/
def keys : List String := ["name", "profiles", "groups", "actions"]

variable {members : Json.Members} {event : Event}

theorem actionItems_eq_ok_iff {items : List Json} :
    actionItems members = .ok items ↔
      members.get? "actions" = some (.array items) ∧ items ≠ [] := by
  rw [actionItems, required]
  cases members.get? "actions" with
  | none => simp [bind, Except.bind]
  | some j =>
    cases j with
    | array items' =>
      simp only [bind, Except.bind, Json.items?, nonempty_eq_ok_iff, Option.some.injEq,
        Json.array.injEq]
      constructor
      · rintro ⟨rfl, hne⟩
        exact ⟨rfl, hne⟩
      · rintro ⟨rfl, hne⟩
        exact ⟨rfl, hne⟩
    | _ => simp [bind, Except.bind, Json.items?]

theorem decides_actionItems :
    Decides [FieldFault entity "actions" .filledObjects (members.get? "actions")]
      (actionItems members) := by
  refine .of_forall_iff fun e => ?_
  rw [actionItems, required]
  cases members.get? "actions" with
  | none => simp [fieldFault_none_iff, bind, Except.bind, eq_comm]
  | some j =>
    rw [fieldFault_some_iff]
    cases j with
    | array items =>
      simp [Rule.Admits, Shape.Holds, Shape.emptyValue, bind, Except.bind, Json.items?,
        nonempty_eq_error_iff]
    | _ =>
      simp [Rule.Admits, Shape.Holds, Shape.emptyValue, bind, Except.bind, Json.items?, eq_comm]

theorem ofJson_eq_ok_iff : ofJson j = .ok event ↔ event.DescribedBy j := by
  simp only [ofJson, bind_eq_ok_iff, members_eq_ok_iff, Base.ofMembers_eq_ok_iff,
    optionalStrings_eq_ok_iff, actionItems_eq_ok_iff, ActionEntry.mapM_ofJson_eq_ok_iff]
  constructor
  · rintro ⟨members, rfl, base, hbase, groups, hgroups, items, ⟨hitems, hne⟩, actions,
      ⟨rfl, hactions⟩, h⟩
    cases h
    exact ⟨hbase, hgroups, hitems, by simpa using hne, hactions⟩
  · rintro ⟨hbase, hgroups, hactions, hne, hentries⟩
    obtain ⟨members, rfl⟩ := hbase.isObject
    exact ⟨members, rfl, event.toBase, hbase, event.groups, hgroups, _,
      ⟨hactions, by simpa using hne⟩, event.actions, ⟨rfl, hentries⟩, rfl⟩

/-- **The faults of an event decide its reading.** -/
theorem decides_ofJson (j : Json) : Decides (faults j) (ofJson j) := by
  unfold ofJson
  refine .cons decides_members fun members hmembers => ?_
  rw [members_eq_ok_iff] at hmembers
  subst hmembers
  refine Base.decides_ofMembers.bind fun base _ => ?_
  refine .cons decides_optionalStrings fun groups _ => ?_
  refine .cons decides_actionItems fun items hitems => ?_
  obtain ⟨hitems, -⟩ := actionItems_eq_ok_iff.mp hitems
  refine .cons (.of_unique hitems ?_ (.of_forall_iff fun e => ?_)) fun actions _ => .ok _
  · intro items' hitems'
    have hsame := hitems.symm.trans hitems'
    simpa using hsame.symm
  · simp only [mapM_eq_error_iff]
    exact first_congr fun item _ => ActionEntry.decides_ofJson item

/-! ## 3. What does not count -/

/-- Two values of the field of the actions name the same: they are one value, or they are arrays
whose items agree on their names, one by one. -/
inductive SameNames : Option Json → Option Json → Prop where
  | refl (actions : Option Json) : SameNames actions actions
  | items {items items' : List Json} (h : List.Forall₂ (AgreeOn ["name"]) items items') :
      SameNames (some (.array items)) (some (.array items'))

theorem fieldFault_congr {actions actions' : Option Json} (h : SameNames actions actions') :
    FieldFault "event" "actions" .filledObjects actions =
      FieldFault "event" "actions" .filledObjects actions' := by
  cases h with
  | refl => rfl
  | @items items items' h =>
    have hnil : items = [] ↔ items' = [] := by
      rw [← List.length_eq_zero_iff, h.length_eq, List.length_eq_zero_iff]
    ext e
    simp [fieldFault_some_iff, Rule.Admits, Shape.Holds, Shape.emptyValue, hnil]

theorem entryFault_congr {actions actions' : Option Json} (h : SameNames actions actions') :
    EntryFault actions = EntryFault actions' := by
  cases h with
  | refl => rfl
  | items h =>
    ext e
    simp only [EntryFault, Option.some.injEq, Json.array.injEq, exists_eq_left']
    refine first_forall₂ (h.imp fun item item' hitem e => ?_)
    rw [ActionEntry.faults_congr hitem]

theorem faults_congr (h : AgreeOn ["name", "profiles", "groups"] j j')
    (hactions : SameNames (j.get? "actions") (j'.get? "actions")) : faults j = faults j' := by
  have hcommon : AgreeOn ["name", "profiles"] j j' := h.mono (by simp)
  rw [faults, faults, notAnObject_congr h, baseFaults_congr hcommon, h.get? "groups" (by simp),
    fieldFault_congr hactions, entryFault_congr hactions]

/-- **An event is read from its keys alone.** -/
theorem ofJson_congr (h : AgreeOn keys j j') : ofJson j = ofJson j' := by
  have hcommon : AgreeOn ["name", "profiles"] j j' := h.mono (by simp [keys])
  have hgroups := h.get? "groups" (by simp [keys])
  have hactions := h.get? "actions" (by simp [keys])
  have hfaults : faults j = faults j' :=
    faults_congr (h.mono (by simp [keys])) (hactions ▸ .refl _)
  refine (hfaults ▸ decides_ofJson j).eq_of_forall_ok (decides_ofJson j') fun event hevent => ?_
  rw [ofJson_eq_ok_iff] at hevent ⊢
  obtain ⟨hbase, heventGroups, heventActions, hne, hentries⟩ := hevent
  rw [hgroups] at heventGroups
  rw [hactions] at heventActions
  exact ⟨hbase.congr hcommon, heventGroups, heventActions, hne, hentries⟩

/-- **The grammar of events.**  A value is read as an event exactly if it describes it.  Any other
value is refused with the error of its first fault, and if that is a fault of an action's entry,
with the error of the first fault of the first such entry.  What stands under other keys of the
event changes nothing, and what stands under other keys of an entry than its name has no part in
whether and why the reading fails. -/
theorem grammar (j : Json) :
    (∀ event, ofJson j = .ok event ↔ event.DescribedBy j) ∧
    (∀ e, ofJson j = .error e ↔ First (fun fault e => fault e) (faults j) e) ∧
    (∀ j', AgreeOn keys j j' → ofJson j = ofJson j') ∧
    ∀ j', AgreeOn ["name", "profiles", "groups"] j j' →
      SameNames (j.get? "actions") (j'.get? "actions") →
      ((∃ event, ofJson j = .ok event) ↔ ∃ event, ofJson j' = .ok event) ∧
      ∀ e, ofJson j = .error e ↔ ofJson j' = .error e := by
  refine ⟨fun event => ofJson_eq_ok_iff, decides_ofJson j, fun j' => ofJson_congr, ?_⟩
  intro j' h hactions
  have hfaults := faults_congr h hactions
  have herror : ∀ e, ofJson j = .error e ↔ ofJson j' = .error e := by
    intro e
    rw [decides_ofJson j e, decides_ofJson j' e, hfaults]
  refine ⟨?_, herror⟩
  simp only [← forall_ne_error_iff, herror]

end Event
end Cooling
