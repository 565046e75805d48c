import Cooling.Inventory
import Cooling.Proofs.First

/-!
# Checks across entities

Once the entities are read, their names must be distinct within each file and events may name
groups only that are there.  Each check passes exactly if that is so, and otherwise reports
the earliest offence.

* `checkUnique_eq_ok_iff`, `decides_checkUnique`: distinct names;
* `checkGroups_eq_ok_iff`, `decides_checkGroups`: known groups;
* `group?_eq_some_iff_filter`: with distinct names the first group of a name is the only one.
-/

namespace Cooling.Inventory

/-! ## 1. Distinct names -/

/-- A name stands a second time; the earliest one that does counts, so the names before it are
distinct. -/
def repeatedName (path : String) (names : List String) (e : LoadError) : Prop :=
  ∃ before name after, names = before ++ name :: after ∧ before.Nodup ∧ name ∈ before ∧
    e = .duplicateName path name

theorem firstRepeated_eq_none_iff : ∀ {names seen : List String},
    firstRepeated seen names = none ↔ names.Nodup ∧ ∀ n ∈ names, n ∉ seen
  | [], seen => by simp [firstRepeated]
  | name :: names, seen => by
    rw [firstRepeated, List.nodup_cons, List.forall_mem_cons]
    split
    · rename_i hseen
      simp only [reduceCtorEq, false_iff]
      exact fun h => h.2.1 (List.contains_iff_mem.mp hseen)
    · rename_i hseen
      have hname : name ∉ seen := fun hmem => hseen (List.contains_iff_mem.mpr hmem)
      rw [firstRepeated_eq_none_iff]
      constructor
      · rintro ⟨hnodup, hfresh⟩
        refine ⟨⟨fun hmem => hfresh name hmem List.mem_cons_self, hnodup⟩, hname, ?_⟩
        exact fun n hn hmem => hfresh n hn (List.mem_cons_of_mem _ hmem)
      · rintro ⟨⟨hnot, hnodup⟩, -, hfresh⟩
        refine ⟨hnodup, fun n hn hmem => ?_⟩
        rcases List.mem_cons.mp hmem with rfl | hmem
        · exact hnot hn
        · exact hfresh n hn hmem

/-- The scan stops at the earliest name that is in `seen` or before itself. -/
theorem firstRepeated_eq_some_iff {name : String} : ∀ {names seen : List String},
    firstRepeated seen names = some name ↔ ∃ before after, names = before ++ name :: after ∧
      firstRepeated seen before = none ∧ (name ∈ seen ∨ name ∈ before)
  | [], seen => by simp [firstRepeated]
  | head :: names, seen => by
    rw [firstRepeated]
    split
    · rename_i hseen
      constructor
      · rintro h
        cases h
        exact ⟨[], names, rfl, rfl, .inl (List.contains_iff_mem.mp hseen)⟩
      · rintro ⟨before, after, h, hbefore, -⟩
        cases before with
        | nil =>
          cases h
          rfl
        | cons n before =>
          cases h
          rw [firstRepeated, if_pos hseen] at hbefore
          cases hbefore
    · rename_i hseen
      rw [firstRepeated_eq_some_iff]
      constructor
      · rintro ⟨before, after, rfl, hbefore, hmem⟩
        refine ⟨head :: before, after, rfl, ?_, ?_⟩
        · rw [firstRepeated, if_neg hseen, hbefore]
        · simp only [List.mem_cons] at hmem ⊢
          tauto
      · rintro ⟨before, after, h, hbefore, hmem⟩
        cases before with
        | nil =>
          cases h
          simp only [List.not_mem_nil, or_false] at hmem
          exact absurd (List.contains_iff_mem.mpr hmem) hseen
        | cons n before =>
          cases h
          rw [firstRepeated, if_neg hseen] at hbefore
          refine ⟨before, after, rfl, hbefore, ?_⟩
          simp only [List.mem_cons] at hmem ⊢
          tauto

/-- **The names are found to be distinct exactly if they are.** -/
theorem checkUnique_eq_ok_iff {path : String} {names : List String} {u : Unit} :
    checkUnique path names = .ok u ↔ names.Nodup := by
  have hnone := @firstRepeated_eq_none_iff names []
  simp only [List.not_mem_nil, not_false_eq_true, implies_true, and_true] at hnone
  rw [checkUnique, ← hnone]
  cases firstRepeated [] names <;> simp

/-- **The earliest repeated name is reported.** -/
theorem decides_checkUnique {path : String} {names : List String} :
    Decides [repeatedName path names] (checkUnique path names) := by
  refine .of_forall_iff fun e => ?_
  have hsome : checkUnique path names = .error e ↔
      ∃ name, firstRepeated [] names = some name ∧ e = .duplicateName path name := by
    rw [checkUnique]
    cases firstRepeated [] names <;> simp [eq_comm]
  simp only [hsome, firstRepeated_eq_some_iff, firstRepeated_eq_none_iff, List.not_mem_nil,
    not_false_eq_true, implies_true, and_true, false_or, repeatedName]
  constructor
  · rintro ⟨name, ⟨before, after, rfl, hnodup, hmem⟩, rfl⟩
    exact ⟨before, name, after, rfl, hnodup, hmem, rfl⟩
  · rintro ⟨before, name, after, rfl, hnodup, hmem, rfl⟩
    exact ⟨name, ⟨before, after, rfl, hnodup, hmem⟩, rfl⟩

/-! ## 2. Groups by name -/

section Lookup

variable {inventory : Inventory} {name : String} {group : Group}

theorem group?_eq_none_iff :
    inventory.group? name = none ↔ name ∉ inventory.groups.map (·.name) := by
  rw [group?, List.find?_eq_none, List.mem_map]
  constructor
  · rintro h ⟨group, hmem, hname⟩
    exact h group hmem (beq_iff_eq.mpr hname)
  · intro h group hmem hname
    exact h ⟨group, hmem, beq_iff_eq.mp hname⟩

/-- **With distinct names the first group of a name is the only one.** -/
theorem group?_eq_some_iff_filter (hnodup : (inventory.groups.map (·.name)).Nodup) :
    inventory.group? name = some group ↔
      inventory.groups.filter (·.name == name) = [group] := by
  obtain ⟨fans, groups, events⟩ := inventory
  simp only [group?] at hnodup ⊢
  induction groups with
  | nil => simp
  | cons head rest ih =>
    rw [List.map_cons, List.nodup_cons] at hnodup
    by_cases hname : head.name = name
    · have hpos : (head.name == name) = true := beq_iff_eq.mpr hname
      have hrest : rest.filter (·.name == name) = [] := by
        refine List.filter_eq_nil_iff.mpr fun g hg hgname => hnodup.1 ?_
        rw [hname, ← beq_iff_eq.mp hgname]
        exact List.mem_map_of_mem hg
      simp only [List.find?_cons_of_pos, List.filter_cons_of_pos, hpos, hrest, Option.some.injEq,
        List.cons.injEq, and_true]
    · rw [List.find?_cons_of_neg (by simpa using hname),
        List.filter_cons_of_neg (by simpa using hname)]
      exact ih hnodup.2

end Lookup

/-! ## 3. Known groups -/

/-- An event names a group that is not there; the first such event counts, and the first such
group among those it names. -/
def unknownGroup (groups : List Group) (events : List Event) (e : LoadError) : Prop :=
  First (fun event e =>
    First (fun name e => name ∉ groups.map (·.name) ∧ .unknownGroup event.name name = e)
      event.groups e) events e

/-- What one event has the search for unknown groups find. -/
theorem findUnknown_eq_some_iff {inventory : Inventory} {event : Event}
    {found : String × String} :
    ((event.groups.find? fun name => (inventory.group? name).isNone).map fun name =>
        (event.name, name)) = some found ↔
      First (fun name found => name ∉ inventory.groups.map (·.name) ∧ (event.name, name) = found)
        event.groups found := by
  rw [List.find?_eq_findSome?_guard, List.map_findSome?, findSome?_eq_some_iff_first]
  refine first_congr fun name _ found => ?_
  rw [← group?_eq_none_iff, ← Option.isNone_iff_eq_none]
  simp [Option.guard]

/-- **The groups are found to be known exactly if they are.** -/
theorem checkGroups_eq_ok_iff {inventory : Inventory} {u : Unit} :
    inventory.checkGroups = .ok u ↔
      ∀ event ∈ inventory.events, ∀ name ∈ event.groups, name ∈ inventory.groups.map (·.name) := by
  have hnone : inventory.checkGroups = .ok u ↔ inventory.firstUnknownGroup? = none := by
    rw [checkGroups]
    cases inventory.firstUnknownGroup? <;> simp
  simp only [hnone, firstUnknownGroup?, List.findSome?_eq_none_iff, Option.map_eq_none_iff,
    List.find?_eq_none, Option.isNone_iff_eq_none, group?_eq_none_iff, not_not]

/-- **The earliest unknown group is reported.** -/
theorem decides_checkGroups {inventory : Inventory} :
    Decides [unknownGroup inventory.groups inventory.events] inventory.checkGroups := by
  refine .of_forall_iff fun e => ?_
  have hsome : inventory.checkGroups = .error e ↔ ∃ found,
      inventory.firstUnknownGroup? = some found ∧ .unknownGroup found.1 found.2 = e := by
    rw [checkGroups]
    cases inventory.firstUnknownGroup? <;> simp
  rw [hsome, firstUnknownGroup?, unknownGroup]
  simp only [findSome?_eq_some_iff_first, findUnknown_eq_some_iff]
  rw [← first_image]
  refine first_congr fun event _ e => ?_
  rw [← first_image]
  refine first_congr fun name _ e => ?_
  simp only [and_assoc, exists_and_left, exists_eq_left']

end Cooling.Inventory
