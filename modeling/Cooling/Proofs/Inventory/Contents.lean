import Cooling.Inventory
import Cooling.Proofs.First
import Cooling.Proofs.Logged

/-!
# What a file lists

A file **lists** entities if it holds a JSON array and its items are read as the entities, one
for each and in order.  Reading the file finds them or fails, and which of several faults it
fails with is settled by one list of conditions for every kind of entity (`fileFaults`).

* `log_items?`: of a file it is reported that it is not there, and nothing else;
* `listed_eq_ok_iff`, `listedIfPresent_eq_ok_iff`: reading finds exactly what the file lists;
* `decides_listed`, `decides_listedIfPresent`: the conditions decide the reading.
-/

namespace Cooling.Inventory

variable {α : Type} {path : String} {content : FileRead} {ofJson : Json → Except EntityError α}

/-! ## 1. Arrays of entities -/

/-- The file holds a JSON array of the given items. -/
def Holds (content : FileRead) (items : List Json) : Prop :=
  ∃ text, content = .text text ∧ Json.read? text.toList = some (.array items)

/-- The file lists the given entities: its items are read as them, one for each, in order. -/
def Lists (ofJson : Json → Except EntityError α) (content : FileRead) (found : List α) : Prop :=
  ∃ items, Holds content items ∧ List.Forall₂ (fun j a => ofJson j = .ok a) items found

/-- The file lists the given entities, or is absent and there are none. -/
def ListsIfPresent (ofJson : Json → Except EntityError α) (content : FileRead)
    (found : List α) : Prop :=
  content = .absent ∧ found = [] ∨ Lists ofJson content found

@[simp] theorem not_holds_absent {items : List Json} : ¬ Holds .absent items := by
  rintro ⟨s, h, -⟩
  cases h

@[simp] theorem not_holds_unreadable {reason : String} {items : List Json} :
    ¬ Holds (.unreadable reason) items := by
  rintro ⟨s, h, -⟩
  cases h

@[simp] theorem holds_text_iff {s : String} {items : List Json} :
    Holds (.text s) items ↔ Json.read? s.toList = some (.array items) := by
  simp [Holds]

@[simp] theorem value_items?_absent : (items? path .absent).run.value = .ok none := rfl

@[simp] theorem value_items?_unreadable {reason : String} :
    (items? path (.unreadable reason)).run.value = .error (.unreadable path reason) := rfl

theorem value_items?_text (path s : String) :
    (items? path (.text s)).run.value = match Json.read? s.toList with
      | none => .error (.malformed path s)
      | some (.array items) => .ok (some items)
      | some _ => .error (.notAnArray path) := by
  rw [items?]
  cases Json.read? s.toList with
  | none => rfl
  | some j => cases j <;> rfl

/-- Of a file it is reported that it is not there, and nothing else. -/
theorem log_items? (path : String) (content : FileRead) :
    (items? path content).run.log = if content = .absent then [absentRecord path] else [] := by
  cases content with
  | absent => rfl
  | unreadable reason => rfl
  | text s =>
    rw [if_neg FileRead.noConfusion, items?]
    cases Json.read? s.toList with
    | none => rfl
    | some j => cases j <;> rfl

theorem value_items?_eq_none_iff :
    (items? path content).run.value = .ok none ↔ content = .absent := by
  cases content with
  | absent => simp
  | unreadable reason => simp
  | text s =>
    rw [value_items?_text]
    cases Json.read? s.toList with
    | none => simp
    | some j => cases j <;> simp

theorem value_items?_eq_some_iff {items : List Json} :
    (items? path content).run.value = .ok (some items) ↔ Holds content items := by
  cases content with
  | absent => simp
  | unreadable reason => simp
  | text s =>
    rw [value_items?_text, holds_text_iff]
    cases Json.read? s.toList with
    | none => simp
    | some j => cases j <;> simp

/-- A file holds one array only. -/
theorem Holds.unique {items other : List Json} (h : Holds content items)
    (h' : Holds content other) : items = other := by
  obtain ⟨s, rfl, hs⟩ := h
  rw [holds_text_iff, hs] at h'
  cases h'
  rfl

/-- A file lists one list of entities only. -/
theorem Lists.unique {found other : List α} (h : Lists ofJson content found)
    (h' : Lists ofJson content other) : found = other := by
  obtain ⟨items, hitems, hfound⟩ := h
  obtain ⟨items', hitems', hother⟩ := h'
  cases hitems.unique hitems'
  have := mapM_eq_ok_iff.mpr hfound
  rw [mapM_eq_ok_iff.mpr hother] at this
  cases this
  rfl

theorem ListsIfPresent.unique {found other : List α} (h : ListsIfPresent ofJson content found)
    (h' : ListsIfPresent ofJson content other) : found = other := by
  rcases h with ⟨rfl, rfl⟩ | h
  · rcases h' with ⟨-, rfl⟩ | ⟨items, hitems, -⟩
    · rfl
    · exact absurd hitems not_holds_absent
  · rcases h' with ⟨rfl, -⟩ | h'
    · obtain ⟨items, hitems, -⟩ := h
      exact absurd hitems not_holds_absent
    · exact h.unique h'

/-! ## 2. Reading one file -/

/-- The items of a file that must be there. -/
def requiredItems (path : String) (content : FileRead) : Except LoadError (List Json) := do
  let some items ← (items? path content).run.value | throw (.missing path)
  return items

/-- The entities of a file that must be there. -/
def listed (path : String) (ofJson : Json → Except EntityError α) (content : FileRead) :
    Except LoadError (List α) := do
  entities path ofJson (← requiredItems path content)

/-- The entities of a file, none if it is absent. -/
def listedIfPresent (path : String) (ofJson : Json → Except EntityError α)
    (content : FileRead) : Except LoadError (List α) := do
  entities path ofJson ((← (items? path content).run.value).getD [])

theorem entities_eq_ok_iff {items : List Json} {found : List α} :
    entities path ofJson items = .ok found ↔
      List.Forall₂ (fun j a => ofJson j = .ok a) items found := by
  have hitems : items.zipIdx.map Prod.fst = items := List.zipIdx_map_fst 0 items
  simp only [entities, mapM_eq_ok_iff, mapError_eq_ok_iff]
  conv_rhs => rw [← hitems, List.forall₂_map_left_iff]

theorem requiredItems_eq_ok_iff {items : List Json} :
    requiredItems path content = .ok items ↔ Holds content items := by
  rw [requiredItems, bind_eq_ok_iff, ← value_items?_eq_some_iff]
  constructor
  · rintro ⟨items' | items', hitems, h⟩
    · cases h
    · cases h
      exact hitems
  · exact fun hitems => ⟨some items, hitems, rfl⟩

/-- **Reading a file that must be there** finds exactly what it lists. -/
theorem listed_eq_ok_iff {found : List α} :
    listed path ofJson content = .ok found ↔ Lists ofJson content found := by
  simp only [listed, bind_eq_ok_iff, Lists, requiredItems_eq_ok_iff, entities_eq_ok_iff]

/-- **Reading a file that may be absent** finds exactly what it lists, if it is present. -/
theorem listedIfPresent_eq_ok_iff {found : List α} :
    listedIfPresent path ofJson content = .ok found ↔ ListsIfPresent ofJson content found := by
  simp only [listedIfPresent, bind_eq_ok_iff, ListsIfPresent, Lists, entities_eq_ok_iff]
  constructor
  · rintro ⟨items | items, hitems, hfound⟩
    · exact .inl ⟨value_items?_eq_none_iff.mp hitems, List.forall₂_nil_left_iff.mp hfound⟩
    · exact .inr ⟨items, value_items?_eq_some_iff.mp hitems, hfound⟩
  · rintro (⟨hcontent, rfl⟩ | ⟨items, hitems, hfound⟩)
    · exact ⟨none, value_items?_eq_none_iff.mpr hcontent, .nil⟩
    · exact ⟨some items, value_items?_eq_some_iff.mpr hitems, hfound⟩

/-! ## 3. What can be wrong with a file

Each condition says when the file has the fault and which error that is. -/

/-- The file is not there. -/
def missing (path : String) (content : FileRead) (e : LoadError) : Prop :=
  content = .absent ∧ e = .missing path

/-- The file cannot be read as text. -/
def unreadable (path : String) (content : FileRead) (e : LoadError) : Prop :=
  ∃ reason, content = .unreadable reason ∧ e = .unreadable path reason

/-- The file is not JSON. -/
def malformed (path : String) (content : FileRead) (e : LoadError) : Prop :=
  ∃ text, content = .text text ∧ Json.read? text.toList = none ∧ e = .malformed path text

/-- The file is JSON, but not an array. -/
def notAnArray (path : String) (content : FileRead) (e : LoadError) : Prop :=
  ∃ text j, content = .text text ∧ Json.read? text.toList = some j ∧
    (∀ items, j ≠ .array items) ∧ e = .notAnArray path

/-- An item is no entity; the one with the least index counts. -/
def invalidEntry (path : String) (ofJson : Json → Except EntityError α) (content : FileRead)
    (e : LoadError) : Prop :=
  ∃ items index j cause, Holds content items ∧ items[index]? = some j ∧
    ofJson j = .error cause ∧
    (∀ i < index, ∀ j', items[i]? = some j' → ∃ a, ofJson j' = .ok a) ∧
    e = .invalidEntry path index cause

/-- What can be wrong with a file that may be absent, in the order in which it counts. -/
def fileFaults (path : String) (ofJson : Json → Except EntityError α) (content : FileRead) :
    List (LoadError → Prop) :=
  [unreadable path content, malformed path content, notAnArray path content,
    invalidEntry path ofJson content]

/-! ## 4. The faults decide the reading -/

/-- The items of a file that may be absent. -/
theorem decides_items? :
    Decides [unreadable path content, malformed path content, notAnArray path content]
      (items? path content).run.value := by
  intro e
  simp only [first_cons, not_first_nil, and_false, or_false]
  -- no two of the conditions go together, so their order does not matter here
  cases content with
  | absent => simp [unreadable, malformed, notAnArray]
  | unreadable reason => simp [unreadable, malformed, notAnArray, eq_comm]
  | text s =>
    rw [value_items?_text]
    cases h : Json.read? s.toList with
    | none => simp [unreadable, malformed, notAnArray, h, eq_comm]
    | some j => cases j <;> simp [unreadable, malformed, notAnArray, h, eq_comm]

/-- The items of a file that must be there. -/
theorem decides_requiredItems :
    Decides [missing path content, unreadable path content, malformed path content,
      notAnArray path content] (requiredItems path content) := by
  intro e
  rw [first_cons, ← decides_items? e, requiredItems, bind_eq_error_iff]
  by_cases habsent : content = .absent
  · subst habsent
    simp [missing, throw, throwThe, MonadExceptOf.throw, eq_comm]
  · simp only [missing, habsent, false_and, not_false_eq_true, implies_true, true_and, false_or]
    refine or_iff_left ?_
    rintro ⟨items | items, hitems, h⟩
    · exact habsent (value_items?_eq_none_iff.mp hitems)
    · cases h

/-- The items of a file fail to be entities with the one of the least index that is none. -/
theorem decides_entities {items : List Json} (hitems : Holds content items) :
    Decides [invalidEntry path ofJson content] (entities path ofJson items) := by
  refine .of_forall_iff fun e => ?_
  have hzip (k : Nat) (j : Json) (index : Nat) :
      items.zipIdx[k]? = some (j, index) ↔ items[k]? = some j ∧ k = index := by
    simp [List.getElem?_zipIdx]
  simp only [entities, mapM_eq_error_iff, first_iff_getElem?, Prod.exists, Prod.forall, hzip,
    mapError_eq_error_iff, invalidEntry]
  constructor
  · rintro ⟨k, j, _, ⟨hj, rfl⟩, ⟨cause, hcause, rfl⟩, hbefore⟩
    refine ⟨items, k, j, cause, hitems, hj, hcause, fun i hi j' hj' => ?_, rfl⟩
    refine forall_ne_error_iff.mp fun cause' hcause' => ?_
    exact hbefore i hi j' i ⟨hj', rfl⟩ _ ⟨cause', hcause', rfl⟩
  · rintro ⟨items', k, j, cause, hitems', hj, hcause, hbefore, rfl⟩
    cases hitems.unique hitems'
    refine ⟨k, j, k, ⟨hj, rfl⟩, ⟨cause, hcause, rfl⟩, ?_⟩
    rintro i hi j' _ ⟨hj', rfl⟩ _ ⟨cause', hcause', -⟩
    obtain ⟨a, ha⟩ := hbefore i hi j' hj'
    rw [ha] at hcause'
    cases hcause'

/-- An absent file has no invalid entry. -/
theorem decides_entities_nil (habsent : content = .absent) :
    Decides [invalidEntry path ofJson content] (entities path ofJson []) := by
  refine .of_forall_iff fun e => ?_
  subst habsent
  simp [entities, invalidEntry, pure, Except.pure]

/-- **The faults of a file that must be there.** -/
theorem decides_listed :
    Decides (missing path content :: fileFaults path ofJson content)
      (listed path ofJson content) :=
  decides_requiredItems.bind fun _ h => decides_entities (requiredItems_eq_ok_iff.mp h)

/-- **The faults of a file that may be absent.** -/
theorem decides_listedIfPresent :
    Decides (fileFaults path ofJson content) (listedIfPresent path ofJson content) := by
  refine decides_items?.bind ?_
  rintro (_ | items) hitems
  · exact decides_entities_nil (value_items?_eq_none_iff.mp hitems)
  · exact decides_entities (value_items?_eq_some_iff.mp hitems)

end Cooling.Inventory
