import Cooling.Proofs.Action.Shared
import Mathlib.Data.List.Induction
import Mathlib.Data.List.Nodup

/-!
# Registering a list of behaviours

A list of behaviours is registered one after the other, up to the first that is refused.  Which
one that is depends on the names alone: a behaviour is refused if its name is empty, if the
catalogue has it, or if one before it in the list has it.  What the ones before it leave is the
catalogue **extended** by them (`Extends`).  An extension is settled by its look-ups, and these
do not say in which order the list stood, so neither does the catalogue.

* `accepts_concat_iff`: one more behaviour is accepted exactly if nothing refuses it;
* `registerAll_of_accepts`, `registerAll_of_stopsAfter`: what a list comes to;
* `registerAll_up_to_refused`: both ends of a registration, for every catalogue and every list;
* `get?_runAll_of_some`: what is registered stays registered, whatever is asked afterwards.
-/

namespace Cooling.Catalogue

variable {catalogue next larger other : Catalogue} {behaviour : Behaviour}
  {behaviours before after order : List Behaviour} {name : String} {make : Maker} {e : ActionError}

/-! ## 1. Extensions -/

/-- **A catalogue extended by behaviours** has its own entries and theirs, and no others. -/
def Extends (catalogue : Catalogue) (behaviours : List Behaviour) (larger : Catalogue) : Prop :=
  ∀ name make, larger.makers.get? name = some make ↔
    catalogue.makers.get? name = some make ∨ (name, make) ∈ behaviours.map entryOf

theorem extends_nil (catalogue : Catalogue) : Extends catalogue [] catalogue := by
  intro name make
  simp

theorem Extends.append (h : Extends catalogue before next) (hnext : Extends next after larger) :
    Extends catalogue (before ++ after) larger := by
  intro name make
  rw [hnext, h, List.map_append, List.mem_append, or_assoc]

/-- The order of the behaviours does not matter. -/
theorem Extends.perm (h : Extends catalogue behaviours larger) (horder : order.Perm behaviours) :
    Extends catalogue order larger := by
  intro name make
  rw [h, (horder.map entryOf).mem_iff]

/-- There is one catalogue that extends another by given behaviours. -/
theorem Extends.unique (h : Extends catalogue behaviours larger)
    (hother : Extends catalogue behaviours other) : larger = other := by
  obtain ⟨makers⟩ := larger
  obtain ⟨makers'⟩ := other
  congr 1
  refine Table.ext_get? fun name => Option.ext fun make => ?_
  exact (h name make).trans (hother name make).symm

theorem contains_iff_exists : catalogue.contains name = true ↔
    ∃ make, catalogue.makers.get? name = some make := Option.isSome_iff_exists

theorem mem_map_entryOf_iff : (∃ make, (name, make) ∈ behaviours.map entryOf) ↔
    name ∈ behaviours.map (·.name) := by
  simp only [List.mem_map, entryOf, Prod.mk.injEq]
  constructor
  · rintro ⟨make, behaviour, hmem, hname, -⟩
    exact ⟨behaviour, hmem, hname⟩
  · rintro ⟨behaviour, hmem, hname⟩
    exact ⟨behaviour.make, behaviour, hmem, hname, rfl⟩

theorem Extends.contains_iff (h : Extends catalogue behaviours larger) :
    larger.contains name = true ↔
      catalogue.contains name = true ∨ name ∈ behaviours.map (·.name) := by
  simp only [contains_iff_exists, ← mem_map_entryOf_iff, h name, exists_or]

/-- A behaviour whose name is free extends a catalogue by itself. -/
theorem extends_insert (hfree : ¬ catalogue.contains behaviour.name = true) :
    Extends catalogue [behaviour] ⟨catalogue.makers.insert behaviour.name behaviour.make⟩ := by
  intro name make
  rw [Table.get?_insert, List.map_singleton, List.mem_singleton, entryOf, Prod.mk.injEq]
  by_cases hname : name = behaviour.name
  · subst hname
    have hnone : catalogue.makers.get? behaviour.name = none := by
      simpa [Catalogue.contains, Table.contains] using hfree
    simp [hnone, eq_comm]
  · simp [hname]

/-! ## 2. What is refused -/

/-- **A list of behaviours is accepted** if their names are not empty, pairwise distinct and new
to the catalogue. -/
structure Accepts (catalogue : Catalogue) (behaviours : List Behaviour) : Prop where
  named : ∀ behaviour ∈ behaviours, behaviour.name ≠ ""
  distinct : (behaviours.map (·.name)).Nodup
  free : ∀ behaviour ∈ behaviours, ¬ catalogue.contains behaviour.name = true

/-- **A behaviour is refused** after others if it has no name, or a name that the catalogue or one
of the others has. -/
inductive Refuses (catalogue : Catalogue) (before : List Behaviour) (behaviour : Behaviour) :
    ActionError → Prop where
  | emptyName (h : behaviour.name = "") : Refuses catalogue before behaviour .emptyName
  | taken (hname : behaviour.name ≠ "")
      (h : catalogue.contains behaviour.name = true ∨ behaviour.name ∈ before.map (·.name)) :
      Refuses catalogue before behaviour (.alreadyRegistered behaviour.name)

theorem accepts_nil (catalogue : Catalogue) : Accepts catalogue [] := ⟨nofun, .nil, nofun⟩

theorem Accepts.perm (h : Accepts catalogue behaviours) (horder : order.Perm behaviours) :
    Accepts catalogue order where
  named other hother := h.named other (horder.mem_iff.mp hother)
  distinct := (horder.map _).nodup_iff.mpr h.distinct
  free other hother := h.free other (horder.mem_iff.mp hother)

theorem not_refuses_iff : (∀ e, ¬ Refuses catalogue before behaviour e) ↔
    behaviour.name ≠ "" ∧ ¬ catalogue.contains behaviour.name = true ∧
      behaviour.name ∉ before.map (·.name) := by
  constructor
  · intro h
    have hname : behaviour.name ≠ "" := fun hname => h _ (.emptyName hname)
    exact ⟨hname, fun hold => h _ (.taken hname (.inl hold)),
      fun hbefore => h _ (.taken hname (.inr hbefore))⟩
  · rintro ⟨hname, hold, hbefore⟩ e he
    cases he with
    | emptyName h => exact hname h
    | taken _ h => exact h.elim hold hbefore

/-- One more behaviour is accepted exactly if nothing refuses it. -/
theorem accepts_concat_iff : Accepts catalogue (before ++ [behaviour]) ↔
    Accepts catalogue before ∧ ∀ e, ¬ Refuses catalogue before behaviour e := by
  rw [not_refuses_iff]
  constructor
  · rintro ⟨hnamed, hdistinct, hfree⟩
    simp only [List.forall_mem_append, List.forall_mem_singleton] at hnamed hfree
    rw [List.map_append, List.map_singleton, List.nodup_append_comm, List.singleton_append,
      List.nodup_cons] at hdistinct
    exact ⟨⟨hnamed.1, hdistinct.2, hfree.1⟩, hnamed.2, hfree.2, hdistinct.1⟩
  · rintro ⟨⟨hnamed, hdistinct, hfree⟩, hname, hold, hbefore⟩
    refine ⟨?_, ?_, ?_⟩
    · simpa only [List.forall_mem_append, List.forall_mem_singleton] using ⟨hnamed, hname⟩
    · rw [List.map_append, List.map_singleton, List.nodup_append_comm, List.singleton_append,
        List.nodup_cons]
      exact ⟨hbefore, hdistinct⟩
    · simpa only [List.forall_mem_append, List.forall_mem_singleton] using ⟨hfree, hold⟩

/-- **A list stops** at the first behaviour that is refused, after those that are accepted. -/
def StopsAfter (catalogue : Catalogue) (behaviours before : List Behaviour) (e : ActionError) :
    Prop :=
  ∃ behaviour after, behaviours = before ++ behaviour :: after ∧
    Accepts catalogue before ∧ Refuses catalogue before behaviour e

/-- A list that is not accepted stops somewhere. -/
theorem exists_stopsAfter (h : ¬ Accepts catalogue behaviours) :
    ∃ before e, StopsAfter catalogue behaviours before e := by
  induction behaviours using List.reverseRecOn with
  | nil => exact absurd (accepts_nil catalogue) h
  | append_singleton behaviours behaviour ih =>
    by_cases hbefore : Accepts catalogue behaviours
    · rw [accepts_concat_iff, not_and, not_forall] at h
      obtain ⟨e, he⟩ := h hbefore
      exact ⟨behaviours, e, behaviour, [], rfl, hbefore, not_not.mp he⟩
    · obtain ⟨before, e, refused, after, rfl, haccepts, hrefuses⟩ := ih hbefore
      exact ⟨before, e, refused, after ++ [behaviour], by simp, haccepts, hrefuses⟩

/-! ## 3. Registering -/

theorem value_register (catalogue : Catalogue) (behaviour : Behaviour) :
    (catalogue.register behaviour).run.value =
      if behaviour.name = "" then .error .emptyName
      else if catalogue.contains behaviour.name then .error (.alreadyRegistered behaviour.name)
      else .ok ⟨catalogue.makers.insert behaviour.name behaviour.make⟩ :=
  value_registerMaker catalogue behaviour.name behaviour.make

/-- The rest of an accepted list is accepted once its first behaviour is registered. -/
theorem Accepts.tail (h : Accepts catalogue (behaviour :: behaviours))
    (hnext : Extends catalogue [behaviour] next) : Accepts next behaviours := by
  obtain ⟨hnamed, hdistinct, hfree⟩ := h
  rw [List.map_cons, List.nodup_cons] at hdistinct
  refine ⟨fun other hother => hnamed other (List.mem_cons_of_mem _ hother), hdistinct.2, ?_⟩
  intro other hother htaken
  rcases hnext.contains_iff.mp htaken with hold | hname
  · exact hfree other (List.mem_cons_of_mem _ hother) hold
  · -- it would have the name of the first one, which no other of the list has
    rw [List.map_singleton, List.mem_singleton] at hname
    exact hdistinct.1 (hname ▸ List.mem_map_of_mem hother)

/-- **An accepted list** is registered as a whole. -/
theorem registerAll_of_accepts (h : Accepts catalogue behaviours) :
    ∃ larger, (catalogue.registerAll behaviours).value = (larger, none) ∧
      Extends catalogue behaviours larger := by
  induction behaviours generalizing catalogue with
  | nil => exact ⟨catalogue, rfl, extends_nil catalogue⟩
  | cons behaviour behaviours ih =>
    have hname := h.named behaviour List.mem_cons_self
    have hfree := h.free behaviour List.mem_cons_self
    have hnext := extends_insert hfree
    obtain ⟨larger, hvalue, hlarger⟩ := ih (h.tail hnext)
    refine ⟨larger, ?_, hnext.append hlarger⟩
    rw [value_registerAll_cons, value_register, if_neg hname, if_neg hfree]
    exact hvalue

/-- After behaviours that are registered the rest is registered in what they leave. -/
theorem registerAll_append (h : (catalogue.registerAll before).value = (larger, none)) :
    (catalogue.registerAll (before ++ after)).value = (larger.registerAll after).value := by
  induction before generalizing catalogue with
  | nil =>
    cases h
    rfl
  | cons behaviour before ih =>
    rw [value_registerAll_cons] at h
    rw [List.cons_append, value_registerAll_cons]
    cases hregister : (catalogue.register behaviour).run.value with
    | error e =>
      rw [hregister] at h
      cases h
    | ok next =>
      rw [hregister] at h
      exact ih h

/-- **A list that stops** leaves the catalogue extended by the behaviours before the refused
one. -/
theorem registerAll_of_stopsAfter (h : StopsAfter catalogue behaviours before e) :
    ∃ larger, (catalogue.registerAll behaviours).value = (larger, some e) ∧
      Extends catalogue before larger := by
  obtain ⟨behaviour, after, rfl, hbefore, hrefuses⟩ := h
  obtain ⟨larger, hvalue, hlarger⟩ := registerAll_of_accepts hbefore
  refine ⟨larger, ?_, hlarger⟩
  rw [registerAll_append hvalue, value_registerAll_cons, value_register]
  cases hrefuses with
  | emptyName hname => rw [if_pos hname]
  | taken hname htaken =>
    have hcontains : larger.contains behaviour.name = true := hlarger.contains_iff.mpr htaken
    rw [if_neg hname, if_pos hcontains]

theorem registerAll_eq_none_iff :
    (catalogue.registerAll behaviours).value.2 = none ↔ Accepts catalogue behaviours := by
  by_cases h : Accepts catalogue behaviours
  · obtain ⟨larger, hvalue, -⟩ := registerAll_of_accepts h
    simp [hvalue, h]
  · obtain ⟨before, e, hstops⟩ := exists_stopsAfter h
    obtain ⟨larger, hvalue, -⟩ := registerAll_of_stopsAfter hstops
    simp [hvalue, h]

theorem registerAll_eq_some_iff :
    (catalogue.registerAll behaviours).value.2 = some e ↔
      ∃ before, StopsAfter catalogue behaviours before e := by
  constructor
  · intro hsome
    have h : ¬ Accepts catalogue behaviours := by
      rw [← registerAll_eq_none_iff, hsome]
      exact Option.some_ne_none e
    obtain ⟨before, e', hstops⟩ := exists_stopsAfter h
    obtain ⟨larger, hvalue, -⟩ := registerAll_of_stopsAfter hstops
    rw [hvalue] at hsome
    cases hsome
    exact ⟨before, hstops⟩
  · rintro ⟨before, hstops⟩
    obtain ⟨larger, hvalue, -⟩ := registerAll_of_stopsAfter hstops
    rw [hvalue]

/-- Whatever a list comes to, each entry that was there keeps its maker. -/
theorem get?_registerAll_of_some (h : catalogue.makers.get? name = some make)
    (behaviours : List Behaviour) :
    (catalogue.registerAll behaviours).value.1.makers.get? name = some make := by
  by_cases haccepts : Accepts catalogue behaviours
  · obtain ⟨larger, hvalue, hlarger⟩ := registerAll_of_accepts haccepts
    rw [hvalue]
    exact (hlarger name make).mpr (.inl h)
  · obtain ⟨before, e, hstops⟩ := exists_stopsAfter haccepts
    obtain ⟨larger, hvalue, hlarger⟩ := registerAll_of_stopsAfter hstops
    rw [hvalue]
    exact (hlarger name make).mpr (.inl h)

/-- An accepted list comes to the same in every order. -/
theorem registerAll_perm (h : Accepts catalogue behaviours) (horder : order.Perm behaviours) :
    (catalogue.registerAll order).value = (catalogue.registerAll behaviours).value := by
  obtain ⟨larger, hvalue, hlarger⟩ := registerAll_of_accepts h
  obtain ⟨larger', hvalue', hlarger'⟩ := registerAll_of_accepts (h.perm horder)
  rw [hvalue, hvalue', hlarger'.unique (hlarger.perm horder)]

/-- **A list of behaviours is registered up to the first that is refused.**

It succeeds exactly if the names are not empty, pairwise distinct and new to the catalogue, and
then the catalogue is extended by all of them, the same for every order of the list.  Otherwise it
fails with the error of the first behaviour that has no name, or a name that is taken or stood
before, and the catalogue is extended by exactly those before it.  Either way each entry that was
there keeps its maker.  In particular the built-in behaviours cannot be registered where one of
their names is taken, and nothing changes when that is tried. -/
theorem registerAll_up_to_refused (catalogue : Catalogue) (behaviours : List Behaviour) :
    -- success, in every order
    ((catalogue.registerAll behaviours).value.2 = none ↔ Accepts catalogue behaviours) ∧
    (Accepts catalogue behaviours →
      Extends catalogue behaviours (catalogue.registerAll behaviours).value.1 ∧
      ∀ order, order.Perm behaviours →
        (catalogue.registerAll order).value = (catalogue.registerAll behaviours).value) ∧
    -- failure, at the first behaviour that is refused
    (∀ e, (catalogue.registerAll behaviours).value.2 = some e ↔
      ∃ before, StopsAfter catalogue behaviours before e) ∧
    (∀ before e, StopsAfter catalogue behaviours before e →
      Extends catalogue before (catalogue.registerAll behaviours).value.1) ∧
    -- what was there, whatever the list comes to
    (∀ name make, catalogue.makers.get? name = some make →
      (catalogue.registerAll behaviours).value.1.makers.get? name = some make) ∧
    ∀ behaviour ∈ builtIn, catalogue.contains behaviour.name = true →
      (catalogue.registerAll builtIn).value =
        (catalogue, some (.alreadyRegistered behaviour.name)) := by
  refine ⟨registerAll_eq_none_iff, ?_, fun e => registerAll_eq_some_iff, ?_, ?_, ?_⟩
  · intro h
    obtain ⟨larger, hvalue, hlarger⟩ := registerAll_of_accepts h
    refine ⟨?_, fun order => registerAll_perm h⟩
    rw [hvalue]
    exact hlarger
  · intro before e hstops
    obtain ⟨larger, hvalue, hlarger⟩ := registerAll_of_stopsAfter hstops
    rw [hvalue]
    exact hlarger
  · intro name make hold
    exact get?_registerAll_of_some hold behaviours
  · intro behaviour hmem htaken
    obtain rfl := List.mem_singleton.mp hmem
    have hname : NetIncrease.behaviour.name ≠ "" := by decide
    rw [builtIn, value_registerAll_cons, value_register, if_neg hname, if_pos htaken]

/-- A behaviour that is listed twice is refused the second time. -/
example : (({} : Catalogue).registerAll [NetIncrease.behaviour, NetIncrease.behaviour]).value.2 =
    some (.alreadyRegistered "net_target_increase") := rfl

/-! ## 4. What is registered stays -/

/-- A behaviour that is registered under a name stands there. -/
theorem get?_registerAs (h : (catalogue.registerAs behaviour name).run.value = .ok larger) :
    larger.makers.get? name = some behaviour.make := by
  rw [registerAs, value_registerMaker] at h
  split at h
  · cases h
  · split at h
    · cases h
    · cases h
      rw [Table.get?_insert, if_pos rfl]

/-- **One request** leaves every entry as it is. -/
theorem get?_serve_of_some (h : catalogue.makers.get? name = some make) (request : Request) :
    (catalogue.serve request).value.2.makers.get? name = some make := by
  cases hclaim : request.claim? with
  | none =>
    cases request with
    | register => cases hclaim
    | registerAs => cases hclaim
    | resolve => exact h
  | some entry =>
    obtain ⟨name', make'⟩ := entry
    rw [serve_eq_settle hclaim, settle_registerMaker]
    split
    · exact h
    · split
      · exact h
      · rename_i hfree
        have hne : name ≠ name' := by
          rintro rfl
          exact hfree (contains_iff_exists.mpr ⟨make, h⟩)
        rw [Table.get?_insert, if_neg hne]
        exact h

/-- **Any requests** leave every entry as it is. -/
theorem get?_runAll_of_some (h : catalogue.makers.get? name = some make)
    (requests : List Request) :
    (Logged.runAll serve catalogue requests).value.2.makers.get? name = some make :=
  Logged.runAll_preserves serve (P := fun catalogue => catalogue.makers.get? name = some make)
    (fun _ request h => get?_serve_of_some h request) requests h

end Cooling.Catalogue
