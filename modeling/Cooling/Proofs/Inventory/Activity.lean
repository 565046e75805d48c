import Cooling.Inventory
import Cooling.Proofs.Settings.Profiles
import Mathlib.Data.List.Basic
import Mathlib.Data.List.Forall2

/-!
# Which entities are active

An entity with profiles is active while one of them is, one without profiles always is.  Both
selections from an inventory, of its fans and of its events, are of this kind (`Gates`), so what
there is to say about them is said once for both.  The profiles that are active count as a set: a
list of them matters only by the names in it, and so do the profiles of an entity.

* `profilesMatch_iff`, `profilesMatch_congr`: what is compared, and that it is names alone;
* `gates_filter`: what holds of a selection by profiles, whatever is selected;
* `profiles_gate_entities`: the selections from an inventory, for configured profiles and for
  profiles of entities that are written otherwise.
-/

namespace Cooling

/-- Two lists have the same profiles in them, in any order and any number. -/
def SameProfiles (profiles profiles' : List String) : Prop :=
  ∀ profile, profile ∈ profiles ↔ profile ∈ profiles'

namespace Entity

variable {profiles profiles' active active' : List String}

/-! ## 1. One entity -/

theorem profilesMatch_iff : profilesMatch profiles active = true ↔
    profiles = [] ∨ ∃ profile ∈ profiles, profile ∈ active := by
  simp [profilesMatch]

/-- **Names alone are compared**, those of the entity and those that are active. -/
theorem profilesMatch_congr (hprofiles : SameProfiles profiles profiles')
    (hactive : SameProfiles active active') :
    profilesMatch profiles active = profilesMatch profiles' active' := by
  have hnil : profiles = [] ↔ profiles' = [] := by
    simp only [List.eq_nil_iff_forall_not_mem]
    exact forall_congr' fun name => not_congr (hprofiles name)
  rw [Bool.eq_iff_iff, profilesMatch_iff, profilesMatch_iff, hnil]
  refine or_congr_right (exists_congr fun profile => ?_)
  rw [hprofiles profile, hactive profile]

theorem profilesMatch_append (profiles active active' : List String) :
    profilesMatch profiles (active ++ active') =
      (profilesMatch profiles active || profilesMatch profiles active') := by
  rw [Bool.eq_iff_iff, Bool.or_eq_true, profilesMatch_iff, profilesMatch_iff, profilesMatch_iff]
  constructor
  · rintro (hnil | ⟨profile, hmem, hactive⟩)
    · exact .inl (.inl hnil)
    · rcases List.mem_append.mp hactive with h | h
      · exact .inl (.inr ⟨profile, hmem, h⟩)
      · exact .inr (.inr ⟨profile, hmem, h⟩)
  · rintro ((hnil | ⟨profile, hmem, hactive⟩) | (hnil | ⟨profile, hmem, hactive⟩))
    · exact .inl hnil
    · exact .inr ⟨profile, hmem, List.mem_append_left _ hactive⟩
    · exact .inl hnil
    · exact .inr ⟨profile, hmem, List.mem_append_right _ hactive⟩

/-- A profile more makes nothing inactive. -/
theorem profilesMatch_mono (h : active ⊆ active') (hmatch : profilesMatch profiles active = true) :
    profilesMatch profiles active' = true := by
  rw [profilesMatch_iff] at hmatch ⊢
  rcases hmatch with hnil | ⟨profile, hmem, hactive⟩
  · exact .inl hnil
  · exact .inr ⟨profile, hmem, h hactive⟩

/-! ## 2. Selections -/

/-- **Profiles gate entities**: the selection keeps their order, an entity is selected by two lists
together exactly if it is by one of them, one without profiles is selected by every list and one
with profiles not by the empty list, and of a list only its names matter. -/
structure Gates {α : Type} (base : α → Base) (all : List α) (select : List String → List α) :
    Prop where
  sublist : ∀ active, (select active).Sublist all
  mem_iff : ∀ active x, x ∈ select active ↔
    x ∈ all ∧ ((base x).profiles = [] ∨ ∃ profile ∈ (base x).profiles, profile ∈ active)
  mem_append_iff : ∀ active active' x,
    x ∈ select (active ++ active') ↔ x ∈ select active ∨ x ∈ select active'
  grows : ∀ active active', active ⊆ active' → (select active).Sublist (select active')
  always : ∀ x ∈ all, (base x).profiles = [] → ∀ active, x ∈ select active
  never : ∀ x, (base x).profiles ≠ [] → x ∉ select []
  congr : ∀ active active', SameProfiles active active' → select active = select active'

variable {α : Type} {all : List α}

theorem gates_filter (base : α → Base) (all : List α) :
    Gates base all fun active => all.filter fun x => (base x).isActive active := by
  have hmem (active : List String) (x : α) :
      x ∈ all.filter (fun x => (base x).isActive active) ↔
        x ∈ all ∧ ((base x).profiles = [] ∨ ∃ profile ∈ (base x).profiles, profile ∈ active) := by
    rw [List.mem_filter, Base.isActive, profilesMatch_iff]
  refine ⟨?_, hmem, ?_, ?_, ?_, ?_, ?_⟩
  · intro active
    exact List.filter_sublist
  · intro active active' x
    simp only [List.mem_filter, Base.isActive, profilesMatch_append, Bool.or_eq_true, and_or_left]
  · intro active active' h
    exact List.monotone_filter_right all fun x => profilesMatch_mono h
  · intro x hx hnil active
    exact (hmem active x).mpr ⟨hx, .inl hnil⟩
  · intro x hne hx
    rcases ((hmem [] x).mp hx).2 with hnil | ⟨profile, -, hactive⟩
    · exact hne hnil
    · cases hactive
  · intro active active' h
    exact List.filter_congr fun x _ => profilesMatch_congr (fun _ => Iff.rfl) h

/-- Where the profiles of entities are written otherwise, the same ones are selected. -/
theorem forall₂_filter_isActive (base : α → Base) {R : α → α → Prop}
    (hR : ∀ x y, R x y → SameProfiles (base x).profiles (base y).profiles) {others : List α}
    (h : List.Forall₂ R all others) (active : List String) :
    List.Forall₂ R (all.filter fun x => (base x).isActive active)
      (others.filter fun x => (base x).isActive active) := by
  refine List.rel_filter ?_ h
  intro x y hxy
  exact Bool.eq_iff_iff.mp (profilesMatch_congr (hR x y hxy) fun _ => Iff.rfl)

end Entity

/-! ## 3. The selections from an inventory -/

/-- The set that is made of configured profiles has their names. -/
theorem Settings.sameProfiles_activeProfiles (settings : Settings) :
    SameProfiles settings.activeProfiles settings.profiles := by
  intro name
  rw [activeProfiles, List.mem_eraseDups, List.mem_mergeSort]

/-- The same fan, with its profiles in another order or another number. -/
def Fan.Relisted (fan other : Fan) : Prop :=
  other = { fan with profiles := other.profiles } ∧ SameProfiles fan.profiles other.profiles

/-- The same event, with its profiles in another order or another number. -/
def Event.Relisted (event other : Event) : Prop :=
  other = { event with profiles := other.profiles } ∧ SameProfiles event.profiles other.profiles

namespace Inventory

open Entity (Gates gates_filter forall₂_filter_isActive)

theorem gates_activeFans (inventory : Inventory) :
    Gates Fan.toBase inventory.fans inventory.activeFans :=
  gates_filter Fan.toBase inventory.fans

theorem gates_activeEvents (inventory : Inventory) :
    Gates Event.toBase inventory.events inventory.activeEvents :=
  gates_filter Event.toBase inventory.events

/-- Settings with the same profiles have sets with the same names. -/
theorem sameProfiles_of_settings {settings settings' : Settings}
    (h : SameProfiles settings.profiles settings'.profiles) :
    SameProfiles settings.activeProfiles settings'.activeProfiles := by
  intro name
  rw [settings.sameProfiles_activeProfiles name, settings'.sameProfiles_activeProfiles name]
  exact h name

/-- **Profiles gate the fans and the events of an inventory.**  Settings whose profiles have the
same names select the same of both, be the profiles listed in the variable or given by the file,
and the same ones are selected where fans and events have their own profiles in another order or
another number. -/
theorem profiles_gate_entities (inventory : Inventory) :
    Gates Fan.toBase inventory.fans inventory.activeFans ∧
    Gates Event.toBase inventory.events inventory.activeEvents ∧
    (∀ (base : Entity.Base) (active active' : List String),
      base.isActive (active ++ active') = (base.isActive active || base.isActive active')) ∧
    (∀ (base other : Entity.Base) (active : List String),
      SameProfiles base.profiles other.profiles → base.isActive active = other.isActive active) ∧
    -- configured profiles
    (∀ settings settings' : Settings, SameProfiles settings.profiles settings'.profiles →
      inventory.activeFans settings.activeProfiles =
        inventory.activeFans settings'.activeProfiles ∧
      inventory.activeEvents settings.activeProfiles =
        inventory.activeEvents settings'.activeProfiles) ∧
    (∀ file value settings, Settings.load file (.ofVariables value) = .ok settings →
      (∀ s, value "FANCTL_PROFILES" = .text s → settings.profiles = Settings.profileList s) ∧
      ((value "FANCTL_PROFILES").text? = none →
        ∃ given, Settings.Gives file given ∧ settings.profiles = given.profiles.getD [])) ∧
    -- profiles of entities
    ∀ other : Inventory, List.Forall₂ Fan.Relisted inventory.fans other.fans →
      List.Forall₂ Event.Relisted inventory.events other.events →
      ∀ active,
        List.Forall₂ Fan.Relisted (inventory.activeFans active) (other.activeFans active) ∧
        List.Forall₂ Event.Relisted (inventory.activeEvents active)
          (other.activeEvents active) := by
  refine ⟨gates_activeFans inventory, gates_activeEvents inventory, ?_, ?_, ?_, ?_, ?_⟩
  · intro base active active'
    exact Entity.profilesMatch_append base.profiles active active'
  · intro base other active h
    exact Entity.profilesMatch_congr h fun _ => Iff.rfl
  · intro settings settings' h
    have hsets := sameProfiles_of_settings h
    exact ⟨(gates_activeFans inventory).congr _ _ hsets,
      (gates_activeEvents inventory).congr _ _ hsets⟩
  · intro file value settings h
    exact Settings.profiles_of_load h
  · intro other hfans hevents active
    exact ⟨forall₂_filter_isActive Fan.toBase (fun _ _ h => h.2) hfans active,
      forall₂_filter_isActive Event.toBase (fun _ _ h => h.2) hevents active⟩

end Inventory
end Cooling
