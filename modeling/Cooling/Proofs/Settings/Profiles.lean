import Cooling.Proofs.Settings
import Cooling.Proofs.Text.Words

/-!
# Profiles listed in a text

The active profiles can be listed in a variable, with commas between them.  Such a list has the
names between its commas, without the blanks around them and without those that are empty; so
what it yields are words in the sense of `Text.IsWord`, and these can be joined by commas and
read again.  None of them is empty, and so the check for empty names is for the file alone.

* `profileList_append`, `isProfileName_of_mem`, `profileList_intercalate`: what a list yields;
* `profiles_of_load`: where the profiles of settings come from;
* `profileList_laws`: the laws of lists, and what they mean for loading.
-/

namespace Cooling.Settings

variable {file : FileRead} {value : String → Variable} {settings : Settings} {given : Given}
  {s name : String}

/-! ## 1. Names in a list -/

/-- **The name of a profile** that a list can yield: it is not empty, has no comma in it and
neither starts nor ends with a blank character. -/
def IsProfileName (name : String) : Prop := Text.IsWord ',' name.toList

/-- Two lists that are joined by a comma yield the names of both. -/
theorem profileList_append (s t : String) :
    profileList (s ++ "," ++ t) = profileList s ++ profileList t := by
  have htext : (s ++ "," ++ t).toList = s.toList ++ ',' :: t.toList := by
    simp [String.toList_append]
  rw [profileList, htext, Text.words_append, List.map_append]
  rfl

theorem isProfileName_of_mem (h : name ∈ profileList s) : IsProfileName name := by
  obtain ⟨word, hword, rfl⟩ := List.mem_map.mp h
  rw [IsProfileName, String.toList_ofList]
  exact Text.isWord_of_mem_words hword

/-- Names that are joined by commas are yielded again. -/
theorem profileList_intercalate {names : List String} (h : ∀ name ∈ names, IsProfileName name) :
    profileList (",".intercalate names) = names := by
  have hwords : ∀ word ∈ names.map String.toList, Text.IsWord ',' word := by
    intro word hword
    obtain ⟨name, hname, rfl⟩ := List.mem_map.mp hword
    exact h name hname
  have hback : (names.map String.toList).map String.ofList = names := by
    simp [Function.comp_def]
  have hcomma : ",".toList = [','] := rfl
  rw [profileList, String.toList_intercalate, hcomma, Text.words_intercalate hwords, hback]

/-! ## 2. Profiles of settings -/

theorem profiles_layered (h : value "FANCTL_PROFILES" = .text s) :
    (layered value given).profiles = profileList s := by
  simp [layered, h, Variable.text?]

theorem eq_of_checked {checked : Settings} (h : settings.checked = .ok checked) :
    settings = checked := by
  rw [checked_eq] at h
  split_ifs at h
  cases h
  rfl

/-- **The profiles of settings** are those that the variable lists, and if it is no text those
that the file gives. -/
theorem profiles_of_load (h : load file (.ofVariables value) = .ok settings) :
    (∀ s, value "FANCTL_PROFILES" = .text s → settings.profiles = profileList s) ∧
    ((value "FANCTL_PROFILES").text? = none →
      ∃ given, Gives file given ∧ settings.profiles = given.profiles.getD []) := by
  rcases gives_or_fails file with ⟨given, hgives⟩ | ⟨reason, rfl⟩ |
      ⟨content, rfl, hmalformed⟩
  · rw [load_of_gives hgives] at h
    obtain rfl := eq_of_checked h
    refine ⟨fun s hs => profiles_layered hs, fun hnone => ⟨given, hgives, ?_⟩⟩
    simp [layered, hnone]
  · cases h
  · rw [load, ofFile_of_malformed hmalformed] at h
    cases h

/-- No profile that a variable lists has an empty name. -/
theorem load_ne_emptyProfile (file : FileRead) (h : value "FANCTL_PROFILES" = .text s) :
    load file (.ofVariables value) ≠ .error (.invalid .emptyProfile) := by
  rcases gives_or_fails file with ⟨given, hgives⟩ | ⟨reason, rfl⟩ |
      ⟨content, rfl, hmalformed⟩
  · have hnames : "" ∉ (layered value given).profiles := by
      rw [profiles_layered h]
      exact empty_notMem_profileList s
    rw [load_of_gives hgives, checked_eq, if_neg hnames]
    split_ifs <;> simp
  · intro he
    cases he
  · rw [load, ofFile_of_malformed hmalformed]
    intro he
    cases he

/-- **Lists of profiles.**  A list that is joined from two yields the names of the one and then
those of the other.  What any list yields are names of profiles, and any names of profiles are
yielded by the list that they are joined to, so nothing changes when a list is read, joined and
read again.  Settings whose profiles are listed in the variable are never refused for an empty
name. -/
theorem profileList_laws :
    (∀ s t : String, profileList (s ++ "," ++ t) = profileList s ++ profileList t) ∧
    (∀ s : String, ∀ name ∈ profileList s, IsProfileName name) ∧
    (∀ names : List String, (∀ name ∈ names, IsProfileName name) →
      profileList (",".intercalate names) = names) ∧
    (∀ s : String, profileList (",".intercalate (profileList s)) = profileList s) ∧
    ∀ (file : FileRead) (value : String → Variable) (s : String),
      value "FANCTL_PROFILES" = .text s →
      load file (.ofVariables value) ≠ .error (.invalid .emptyProfile) := by
  refine ⟨profileList_append, ?_, ?_, ?_, ?_⟩
  · intro s name hname
    exact isProfileName_of_mem hname
  · intro names hnames
    exact profileList_intercalate hnames
  · intro s
    exact profileList_intercalate fun name hname => isProfileName_of_mem hname
  · intro file value s hs
    exact load_ne_emptyProfile file hs

/-- Blanks around names and commas without names between them do not matter. -/
example : profileList "air_cooled, water_cooled,," = ["air_cooled", "water_cooled"] := by cbv

end Cooling.Settings
