import Cooling.Entity.Field
import Cooling.Proofs.First

/-!
# What a field must hold

The fields of an entity are read one after the other, each by a rule: the shape of its value,
whether it may be left out and whether there must be something in it.  A field that breaks its
rule does so in one way, and that way is the error of its reader.  A field that keeps its rule
is read as what stands there, nothing added and nothing left out.

* `FieldFault`: how a field breaks a rule, and what is reported then;
* `requiredString_eq_ok_iff`, `requiredStrings_eq_ok_iff`, `optionalStrings_eq_ok_iff`: what is
  read;
* `decides_requiredString`, `decides_requiredStrings`, `decides_optionalStrings`: each reader
  fails as its rule is broken;
* `decides_filled`: so does a reader together with a check that there is something in what it
  has read.
-/

namespace Cooling

/-! ## 1. Rules and how they are broken -/

/-- The array of some strings. -/
def Json.ofStrings (ss : List String) : Json := .array (ss.map .string)

/-- A value is of a shape.  Of an array of objects nothing is asked here but that it is an
array: its items are entities of their own. -/
def Shape.Holds : Shape → Json → Prop
  | .string, j => ∃ s, j = .string s
  | .strings, j => ∃ ss, j = .ofStrings ss
  | .objects, j => ∃ items, j = .array items

/-- The value of a shape that has nothing in it. -/
def Shape.emptyValue : Shape → Json
  | .string => .string ""
  | .strings => .array []
  | .objects => .array []

namespace Entity

/-- What a field must hold: a value of a shape, which may be left out and may be empty only
where the rule says so. -/
structure Rule where
  shape : Shape
  mayBeAbsent : Bool := false
  mayBeEmpty : Bool := true

namespace Rule

/-- A string. -/
abbrev string : Rule := { shape := .string }

/-- A string that must have a character. -/
abbrev filledString : Rule := { shape := .string, mayBeEmpty := false }

/-- An array of strings that must have an item. -/
abbrev filledStrings : Rule := { shape := .strings, mayBeEmpty := false }

/-- An array of strings that may be left out. -/
abbrev optionalStrings : Rule := { shape := .strings, mayBeAbsent := true }

/-- An array of objects that must have an item. -/
abbrev filledObjects : Rule := { shape := .objects, mayBeEmpty := false }

end Rule

/-- A rule admits values of its shape.  To be `null` is to be left out. -/
def Rule.Admits (rule : Rule) (j : Json) : Prop :=
  rule.shape.Holds j ∨ rule.mayBeAbsent = true ∧ j = .null

/-- **A field breaks its rule**: it is absent, it is of the wrong shape, or it is empty.  The
value is `none` where the object has no such key. -/
inductive FieldFault (entity key : String) (rule : Rule) : Option Json → EntityError → Prop where
  | missing (h : rule.mayBeAbsent = false) :
      FieldFault entity key rule none (.missingField entity key)
  | invalid {j : Json} (h : ¬ rule.Admits j) :
      FieldFault entity key rule (some j) (.invalidField entity key rule.shape)
  | empty (h : rule.mayBeEmpty = false) :
      FieldFault entity key rule (some rule.shape.emptyValue) (.emptyField entity key)

variable {entity key : String} {members : Json.Members} {e : EntityError} {rule : Rule} {j : Json}

theorem fieldFault_none_iff :
    FieldFault entity key rule none e ↔
      rule.mayBeAbsent = false ∧ e = .missingField entity key := by
  constructor
  · rintro ⟨h⟩
    exact ⟨h, rfl⟩
  · rintro ⟨h, rfl⟩
    exact .missing h

theorem fieldFault_some_iff :
    FieldFault entity key rule (some j) e ↔
      ¬ rule.Admits j ∧ e = .invalidField entity key rule.shape ∨
      rule.mayBeEmpty = false ∧ j = rule.shape.emptyValue ∧ e = .emptyField entity key := by
  constructor
  · intro h
    cases h with
    | invalid h => exact .inl ⟨h, rfl⟩
    | empty h => exact .inr ⟨h, rfl, rfl⟩
  · rintro (⟨h, rfl⟩ | ⟨h, rfl, rfl⟩)
    · exact .invalid h
    · exact .empty h

theorem fieldFault_string_iff :
    FieldFault entity key .string (some j) e ↔
      ¬ Shape.string.Holds j ∧ e = .invalidField entity key .string := by
  simp [fieldFault_some_iff, Rule.Admits]

/-! ## 2. Objects -/

/-- The value is an object. -/
def IsObject (j : Json) : Prop := ∃ members, j = .object members

/-- The value is no object, which no entity may be. -/
def NotAnObject (entity : String) (j : Json) (e : EntityError) : Prop :=
  ¬ IsObject j ∧ e = .notAnObject entity

theorem members_eq_ok_iff : Entity.members entity j = .ok members ↔ j = .object members := by
  cases j <;> simp [Entity.members, Json.members?]

theorem decides_members : Decides [NotAnObject entity j] (Entity.members entity j) := by
  refine .of_forall_iff fun e => ?_
  cases j <;> simp [Entity.members, Json.members?, NotAnObject, IsObject, eq_comm]

/-! ## 3. Strings -/

theorem requiredString_eq_ok_iff {s : String} :
    requiredString entity members key = .ok s ↔ members.get? key = some (.string s) := by
  rw [requiredString, required]
  cases members.get? key with
  | none => simp [bind, Except.bind]
  | some j => cases j <;> simp [bind, Except.bind, Json.string?]

theorem decides_requiredString :
    Decides [FieldFault entity key .string (members.get? key)]
      (requiredString entity members key) := by
  refine .of_forall_iff fun e => ?_
  rw [requiredString, required]
  cases members.get? key with
  | none => simp [fieldFault_none_iff, bind, Except.bind, eq_comm]
  | some j =>
    rw [fieldFault_some_iff]
    cases j <;> simp [Rule.Admits, Shape.Holds, bind, Except.bind, Json.string?, eq_comm]

/-! ## 4. Arrays of strings -/

theorem string?_eq_some_iff {s : String} : j.string? = some s ↔ j = .string s := by
  cases j <;> simp [Json.string?]

theorem mapM_string?_eq_some_iff {items : List Json} {ss : List String} :
    items.mapM Json.string? = some ss ↔ items = ss.map .string :=
  mapM_eq_some_iff_eq_map fun _ _ => string?_eq_some_iff

theorem strings_eq_ok_iff {ss : List String} :
    strings entity key j = .ok ss ↔ j = .ofStrings ss := by
  have hitems : (j.items?.bind fun items => items.mapM Json.string?) = some ss ↔
      j = .ofStrings ss := by
    cases j <;> simp [Json.items?, Json.ofStrings, mapM_string?_eq_some_iff]
  rw [strings, ← hitems]
  cases j.items?.bind fun items => items.mapM Json.string? <;> simp

theorem strings_eq_error_iff :
    strings entity key j = .error e ↔
      (¬ ∃ ss, j = .ofStrings ss) ∧ e = .invalidField entity key .strings := by
  have hok := @strings_eq_ok_iff entity key j
  simp only [← hok]
  cases h : strings entity key j with
  | ok ss => simp
  | error e' =>
    have he' : e' = .invalidField entity key .strings := by
      rw [strings] at h
      split at h
      · cases h
      · exact (Except.error.inj h).symm
    simp [he', eq_comm]

theorem requiredStrings_eq_ok_iff {ss : List String} :
    requiredStrings entity members key = .ok ss ↔ members.get? key = some (.ofStrings ss) := by
  rw [requiredStrings, required]
  cases members.get? key with
  | none => simp [bind, Except.bind]
  | some j => simp [bind, Except.bind, strings_eq_ok_iff]

theorem decides_requiredStrings :
    Decides [FieldFault entity key ⟨.strings, false, true⟩ (members.get? key)]
      (requiredStrings entity members key) := by
  refine .of_forall_iff fun e => ?_
  rw [requiredStrings, required]
  cases members.get? key with
  | none => simp [fieldFault_none_iff, bind, Except.bind, eq_comm]
  | some j =>
    simp [fieldFault_some_iff, Rule.Admits, Shape.Holds, bind, Except.bind, strings_eq_error_iff]

/-- A field that may be left out holds strings, or there are none. -/
def HoldsIfAny (value : Option Json) (ss : List String) : Prop :=
  value = some (.ofStrings ss) ∨ (value = none ∨ value = some .null) ∧ ss = []

theorem optionalStrings_eq_ok_iff {ss : List String} :
    optionalStrings entity members key = .ok ss ↔ HoldsIfAny (members.get? key) ss := by
  rw [optionalStrings]
  cases members.get? key with
  | none => simp [HoldsIfAny, eq_comm]
  | some j =>
    cases j with
    | null => simp [HoldsIfAny, Json.ofStrings, eq_comm]
    | _ => simp [HoldsIfAny, strings_eq_ok_iff]

theorem decides_optionalStrings :
    Decides [FieldFault entity key .optionalStrings (members.get? key)]
      (optionalStrings entity members key) := by
  refine .of_forall_iff fun e => ?_
  rw [optionalStrings]
  cases members.get? key with
  | none => simp [fieldFault_none_iff]
  | some j =>
    rw [fieldFault_some_iff]
    cases j with
    | null => simp [Rule.Admits]
    | _ => simp [Rule.Admits, Shape.Holds, strings_eq_error_iff]

/-! ## 5. Fields that must not be empty -/

theorem nonemptyString_eq_ok_iff {s t : String} :
    nonemptyString entity key s = .ok t ↔ t = s ∧ s ≠ "" := by
  rw [nonemptyString]
  by_cases h : s = "" <;> simp [h, eq_comm]

theorem nonemptyString_eq_error_iff {s : String} :
    nonemptyString entity key s = .error e ↔ s = "" ∧ e = .emptyField entity key := by
  rw [nonemptyString]
  by_cases h : s = "" <;> simp [h, eq_comm]

theorem nonempty_eq_ok_iff {α : Type} {items found : List α} :
    nonempty entity key items = .ok found ↔ found = items ∧ items ≠ [] := by
  rw [nonempty]
  cases items <;> simp [eq_comm]

theorem nonempty_eq_error_iff {α : Type} {items : List α} :
    nonempty entity key items = .error e ↔ items = [] ∧ e = .emptyField entity key := by
  rw [nonempty]
  cases items <;> simp [eq_comm]

/-- A field that must not be empty breaks its rule as it would if it might be, or is empty. -/
theorem fieldFault_filled_iff {shape : Shape} {value : Option Json} :
    FieldFault entity key ⟨shape, false, false⟩ value e ↔
      FieldFault entity key ⟨shape, false, true⟩ value e ∨
      value = some shape.emptyValue ∧ e = .emptyField entity key := by
  cases value with
  | none => simp [fieldFault_none_iff]
  | some j =>
    rw [fieldFault_some_iff, fieldFault_some_iff]
    simp [Rule.Admits]

/-- A reader and a check after it break one rule together. -/
theorem decides_filled {α : Type} {shape : Shape} {value : Option Json}
    {x : Except EntityError α} {check : α → Except EntityError α}
    (hx : Decides [FieldFault entity key ⟨shape, false, true⟩ value] x)
    (hcheck : ∀ e, (∃ a, x = .ok a ∧ check a = .error e) ↔
      value = some shape.emptyValue ∧ e = .emptyField entity key) :
    Decides [FieldFault entity key ⟨shape, false, false⟩ value] (x >>= check) := by
  refine .of_forall_iff fun e => ?_
  rw [bind_eq_error_iff, hx.eq_error_iff, hcheck, fieldFault_filled_iff]

/-- A string that must have a character. -/
theorem decides_filledString :
    Decides [FieldFault entity key .filledString (members.get? key)]
      (requiredString entity members key >>= nonemptyString entity key) := by
  refine decides_filled decides_requiredString fun e => ?_
  simp only [requiredString_eq_ok_iff, nonemptyString_eq_error_iff]
  constructor
  · rintro ⟨s, hs, rfl, rfl⟩
    exact ⟨hs, rfl⟩
  · rintro ⟨hs, rfl⟩
    exact ⟨"", hs, rfl, rfl⟩

/-- An array of strings that must have an item. -/
theorem decides_filledStrings :
    Decides [FieldFault entity key .filledStrings (members.get? key)]
      (requiredStrings entity members key >>= nonempty entity key) := by
  refine decides_filled decides_requiredStrings fun e => ?_
  simp only [requiredStrings_eq_ok_iff, nonempty_eq_error_iff]
  constructor
  · rintro ⟨ss, hss, rfl, rfl⟩
    exact ⟨hss, rfl⟩
  · rintro ⟨hss, rfl⟩
    exact ⟨[], hss, rfl, rfl⟩

end Entity
end Cooling
