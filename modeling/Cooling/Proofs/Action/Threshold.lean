import Cooling.Proofs.Action.Reports

/-!
# When a value asks for nothing

Whether a value is good for anything against a state is settled inside `contribution`, which
compares on its own: words with words, and otherwise doubles with doubles.  Beside it there are
the order of numbers (`compare`), the equality of values (`same`) and the test of kinds that
guards the reports (`comparable`), each with a case distinction of its own.  `contribution` calls
none of them, and with a NaN or past `2 ^ 53` it matters how each of them asks.

They agree on every pair of values, one kind of pair at a time:

* `contribution_eq_none_iff_of_numbers`: a number asks for nothing exactly if it compares as less;
* `contribution_eq_none_iff_of_alike`: a truth value or a string exactly if it is not the same;
* `asks_for_nothing_iff`: all pairs together, with what that means for a NaN and for the reports.
-/

namespace Cooling

/-! ## 1. Pairs of values -/

namespace Property

variable {a b : Property}

/-- Two truth values or two strings. -/
def Alike (a b : Property) : Prop :=
  a.kind = .bool ∧ b.kind = .bool ∨ a.kind = .string ∧ b.kind = .string

/-- Values that go together are two numbers, two truth values or two strings. -/
theorem numbers_or_alike (h : a.comparable b = true) :
    a.isNumeric = true ∧ b.isNumeric = true ∨ a.Alike b := by
  rcases comparable_iff.mp h with hnumbers | ⟨b, c, rfl, rfl⟩ | ⟨s, t, rfl, rfl⟩
  · exact .inl hnumbers
  · exact .inr (.inl ⟨rfl, rfl⟩)
  · exact .inr (.inr ⟨rfl, rfl⟩)

theorem exists_toBinary64? (h : a.isNumeric = true) : ∃ x, a.toBinary64? = some x := by
  cases a with
  | int n => exact ⟨_, rfl⟩
  | float x => exact ⟨x, rfl⟩
  | bool _ => cases h
  | string _ => cases h

theorem kind_eq_float (h : a.isNumeric = true) (hreal : a.kind ≠ .int) : a.kind = .float := by
  cases a with
  | int _ => exact absurd rfl hreal
  | float _ => rfl
  | bool _ => cases h
  | string _ => cases h

/-- Of the numbers only a NaN has no place in the order. -/
theorem unordered_iff_nan (h : a.isNumeric = true) : a.Unordered ↔ a = .float .nan := by
  constructor
  · rintro (_ | _ | _)
    · cases h
    · cases h
    · rfl
  · rintro rfl
    exact .nan

theorem compare_int_eq_lt_iff {m n : Int64} : compare (.int m) (.int n) = some .lt ↔ m < n := by
  calc
    compare (.int m) (.int n) = some .lt ↔ m.toInt < n.toInt := by
      rw [compare, Option.some.injEq, Int.compare_eq_lt]
    _ ↔ m < n := Int64.lt_iff_toInt_lt.symm

theorem compare_eq_lt_iff_below {x y : Binary64} (ha : a.toBinary64? = some x)
    (hb : b.toBinary64? = some y) (hreal : a.kind ≠ .int ∨ b.kind ≠ .int) :
    compare a b = some .lt ↔ x.below y = true := by
  rw [compare_eq_views hreal, ha, hb, Option.bind_eq_bind, Option.bind_some, Option.bind_some,
    Binary64.below, beq_iff_eq]

/-- Numbers have no order exactly if one of them is a NaN. -/
theorem compare_eq_none_iff_nan (ha : a.isNumeric = true) (hb : b.isNumeric = true) :
    compare a b = none ↔ a = .float .nan ∨ b = .float .nan := by
  rw [compare_eq_none_iff, unordered_iff_nan ha, unordered_iff_nan hb]

end Property

namespace NetIncrease

variable {rule : NetIncrease} {value : Property} {delta : UInt64}

/-! ## 2. Numbers -/

theorem wholeContribution_eq_none_iff {v s : Int64} :
    wholeContribution delta v s = none ↔ v < s := by
  constructor
  · intro h
    refine Int64.not_le.mp fun hle => ?_
    rw [wholeContribution_eq hle] at h
    cases h
  · intro h
    exact wholeContribution_of_lt h delta

theorem realContribution_eq_none_iff {v s : Binary64} :
    realContribution delta v s = none ↔ v.below s = true := by
  constructor
  · intro h
    refine Bool.eq_true_of_not_eq_false fun hnot => ?_
    rw [realContribution_eq hnot] at h
    cases h
  · intro h
    exact realContribution_of_below h delta

/-- **A number asks for nothing exactly if it compares as less.**  Of two whole numbers both
look at the words, of any other two both look at the doubles. -/
theorem contribution_eq_none_iff_of_numbers (hvalue : value.isNumeric = true)
    (hstate : rule.state.isNumeric = true) :
    rule.contribution value = none ↔ value.compare rule.state = some .lt := by
  rcases Property.whole_or_real value rule.state with ⟨v, s, rfl, hs⟩ | hreal
  · rw [contribution_whole hs, hs, Property.compare_int_eq_lt_iff, wholeContribution_eq_none_iff]
  · obtain ⟨v, hv⟩ := Property.exists_toBinary64? hvalue
    obtain ⟨s, hs⟩ := Property.exists_toBinary64? hstate
    have hfloat := hreal.imp (Property.kind_eq_float hvalue) (Property.kind_eq_float hstate)
    rw [contribution_real hv hs hfloat, Property.compare_eq_lt_iff_below hv hs hreal,
      realContribution_eq_none_iff]

/-- Where there is no order, the increase is computed and comes to 0. -/
theorem contribution_eq_some_zero (hvalue : value.isNumeric = true)
    (hstate : rule.state.isNumeric = true) (h : value.compare rule.state = none) :
    rule.contribution value = some 0 := by
  have hundefined : rule.Undefined value := by
    rcases (Property.compare_eq_none_iff_nan hvalue hstate).mp h with hnan | hnan
    · exact .inl hnan
    · obtain ⟨v, hv⟩ := Property.exists_toBinary64? hvalue
      exact .inr ⟨v, .nan, hv, by rw [hnan]; rfl, Binary64.sub_nan v⟩
  cases hamount : rule.contribution value with
  | none =>
    rw [contribution_eq_none_iff_of_numbers hvalue hstate, h] at hamount
    cases hamount
  | some amount => rw [contribution_eq_zero hundefined amount hamount]

/-! ## 3. Truth values and strings -/

/-- **A truth value or a string asks for nothing exactly if it is not the state.** -/
theorem contribution_eq_none_iff_of_alike (h : value.Alike rule.state) :
    rule.contribution value = none ↔ value.same rule.state = false := by
  obtain ⟨name, state, delta⟩ := rule
  rcases h with ⟨hvalue, hstate⟩ | ⟨hvalue, hstate⟩
  · cases value <;> cases hvalue
    cases state <;> cases hstate
    simp [contribution, Property.same]
  · cases value <;> cases hvalue
    cases state <;> cases hstate
    simp [contribution, Property.same]

/-! ## 4. All pairs -/

/-- **When a value asks for nothing.**  It does exactly if it is of a kind that does not go with
the state's, if it is a number and compares as less, or if it is a truth value or a string and not
the same.  Numbers without an order, one of them being a NaN, ask for an increase of 0.  What the
test of kinds refuses, and nothing else, is reported. -/
theorem asks_for_nothing_iff (rule : NetIncrease) (value : Property) :
    (rule.contribution value = none ↔
      value.comparable rule.state = false ∨
      (value.isNumeric = true ∧ rule.state.isNumeric = true ∧
        value.compare rule.state = some .lt) ∨
      (value.Alike rule.state ∧ value.same rule.state = false)) ∧
    (value.isNumeric = true → rule.state.isNumeric = true →
      (value.compare rule.state = none ↔ value = .float .nan ∨ rule.state = .float .nan) ∧
      (value.compare rule.state = none → rule.contribution value = some 0)) ∧
    (∀ (zone : Zone) (group : Group) (source : Source) (largest : UInt64) (member : String),
      source ⟨member, group.interface, group.property⟩ = some value →
      ((rule.consider zone group source largest member).log ≠ [] ↔
        value.comparable rule.state = false)) := by
  refine ⟨⟨?_, ?_⟩, ?_, ?_⟩
  · intro h
    by_cases hcomparable : value.comparable rule.state = true
    · right
      rcases Property.numbers_or_alike hcomparable with ⟨hvalue, hstate⟩ | halike
      · exact .inl ⟨hvalue, hstate, (contribution_eq_none_iff_of_numbers hvalue hstate).mp h⟩
      · exact .inr ⟨halike, (contribution_eq_none_iff_of_alike halike).mp h⟩
    · exact .inl (Bool.eq_false_iff.mpr hcomparable)
  · rintro (hkinds | ⟨hvalue, hstate, hless⟩ | ⟨halike, hother⟩)
    · refine contribution_eq_none fun hcompatible => ?_
      rw [Property.comparable_iff.mpr hcompatible] at hkinds
      cases hkinds
    · exact (contribution_eq_none_iff_of_numbers hvalue hstate).mpr hless
    · exact (contribution_eq_none_iff_of_alike halike).mpr hother
  · intro hvalue hstate
    exact ⟨Property.compare_eq_none_iff_nan hvalue hstate, contribution_eq_some_zero hvalue hstate⟩
  · intro zone group source largest member hvalue
    have hkinds : value.comparable rule.state = false ↔ ¬ value.Compatible rule.state := by
      rw [← Property.comparable_iff, Bool.not_eq_true]
    rw [log_consider, reportOn, hvalue, Option.bind_some, hkinds]
    by_cases hcompatible : value.Compatible rule.state
    · simp [hcompatible]
    · simp [hcompatible]

/-- The double `2 ^ 53` lies below the whole number after it, which is rounded to it: nothing is
missing between them, and 0 is asked for. -/
example :
    (⟨"net_target_increase", .int 9007199254740993, 10⟩ : NetIncrease).contribution
      (.float (.ofInt 9007199254740992)) = some 0 := by
  decide +kernel

end NetIncrease
end Cooling
