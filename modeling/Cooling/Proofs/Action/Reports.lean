import Cooling.Proofs.Action.Response
import Mathlib.Data.List.Basic

/-!
# What a run reports

A run reports the members whose values cannot be set against the state, and nothing else.  Which
these are is decided by two case distinctions of their own, one of what a value asks for and one
of which kinds go together.  They never disagree: a value that asks for something is of a kind
that goes with the state's (`compatible_of_contribution`).

* `log_run`: the records of a run, member by member;
* `run_reports_incompatible`: what they say, who is not reported, and that who is reported does
  not count;
* `nan_reported`: a NaN is reported where the state is no number.
-/

namespace Cooling

/-! ## 1. Kinds that go together -/

/-- Two values that can be set against each other: two numbers, two truth values or two
strings. -/
def Property.Compatible (value state : Property) : Prop :=
  (value.isNumeric = true ∧ state.isNumeric = true) ∨
    (∃ b c, value = .bool b ∧ state = .bool c) ∨ (∃ s t, value = .string s ∧ state = .string t)

theorem Property.comparable_iff {value state : Property} :
    value.comparable state = true ↔ value.Compatible state := by
  unfold Compatible
  cases value <;> cases state <;> simp [comparable, isNumeric, kind]

instance Property.decidableCompatible (value state : Property) :
    Decidable (value.Compatible state) :=
  decidable_of_iff _ comparable_iff

namespace NetIncrease

open Function (update)

variable {rule : NetIncrease} {group : Group} {source : Source} {zone : Zone}

/-- A value that asks for something goes with the state. -/
theorem compatible_of_contribution {value : Property} {amount : UInt64}
    (h : rule.contribution value = some amount) : value.Compatible rule.state := by
  obtain ⟨name, state, delta⟩ := rule
  rw [← Property.comparable_iff]
  cases value <;> cases state <;> first | rfl | cases h

theorem contribution_eq_none {value : Property} (h : ¬ value.Compatible rule.state) :
    rule.contribution value = none := by
  cases hamount : rule.contribution value with
  | none => rfl
  | some amount => exact absurd (compatible_of_contribution hamount) h

/-! ## 2. The records -/

/-- The record of a member, if there is one. -/
def reportOn (rule : NetIncrease) (zone : Zone) (group : Group) (source : Source)
    (member : String) : Option Log.Record :=
  (source ⟨member, group.interface, group.property⟩).bind fun value =>
    if value.Compatible rule.state then none else some (rule.unsupported zone group member value)

theorem log_consider (rule : NetIncrease) (zone : Zone) (group : Group) (source : Source)
    (largest : UInt64) (member : String) :
    (rule.consider zone group source largest member).log =
      (rule.reportOn zone group source member).toList := by
  rw [consider, reportOn, place]
  cases source ⟨member, group.interface, group.property⟩ with
  | none => rfl
  | some value =>
    rw [Option.bind_some]
    dsimp only
    by_cases h : value.Compatible rule.state
    · have hcomparable := Property.comparable_iff.mpr h
      rw [if_pos h]
      cases rule.contribution value with
      | some amount => rfl
      | none =>
        rw [hcomparable]
        rfl
    · have hcomparable := Bool.eq_false_iff.mpr (mt Property.comparable_iff.mp h)
      rw [if_neg h, contribution_eq_none h, hcomparable]
      rfl

/-- **The records of a run**: one for each member whose value does not go with the state, in
the order of the members. -/
theorem log_run (rule : NetIncrease) (group : Group) (source : Source) (zone : Zone) :
    (rule.run group source zone).log =
      group.members.filterMap (rule.reportOn zone group source) := by
  rw [run, Logged.log_bind, Logged.log_foldlM (rule.log_consider zone group source),
    Logged.log_pure, List.append_nil, List.filterMap_eq_flatMap_toList]

theorem mem_log_run {record : Log.Record} (h : record ∈ (rule.run group source zone).log) :
    ∃ member ∈ group.members, ∃ value,
      source ⟨member, group.interface, group.property⟩ = some value ∧
        ¬ value.Compatible rule.state ∧ record = rule.unsupported zone group member value := by
  rw [log_run, List.mem_filterMap] at h
  obtain ⟨member, hmember, hreport⟩ := h
  obtain ⟨value, hvalue, hreport⟩ := Option.bind_eq_some_iff.mp hreport
  by_cases hcompatible : value.Compatible rule.state
  · rw [if_pos hcompatible] at hreport
    cases hreport
  · rw [if_neg hcompatible] at hreport
    exact ⟨member, hmember, value, hvalue, hcompatible, (Option.some.inj hreport).symm⟩

/-! ## 3. Who is not reported -/

/-- What is passed over in silence against a state: no value, a number below it, a NaN if it is
a number, and truth values and strings that are not equal to it. -/
inductive Unreported : Property → Option Property → Prop where
  | absent (state : Property) : Unreported state none
  | below {value state : Property} {p q : Int} (hvalue : value.position? = some p)
    (hstate : state.position? = some q) (h : p < q) : Unreported state (some value)
  | nan {state : Property} (h : state.isNumeric = true) : Unreported state (some (.float .nan))
  | bool {b c : Bool} (h : b ≠ c) : Unreported (.bool c) (some (.bool b))
  | string {s t : String} (h : s ≠ t) : Unreported (.string t) (some (.string s))

/-- Only numbers are on the number line. -/
theorem isNumeric_of_position {value : Property} {p : Int} (h : value.position? = some p) :
    value.isNumeric = true := by
  cases value with
  | int _ => rfl
  | float _ => rfl
  | bool _ => cases h
  | string _ => cases h

theorem compatible_of_unreported {value state : Property} (h : Unreported state (some value)) :
    value.Compatible state := by
  cases h with
  | below hvalue hstate _ =>
    exact .inl ⟨isNumeric_of_position hvalue, isNumeric_of_position hstate⟩
  | nan h => exact .inl ⟨rfl, h⟩
  | bool _ => exact .inr (.inl ⟨_, _, rfl, rfl⟩)
  | string _ => exact .inr (.inr ⟨_, _, rfl, rfl⟩)

/-- A record names one member. -/
theorem eq_of_mem_fields_unsupported {member other : String} {value : Property}
    (h : Log.Field.plain "member" member ∈ (rule.unsupported zone group other value).fields) :
    member = other := by
  simpa [unsupported, Log.Field.plain, Log.Field.quoted] using h

/-- **What a run reports.**  There is one record for each member whose value does not go with
the state, in the order of the members and as often as the member is listed, and no other.
It is an error that names the action, the zone, the member, the group's interface and property,
and the two kinds.  No record names a member that is `Unreported`, and a member that is reported
might as well have no value. -/
theorem run_reports_incompatible (rule : NetIncrease) (group : Group) (source : Source)
    (zone : Zone) :
    (rule.run group source zone).log = group.members.filterMap (fun member =>
      (source ⟨member, group.interface, group.property⟩).bind fun value =>
        if value.Compatible rule.state then none
        else some (rule.unsupported zone group member value)) ∧
    (∀ record ∈ (rule.run group source zone).log,
      record.level = .error ∧ record.message = "unsupported group member type" ∧
      ∃ member ∈ group.members, ∃ value,
        source ⟨member, group.interface, group.property⟩ = some value ∧
        ¬ value.Compatible rule.state ∧
        record.fields = [.quoted "action" rule.name, .quoted "zone" zone.name,
          .plain "member" member, .quoted "interface" group.interface,
          .quoted "property" group.property, .quoted "member_type" value.kind.name,
          .quoted "state_type" rule.state.kind.name]) ∧
    (∀ member, Unreported rule.state (source ⟨member, group.interface, group.property⟩) →
      ∀ record ∈ (rule.run group source zone).log,
        Log.Field.plain "member" member ∉ record.fields) ∧
    (∀ member value, source ⟨member, group.interface, group.property⟩ = some value →
      ¬ value.Compatible rule.state →
      (rule.run group (update source ⟨member, group.interface, group.property⟩ none) zone).value =
        (rule.run group source zone).value) := by
  refine ⟨log_run rule group source zone, ?_, ?_, ?_⟩
  · intro record hrecord
    obtain ⟨member, hmember, value, hvalue, hcompatible, rfl⟩ := mem_log_run hrecord
    exact ⟨rfl, rfl, member, hmember, value, hvalue, hcompatible, rfl⟩
  · intro member hunreported record hrecord hnamed
    obtain ⟨other, -, value, hvalue, hcompatible, rfl⟩ := mem_log_run hrecord
    obtain rfl := eq_of_mem_fields_unsupported hnamed
    rw [hvalue] at hunreported
    exact hcompatible (compatible_of_unreported hunreported)
  · intro member value hvalue hcompatible
    refine value_run_update_none hvalue fun x hx => ?_
    rw [contribution_eq_none hcompatible] at hx
    cases hx

/-- **A NaN is reported where the state is no number**: it is still a double. -/
theorem nan_reported :
    ¬ ∀ (rule : NetIncrease) (group : Group) (source : Source) (zone : Zone) (member : String),
      source ⟨member, group.interface, group.property⟩ = some (.float .nan) →
      ∀ record ∈ (rule.run group source zone).log,
        Log.Field.plain "member" member ∉ record.fields := by
  intro h
  have hunreported := h ⟨"net_target_increase", .bool true, 10⟩ inletGroup
    (fun _ => some (.float .nan)) ⟨"0", 0, []⟩ "/inlet0" rfl
  rw [log_run] at hunreported
  exact hunreported _ (List.mem_singleton_self _) (by decide)

end NetIncrease
end Cooling
