import Cooling.Proofs.Action.Contribution
import Cooling.Proofs.Action.Requests
import Mathlib.Logic.Function.Basic

/-!
# What one run asks for

A run asks the zone once.  The amount is the largest of the zone's increase and of what the
members ask for, so all that matters of a group is which places its members have and what is
known in them.

* `run_requests_largest`: the amount, and what it does not depend on;
* `run_mono`: a larger value, a larger `delta` or a smaller state never makes the amount less;
* `run_whole_member`: how much a whole number at or above the state is good for, and
  `whole_member_short_of_delta`: less than one `delta` if the state is a double nearby.
-/

namespace Cooling.NetIncrease

open Function (update)

variable {rule rule' : NetIncrease} {group : Group} {source source' : Source} {zone : Zone}

/-! ## 1. Which amounts are asked for -/

/-- A member asks for an amount, by what is known in its place. -/
def Asks (rule : NetIncrease) (group : Group) (source : Source) (amount : UInt64) : Prop :=
  ∃ member ∈ group.members, ∃ value,
    source ⟨member, group.interface, group.property⟩ = some value ∧
      rule.contribution value = some amount

theorem mem_contributions_iff {x : UInt64} :
    x ∈ rule.contributions group source ↔ rule.Asks group source x := by
  simp only [contributions, List.mem_filterMap, Option.bind_eq_some_iff]
  rfl

theorem demand_le_iff_asks {bound : UInt64} :
    rule.demand group source ≤ bound ↔ ∀ x, rule.Asks group source x → x ≤ bound := by
  simp only [demand_le_iff, mem_contributions_iff]

theorem le_demand {x : UInt64} (h : rule.Asks group source x) : x ≤ rule.demand group source :=
  demand_le_iff_asks.mp (UInt64.le_refl _) x h

/-- The largest of several words is one of them. -/
theorem foldl_max_eq_or_mem : ∀ (xs : List UInt64) (first : UInt64),
    xs.foldl max first = first ∨ xs.foldl max first ∈ xs
  | [], first => .inl rfl
  | x :: xs, first => by
    rw [List.foldl_cons]
    rcases foldl_max_eq_or_mem xs (max first x) with h | h
    · rw [h]
      by_cases hle : first ≤ x
      · right
        simp [max, hle]
      · left
        simp [max, hle]
    · exact .inr (List.mem_cons_of_mem x h)

/-- The largest of an increase and of the demand is the one or is what some member asks for. -/
theorem max_demand_eq_or_asks (increase : UInt64) :
    max increase (rule.demand group source) = increase ∨
      rule.Asks group source (max increase (rule.demand group source)) := by
  have hfold : max increase (rule.demand group source) =
      (rule.contributions group source).foldl max increase := by
    refine eq_of_forall_le_iff fun bound => ?_
    rw [Std.max_le_iff, foldl_max_le_iff, demand_le_iff]
  rw [hfold]
  rcases foldl_max_eq_or_mem (rule.contributions group source) increase with h | h
  · exact .inl h
  · exact .inr (mem_contributions_iff.mp h)

/-- The same amounts asked for make the same demand. -/
theorem demand_congr {other : Group}
    (h : ∀ x, rule.Asks group source x ↔ rule'.Asks other source' x) :
    rule.demand group source = rule'.demand other source' := by
  refine eq_of_forall_le_iff fun bound => ?_
  simp only [demand_le_iff_asks, h]

/-! ## 2. What the amount does not depend on -/

/-- A group with the same members, in any order and number, makes the same demand if the same
is known in their places. -/
theorem demand_eq_of_same_members {other : Group} (hinterface : other.interface = group.interface)
    (hproperty : other.property = group.property)
    (hmembers : ∀ member, member ∈ other.members ↔ member ∈ group.members)
    (hknown : ∀ member ∈ group.members,
      source' (place group member) = source (place group member)) :
    rule.demand other source' = rule.demand group source := by
  refine demand_congr fun x => ?_
  unfold Asks
  rw [hinterface, hproperty]
  constructor
  · rintro ⟨member, hmember, value, hvalue, hx⟩
    have hmember := (hmembers member).mp hmember
    exact ⟨member, hmember, value, (hknown member hmember).symm.trans hvalue, hx⟩
  · rintro ⟨member, hmember, value, hvalue, hx⟩
    exact ⟨member, (hmembers member).mpr hmember, value, (hknown member hmember).trans hvalue, hx⟩

/-- A value that asks for nothing, or for an increase of 0, counts as no value. -/
theorem demand_update_none {member : String} {value : Property}
    (hvalue : source (place group member) = some value)
    (hzero : ∀ x ∈ rule.contribution value, x = 0) :
    rule.demand group (update source (place group member) none) = rule.demand group source := by
  refine eq_of_forall_le_iff fun bound => ?_
  simp only [demand_le_iff_asks]
  constructor
  · rintro h x ⟨other, hother, known, hknown, hx⟩
    by_cases hplace : place group other = place group member
    · have hsame : known = value := by
        rw [← hplace] at hvalue
        exact Option.some.inj (hknown.symm.trans hvalue)
      subst hsame
      rw [hzero x hx]
      exact UInt64.le_iff_toNat_le.mpr (Nat.zero_le _)
    · exact h x ⟨other, hother, known, (Function.update_of_ne hplace _ _).trans hknown, hx⟩
  · rintro h x ⟨other, hother, known, hknown, hx⟩
    have hplace : place group other ≠ place group member := by
      intro hplace
      have hnone : update source (place group member) none (place group other) = none := by
        rw [hplace, Function.update_self]
      exact Option.some_ne_none _ (hknown.symm.trans hnone)
    exact h x ⟨other, hother, known, (Function.update_of_ne hplace _ _).symm.trans hknown, hx⟩

theorem value_run_update_none {member : String} {value : Property}
    (hvalue : source (place group member) = some value)
    (hzero : ∀ x ∈ rule.contribution value, x = 0) :
    (rule.run group (update source (place group member) none) zone).value =
      (rule.run group source zone).value := by
  rw [value_run, value_run, demand_update_none hvalue hzero]

/-- A value that has no distance from the state: a NaN, an infinity where the state is the same
infinity, or any number where the state is a NaN. -/
def Undefined (rule : NetIncrease) (value : Property) : Prop :=
  value = .float .nan ∨
    ∃ v s, value.toBinary64? = some v ∧ rule.state.toBinary64? = some s ∧ v - s = .nan

theorem realContribution_eq_zero {delta : UInt64} {v s : Binary64} (h : v - s = .nan) :
    ∀ x ∈ realContribution delta v s, x = 0 := by
  intro x hx
  by_cases hbelow : v.below s = true
  · rw [realContribution_of_below hbelow] at hx
    cases hx
  · rw [realContribution_eq (Bool.eq_false_iff.mpr hbelow), h] at hx
    cases hx
    rw [scaled, Binary64.size, Nat.zero_mul, Binary64.roundToGrid_zero, Nat.zero_min, Nat.zero_div]
    rfl

/-- Without a distance from the state there is nothing to ask for. -/
theorem contribution_eq_zero {value : Property} (h : rule.Undefined value) :
    ∀ x ∈ rule.contribution value, x = 0 := by
  obtain ⟨name, state, delta⟩ := rule
  intro x hx
  rcases h with rfl | ⟨v, s, hv, hs, hnan⟩
  · cases state with
    | int s =>
      rw [contribution_real rfl rfl (.inl rfl)] at hx
      exact realContribution_eq_zero rfl x hx
    | float s =>
      rw [contribution_real rfl rfl (.inl rfl)] at hx
      exact realContribution_eq_zero rfl x hx
    | bool _ => cases hx
    | string _ => cases hx
  · by_cases hreal : value.kind = .float ∨ state.kind = .float
    · rw [contribution_real hv hs hreal] at hx
      exact realContribution_eq_zero hnan x hx
    · -- whole numbers have a distance
      exfalso
      cases value with
      | int m =>
        cases state with
        | int n =>
          cases hv
          cases hs
          exact Binary64.sub_ne_nan (Binary64.isFinite_ofInt_toInt m)
            (Binary64.isFinite_ofInt_toInt n) hnan
        | float _ => exact hreal (.inr rfl)
        | bool _ => cases hs
        | string _ => cases hs
      | float _ => exact hreal (.inl rfl)
      | bool _ => cases hv
      | string _ => cases hv

/-- **What a run asks for** is the largest of the zone's increase and of what the members ask
for by the values known in their places.  It is asked for once.  The order of the members, their
number and what is known in other places do not matter, and neither does a value that has no
distance from the state. -/
theorem run_requests_largest (rule : NetIncrease) (group : Group) (source : Source)
    (zone : Zone) :
    ∃ amount, (rule.run group source zone).value = zone.request amount ∧
      zone.increase ≤ amount ∧
      (∀ x, rule.Asks group source x → x ≤ amount) ∧
      (amount = zone.increase ∨ rule.Asks group source amount) ∧
      (∀ (other : Group) (known : Source), other.interface = group.interface →
        other.property = group.property →
        (∀ member, member ∈ other.members ↔ member ∈ group.members) →
        (∀ member ∈ group.members, known ⟨member, group.interface, group.property⟩ =
          source ⟨member, group.interface, group.property⟩) →
        (rule.run other known zone).value = zone.request amount) ∧
      (∀ member value, source ⟨member, group.interface, group.property⟩ = some value →
        rule.Undefined value →
        (rule.run group (update source ⟨member, group.interface, group.property⟩ none) zone).value =
          zone.request amount) := by
  refine ⟨max zone.increase (rule.demand group source), value_run rule group source zone,
    Std.left_le_max, ?_, max_demand_eq_or_asks zone.increase, ?_, ?_⟩
  · intro x hx
    exact UInt64.le_trans (le_demand hx) Std.right_le_max
  · intro other known hinterface hproperty hmembers hknown
    rw [value_run, demand_eq_of_same_members hinterface hproperty hmembers hknown]
  · intro member value hvalue hundefined
    rw [← value_run]
    exact value_run_update_none hvalue (contribution_eq_zero hundefined)

/-! ## 3. Asking for more -/

/-- If each member asks for no more, the demand is no larger. -/
theorem demand_mono
    (h : ∀ member ∈ group.members, NoMore ((source (place group member)).bind rule.contribution)
      ((source' (place group member)).bind rule'.contribution)) :
    rule.demand group source ≤ rule'.demand group source' := by
  rw [demand_le_iff_asks]
  rintro x ⟨member, hmember, value, hvalue, hx⟩
  obtain ⟨y, hy, hle⟩ := h member hmember x (Option.bind_eq_some_iff.mpr ⟨value, hvalue, hx⟩)
  obtain ⟨value', hvalue', hy⟩ := Option.bind_eq_some_iff.mp hy
  exact UInt64.le_trans hle (le_demand ⟨member, hmember, value', hvalue', hy⟩)

theorem demand_mono_rule (hs : Grows rule'.state rule.state) (hd : rule.delta ≤ rule'.delta) :
    rule.demand group source ≤ rule'.demand group source := by
  refine demand_mono fun member _ => ?_
  cases source (place group member) with
  | none => exact noMore_none _
  | some value => exact contribution_mono (.refl value) hs hd

theorem demand_mono_value {spot : Place} {value larger : Property}
    (hvalue : source spot = some value) (hlarger : value.AtMost larger) :
    rule.demand group source ≤ rule.demand group (update source spot (some larger)) := by
  refine demand_mono fun member _ => ?_
  have hstate := Grows.refl rule.state
  have hdelta := UInt64.le_refl rule.delta
  by_cases hplace : place group member = spot
  · rw [hplace, Function.update_self, hvalue]
    exact contribution_mono (.of_atMost hlarger) hstate hdelta
  · rw [Function.update_of_ne hplace]
    cases source (place group member) with
    | none => exact noMore_none _
    | some known => exact contribution_mono (.refl known) hstate hdelta

/-- What a zone is asked for grows with the demand. -/
theorem exists_request_of_demand_le {amount : UInt64}
    (hamount : amount = max zone.increase (rule.demand group source))
    (h : rule.demand group source ≤ rule'.demand group source') :
    ∃ amount', (rule'.run group source' zone).value = zone.request amount' ∧
      amount ≤ amount' := by
  refine ⟨_, value_run rule' group source' zone, ?_⟩
  rw [hamount, Std.max_le_iff]
  exact ⟨Std.left_le_max, UInt64.le_trans h Std.right_le_max⟩

/-- **A worse reading never weakens the response.**  A run asks for no less if the value in one
place is a larger number of the same kind, if `delta` is larger, or if the state is a smaller
number of the same kind. -/
theorem run_mono (rule : NetIncrease) (group : Group) (source : Source) (zone : Zone) :
    ∃ amount, (rule.run group source zone).value = zone.request amount ∧
      (∀ member value larger,
        source ⟨member, group.interface, group.property⟩ = some value → value.AtMost larger →
        ∃ amount', (rule.run group (update source ⟨member, group.interface, group.property⟩
          (some larger)) zone).value = zone.request amount' ∧ amount ≤ amount') ∧
      (∀ delta, rule.delta ≤ delta →
        ∃ amount', ({ rule with delta := delta }.run group source zone).value =
          zone.request amount' ∧ amount ≤ amount') ∧
      (∀ state, state.AtMost rule.state →
        ∃ amount', ({ rule with state := state }.run group source zone).value =
          zone.request amount' ∧ amount ≤ amount') := by
  refine ⟨_, value_run rule group source zone, ?_, ?_, ?_⟩
  · intro member value larger hvalue hlarger
    exact exists_request_of_demand_le rfl (demand_mono_value hvalue hlarger)
  · intro delta hdelta
    exact exists_request_of_demand_le rfl (demand_mono_rule (.refl rule.state) hdelta)
  · intro state hstate
    exact exists_request_of_demand_le rfl
      (demand_mono_rule (.of_atMost hstate) (UInt64.le_refl rule.delta))

/-! ## 4. Whole numbers at or above the state -/

/-- **What a whole number at or above the state is good for.**  If the state is whole too, the
zone is asked for at least one `delta`.  If the state is a double, the member itself asks for a
whole `delta` of up to 53 bits exactly from a distance of one on. -/
theorem run_whole_member (rule : NetIncrease) (group : Group) (source : Source) (zone : Zone)
    (member : String) (n : Int64) (hmember : member ∈ group.members)
    (hvalue : source ⟨member, group.interface, group.property⟩ = some (.int n))
    (habove : (Property.int n).AtOrAbove rule.state) :
    ∃ amount, (rule.run group source zone).value = zone.request amount ∧
      (∀ s, rule.state = .int s → rule.delta ≤ amount) ∧
      (∀ x, rule.state = .float x → rule.delta.toNat ≤ 2 ^ 53 →
        ((∃ asked ∈ rule.contribution (.int n), rule.delta ≤ asked) ↔
          rule.delta.toNat = 0 ∨ Binary64.one ≤ (Binary64.ofInt n.toInt - x).size) ∧
        (rule.delta.toNat = 0 ∨ Binary64.one ≤ (Binary64.ofInt n.toInt - x).size →
          rule.delta ≤ amount)) := by
  obtain ⟨p, q, hp, hq, hle⟩ := habove
  cases hp
  have hamount {asked : UInt64} (hasked : asked ∈ rule.contribution (.int n))
      (hdelta : rule.delta ≤ asked) : rule.delta ≤ max zone.increase (rule.demand group source) :=
    UInt64.le_trans hdelta
      (UInt64.le_trans (le_demand ⟨member, hmember, .int n, hvalue, hasked⟩) Std.right_le_max)
  refine ⟨_, value_run rule group source zone, ?_, ?_⟩
  · intro s hstate
    rw [hstate] at hq
    cases hq
    have hwhole : s ≤ n := by
      rw [Int64.le_iff_toInt_le]
      exact Int.le_of_mul_le_mul_right hle (Int.natCast_pos.mpr Binary64.one_pos)
    obtain ⟨asked, hasked, hdelta⟩ := le_wholeContribution hwhole rule.delta
    rw [← contribution_whole hstate] at hasked
    exact hamount hasked hdelta
  · intro x hstate hbits
    rw [hstate] at hq
    have hbelow := (Binary64.atMost_ofInt_of_le hq hle).below_eq_false
    have hstate' : rule.state.toBinary64? = some x := by rw [hstate]; rfl
    have hiff : (∃ asked ∈ rule.contribution (.int n), rule.delta ≤ asked) ↔
        rule.delta.toNat = 0 ∨ Binary64.one ≤ (Binary64.ofInt n.toInt - x).size := by
      rw [contribution_real rfl hstate' (.inr (by rw [hstate]; rfl))]
      exact le_realContribution_iff hbelow hbits
    refine ⟨hiff, fun hfar => ?_⟩
    obtain ⟨asked, hasked, hdelta⟩ := hiff.mpr hfar
    exact hamount hasked hdelta

/-- A rule whose state is 39.5, that is 79 halves. -/
def halfwayRule : NetIncrease :=
  ⟨"net_target_increase", .float (Binary64.round false (79 * Binary64.one) 2), 10⟩

theorem position_halfwayRule :
    halfwayRule.state.position? = some (79 * Binary64.one / 2 : Nat) := by
  decide +kernel

/-- A group with one member. -/
def inletGroup : Group := ⟨⟨"inlets", []⟩, ["/inlet0"], "Value", "Value"⟩

/-- 41 is three halves above that state. -/
theorem run_whole_member_halfway :
    "/inlet0" ∈ inletGroup.members ∧ (Property.int 41).AtOrAbove halfwayRule.state ∧
    ∃ amount, (halfwayRule.run inletGroup (fun _ => some (.int 41)) ⟨"0", 0, []⟩).value =
      Zone.request ⟨"0", 0, []⟩ amount ∧ halfwayRule.delta ≤ amount := by
  have hmember : "/inlet0" ∈ inletGroup.members := List.mem_singleton_self _
  have habove : (Property.int 41).AtOrAbove halfwayRule.state :=
    ⟨_, _, rfl, position_halfwayRule, by decide +kernel⟩
  obtain ⟨amount, hrun, -, hreal⟩ := run_whole_member halfwayRule inletGroup
    (fun _ => some (.int 41)) ⟨"0", 0, []⟩ "/inlet0" 41 hmember rfl habove
  exact ⟨hmember, habove, amount, hrun,
    (hreal _ rfl (by decide +kernel)).2 (.inr (by decide +kernel))⟩

/-- **A whole number at the state can be good for less than one `delta`**: 40 lies half a unit
above the state 39.5, and half of 10 is asked for. -/
theorem whole_member_short_of_delta :
    ¬ ∀ (rule : NetIncrease) (group : Group) (source : Source) (zone : Zone) (member : String)
      (n : Int64), member ∈ group.members →
        source ⟨member, group.interface, group.property⟩ = some (.int n) →
        (Property.int n).AtOrAbove rule.state →
        ∃ amount, (rule.run group source zone).value = zone.request amount ∧
          rule.delta ≤ amount := by
  intro h
  obtain ⟨amount, hrun, hdelta⟩ := h halfwayRule inletGroup (fun _ => some (.int 40))
    ⟨"0", 0, []⟩ "/inlet0" 40 (List.mem_singleton_self _) rfl
    ⟨_, _, rfl, position_halfwayRule, by decide +kernel⟩
  rw [value_run] at hrun
  have hdemand : max 0 (halfwayRule.demand inletGroup fun _ => some (.int 40)) = 5 := by
    decide +kernel
  have hamount : amount = 5 := by
    have hrequests := congrArg Zone.requests hrun
    rw [hdemand] at hrequests
    exact (List.singleton_inj.mp hrequests).symm
  subst hamount
  exact absurd hdelta (by decide)

end Cooling.NetIncrease
