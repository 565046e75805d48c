import Cooling.Proofs.Action.Contribution

/-!
# Exact increases

How near the two ways of computing an increase come to the number that is meant, the distance
from the state times `delta`.

Between whole numbers the distance is cut off at the largest signed word and raised to one, and
the product is cut off at the largest word.  Nothing else is lost on the way: the distance is
the same number as an unsigned word.  With a double everything is exact as long as the numbers
have up to 53 bits, so there it does not matter which of the two numbers is written as a double.

* `wholeContribution_exact`: what is asked for between any two whole numbers;
* `contribution_of_far`: what is asked for between whole numbers however they are written.
-/

namespace Cooling.NetIncrease

open Binary64 (one)
open Property (SameValue sameValue_iff)

/-! ## 1. Between whole numbers -/

/-- The distance that counts, among all whole numbers. -/
theorem natCast_wholeDistance {value state : Int64} :
    (wholeDistance value state : Int) =
      min (max (value.toInt - state.toInt) 1) (2 ^ 63 - 1) := by
  unfold wholeDistance
  omega

/-- **What whole numbers ask for** is the product of the distance and `delta`, the distance
being cut off at the largest signed word and the product at the largest word. -/
theorem wholeContribution_exact (name : String) (delta : UInt64) (value state : Int64) :
    let asked := (⟨name, .int state, delta⟩ : NetIncrease).contribution (.int value)
    let distance := Clamped.sub value state
    let exact := max (value.toInt - state.toInt) 1 * delta.toNat
    (value.toInt < state.toInt → asked = none) ∧
    (state.toInt ≤ value.toInt →
      distance.toInt = min (value.toInt - state.toInt) (2 ^ 63 - 1) ∧
      ((max distance 1).toUInt64.toNat : Int) = max distance.toInt 1 ∧
      ∃ amount, asked = some amount ∧
        (amount.toNat : Int) = min (2 ^ 64 - 1)
          (min (max (value.toInt - state.toInt) 1) (2 ^ 63 - 1) * delta.toNat) ∧
        (value.toInt - state.toInt < 2 ^ 63 → exact < 2 ^ 64 → (amount.toNat : Int) = exact) ∧
        (amount.toNat : Int) ≤ exact ∧
        delta ≤ amount) := by
  intro asked distance exact
  have hasked : asked = wholeContribution delta value state := contribution_whole rfl value
  rw [hasked]
  constructor
  · intro hlt
    exact wholeContribution_of_lt (Int64.lt_iff_toInt_lt.mpr hlt) delta
  · intro hle
    have hstate : state ≤ value := Int64.le_iff_toInt_le.mpr hle
    have hdistance : distance.toInt = min (value.toInt - state.toInt) (2 ^ 63 - 1) := by
      rw [Clamped.toInt_sub]
      omega
    have hamount : ((Clamped.ofNat (wholeDistance value state * delta.toNat)).toNat : Int) =
        min (2 ^ 64 - 1)
          (min (max (value.toInt - state.toInt) 1) (2 ^ 63 - 1) * delta.toNat) := by
      rw [Clamped.toNat_ofNat, ← natCast_wholeDistance]
      omega
    have hproduct : min (max (value.toInt - state.toInt) 1) (2 ^ 63 - 1) * (delta.toNat : Int) ≤
        exact :=
      Int.mul_le_mul_of_nonneg_right (Int.min_le_left _ _) (Int.natCast_nonneg _)
    refine ⟨hdistance, ?_, _, wholeContribution_eq hstate delta, hamount, ?_, ?_, ?_⟩
    · rw [toNat_flooredDistance, natCast_wholeDistance, hdistance]
      omega
    · intro hfits hword
      have hnocut : min (max (value.toInt - state.toInt) 1) (2 ^ 63 - 1) =
          max (value.toInt - state.toInt) 1 := by omega
      rw [hamount, hnocut]
      exact Int.min_eq_right (Int.le_sub_one_of_lt hword)
    · rw [hamount]
      exact Int.le_trans (Int.min_le_right _ _) hproduct
    · obtain ⟨amount, heq, hdelta⟩ := le_wholeContribution hstate delta
      rw [wholeContribution_eq hstate delta] at heq
      cases heq
      exact hdelta

/-! ## 2. However they are written -/

/-- Between doubles that are whole and far enough apart, the product is exact. -/
theorem scaled_whole {d : Nat} {delta : UInt64} (hd : delta.toNat ≤ 2 ^ 53)
    (h : d * delta.toNat ≤ 2 ^ 53) : scaled (d * one) delta = d * delta.toNat := by
  rw [scaled_eq hd, Nat.mul_right_comm, Binary64.roundToGrid_self (Binary64.step_dvd_mul_one h),
    Nat.min_eq_left (Binary64.mul_one_le_limit (by omega)),
    Nat.mul_div_cancel _ Binary64.one_pos]

/-- What has the value of a whole number is that number or a double in its place. -/
theorem eq_int_or_float {value : Property} {v : Int64} (h : SameValue value (.int v)) :
    value = .int v ∨ ∃ x, value = .float x ∧ x.position = some (v.toInt * one) := by
  obtain ⟨p, hp, hplace⟩ := sameValue_iff.mp h
  cases hplace
  cases value with
  | int n =>
    have heq := Binary64.mul_one_inj.mp (Option.some.inj hp)
    exact .inl (congrArg Property.int (Int64.toInt_inj.mp heq))
  | float x => exact .inr ⟨x, rfl, hp⟩
  | bool _ => cases hp
  | string _ => cases hp

section Written

variable {value state : Property} {v s : Int64} (name : String) {delta : UInt64}
  (hv : v.toInt.natAbs ≤ 2 ^ 53) (hs : s.toInt.natAbs ≤ 2 ^ 53)
  (hvalue : SameValue value (.int v)) (hstate : SameValue state (.int s))

include hv hs hvalue hstate

/-- The increase is computed between the whole numbers or between doubles in their places. -/
theorem contribution_written :
    (⟨name, state, delta⟩ : NetIncrease).contribution value = wholeContribution delta v s ∨
    ∃ x y, x.position = some (v.toInt * one) ∧ y.position = some (s.toInt * one) ∧
      (⟨name, state, delta⟩ : NetIncrease).contribution value = realContribution delta x y := by
  have hv := Binary64.position_ofInt hv
  have hs := Binary64.position_ofInt hs
  rcases eq_int_or_float hvalue with rfl | ⟨x, rfl, hx⟩
  · rcases eq_int_or_float hstate with rfl | ⟨y, rfl, hy⟩
    · exact .inl (contribution_whole rfl v)
    · exact .inr ⟨_, y, hv, hy, contribution_real rfl rfl (.inr rfl)⟩
  · rcases eq_int_or_float hstate with rfl | ⟨y, rfl, hy⟩
    · exact .inr ⟨x, _, hx, hs, contribution_real rfl rfl (.inl rfl)⟩
    · exact .inr ⟨x, y, hx, hy, contribution_real rfl rfl (.inl rfl)⟩

theorem contribution_written_of_lt (h : v.toInt < s.toInt) :
    (⟨name, state, delta⟩ : NetIncrease).contribution value = none := by
  rcases contribution_written name hv hs hvalue hstate with heq | ⟨x, y, hx, hy, heq⟩
  · rw [heq]
    exact wholeContribution_of_lt (Int64.lt_iff_toInt_lt.mpr h) delta
  · have hplaces := Binary64.mul_one_lt_iff.mpr h
    have hbelow : x.below y = true := by
      refine Bool.eq_true_of_not_eq_false fun hnot => ?_
      exact Int.not_le.mpr hplaces ((Binary64.below_eq_false_iff hx hy).mp hnot)
    rw [heq]
    exact realContribution_of_below hbelow delta

theorem contribution_written_of_gt {d : Nat} (hd : v.toInt - s.toInt = d) (hpos : 0 < d)
    (hdistance : d ≤ 2 ^ 53) (hproduct : d * delta.toNat ≤ 2 ^ 53) :
    (⟨name, state, delta⟩ : NetIncrease).contribution value =
      some (Clamped.ofNat (d * delta.toNat)) := by
  rcases contribution_written name hv hs hvalue hstate with heq | ⟨x, y, hx, hy, heq⟩
  · have hle : s ≤ v := Int64.le_iff_toInt_le.mpr (by omega)
    have hwhole : wholeDistance v s = d := by
      unfold wholeDistance
      omega
    rw [heq, wholeContribution_eq hle, hwhole]
  · have hdelta : delta.toNat ≤ 2 ^ 53 := Nat.le_trans (Nat.le_mul_of_pos_left _ hpos) hproduct
    have hbelow : x.below y = false :=
      (Binary64.below_eq_false_iff hx hy).mpr (Binary64.mul_one_le_iff.mpr (by omega))
    have hsize : (x - y).size = d * one := by
      rw [Binary64.size_sub_whole hx hy hv hs (by omega), hd, Int.natAbs_natCast]
    rw [heq, realContribution_eq hbelow, hsize, scaled_whole hdelta hproduct]

end Written

/-- **It does not matter how whole numbers are written**, as themselves or as doubles, if they
have up to 53 bits and differ: below the state nothing is asked for, and above it the product of
the distance and `delta` if both that and the distance have up to 53 bits. -/
theorem contribution_of_far (name : String) (delta : UInt64) (v s : Int64)
    (hv : v.toInt.natAbs ≤ 2 ^ 53) (hs : s.toInt.natAbs ≤ 2 ^ 53) :
    (SameValue (.float (.ofInt v.toInt)) (.int v) ∧
      SameValue (.float (.ofInt s.toInt)) (.int s)) ∧
    (v.toInt < s.toInt → ∀ value state : Property,
      SameValue value (.int v) → SameValue state (.int s) →
      (⟨name, state, delta⟩ : NetIncrease).contribution value = none) ∧
    (s.toInt < v.toInt → v.toInt - s.toInt ≤ 2 ^ 53 →
      (v.toInt - s.toInt) * delta.toNat ≤ 2 ^ 53 →
      ∃ amount : UInt64, (amount.toNat : Int) = (v.toInt - s.toInt) * delta.toNat ∧
        ∀ value state : Property, SameValue value (.int v) → SameValue state (.int s) →
          (⟨name, state, delta⟩ : NetIncrease).contribution value = some amount) := by
  refine ⟨⟨?_, ?_⟩, ?_, ?_⟩
  · exact sameValue_iff.mpr ⟨_, Binary64.position_ofInt hv, rfl⟩
  · exact sameValue_iff.mpr ⟨_, Binary64.position_ofInt hs, rfl⟩
  · intro hlt value state hvalue hstate
    exact contribution_written_of_lt name hv hs hvalue hstate hlt
  · intro hlt hdistance hproduct
    obtain ⟨d, hd⟩ := Int.eq_ofNat_of_zero_le (show 0 ≤ v.toInt - s.toInt by omega)
    rw [hd] at hdistance hproduct ⊢
    have hproduct : d * delta.toNat ≤ 2 ^ 53 := by exact_mod_cast hproduct
    refine ⟨Clamped.ofNat (d * delta.toNat), ?_, fun value state hvalue hstate => ?_⟩
    · rw [Clamped.toNat_ofNat, Nat.min_eq_left (by omega)]
      exact Int.natCast_mul d delta.toNat
    · exact contribution_written_of_gt name hv hs hvalue hstate hd (by omega)
        (by exact_mod_cast hdistance) hproduct

/-- From `2 ^ 53` as a double down to the whole number three below it. -/
theorem contribution_of_far_largest :
    (9007199254740992 : Int64).toInt.natAbs ≤ 2 ^ 53 ∧
    (9007199254740989 : Int64).toInt.natAbs ≤ 2 ^ 53 ∧
    (⟨"net_target_increase", .int 9007199254740989, 1000⟩ : NetIncrease).contribution
      (.float (.ofInt (9007199254740992 : Int64).toInt)) = some 3000 := by
  have hv : (9007199254740992 : Int64).toInt.natAbs ≤ 2 ^ 53 := by decide
  have hs : (9007199254740989 : Int64).toInt.natAbs ≤ 2 ^ 53 := by decide
  obtain ⟨⟨hwritten, -⟩, -, habove⟩ :=
    contribution_of_far "net_target_increase" 1000 9007199254740992 9007199254740989 hv hs
  obtain ⟨amount, hamount, hasked⟩ := habove (by decide) (by decide) (by decide)
  have heq : amount = 3000 :=
    UInt64.toNat_inj.mp (Int.natCast_inj.mp (hamount.trans (by decide)))
  refine ⟨hv, hs, ?_⟩
  rw [hasked _ _ hwritten (sameValue_iff.mpr ⟨_, rfl, rfl⟩), heq]

end Cooling.NetIncrease
