import Cooling.Action.NetIncrease
import Cooling.Proofs.Property.Order

/-!
# What one member asks for

A number at or above the state asks for an increase that grows with its distance from the
state.  There are two ways of computing it: exactly, stopping at the ends of a word, where both
numbers are whole, and with doubles where one of them is a double.  Each is brought to one
formula here (`wholeContribution_eq`, `realContribution_eq`), a natural number that is cut off
at the largest word; what is known of contributions is read off these.

* `contribution_mono`: a larger value, a larger `delta` and a smaller state ask for no less;
* `le_wholeContribution`: between whole numbers at least one `delta` is asked for;
* `le_realContribution_iff`: with a double that holds from a distance of one on, and only then.
-/

namespace Cooling

open Binary64 (roundToGrid one limit)

/-- A number is at most another one of its kind, so neither is a NaN. -/
inductive Property.AtMost : Property → Property → Prop where
  | int {m n : Int64} (h : m ≤ n) : AtMost (.int m) (.int n)
  | float {x y : Binary64} (h : x.AtMost y) : AtMost (.float x) (.float y)

/-- A number lies at or above another one, whatever kinds they are of. -/
def Property.AtOrAbove (value state : Property) : Prop :=
  ∃ p q, value.position? = some p ∧ state.position? = some q ∧ q ≤ p

/-! ## 1. The two formulas -/

namespace Clamped

theorem ofNat_mono {m n : Nat} (h : m ≤ n) : ofNat m ≤ ofNat n := by
  rw [UInt64.le_iff_toNat_le, toNat_ofNat, toNat_ofNat]
  omega

theorem toInt_max (a b : Int64) : (max a b).toInt = max a.toInt b.toInt := by
  simp only [max, Int64.le_iff_toInt_le]
  split <;> omega

theorem ofNat_toNat (n : UInt64) : ofNat n.toNat = n := by
  have := n.toNat_lt
  rw [← UInt64.toNat_inj, toNat_ofNat]
  omega

end Clamped

namespace NetIncrease

/-- The distance of whole numbers that counts: at least one, and at most the largest word. -/
def wholeDistance (value state : Int64) : Nat :=
  (max (min (value.toInt - state.toInt) 0x7fffffffffffffff) 1).toNat

/-- The whole part of a product of doubles: of a size in units, and of a word. -/
def scaled (distance : Nat) (delta : UInt64) : Nat :=
  min (roundToGrid (distance * roundToGrid (delta.toNat * one) 1) one) limit / one

theorem wholeContribution_of_lt {value state : Int64} (h : value < state) (delta : UInt64) :
    wholeContribution delta value state = none := if_pos h

/-- The distance that is computed stays the same number as an unsigned word, since it is
positive. -/
theorem toNat_flooredDistance (value state : Int64) :
    (max (Clamped.sub value state) 1).toUInt64.toNat = wholeDistance value state := by
  have hmax := Clamped.toInt_max (Clamped.sub value state) 1
  rw [Clamped.toInt_sub, Int64.toInt_one] at hmax
  have hpos : (0 : Int64) ≤ max (Clamped.sub value state) 1 := by
    rw [Int64.le_iff_toInt_le, hmax, Int64.toInt_zero]
    omega
  rw [Int64.toNat_toUInt64_of_le hpos, Int64.toNatClampNeg, hmax, wholeDistance]
  omega

/-- **Whole numbers** ask for the exact product, up to the largest word. -/
theorem wholeContribution_eq {value state : Int64} (h : state ≤ value) (delta : UInt64) :
    wholeContribution delta value state =
      some (Clamped.ofNat (wholeDistance value state * delta.toNat)) := by
  have hlt : ¬ value < state := Int64.not_lt.mpr h
  rw [wholeContribution, if_neg hlt, Clamped.mul, toNat_flooredDistance]

theorem realContribution_of_below {value state : Binary64} (h : value.below state = true)
    (delta : UInt64) : realContribution delta value state = none := if_pos h

/-- **Doubles** ask for the whole part of a product of doubles, up to the largest word. -/
theorem realContribution_eq {value state : Binary64} (h : value.below state = false)
    (delta : UInt64) :
    realContribution delta value state =
      some (Clamped.ofNat (scaled (value - state).size delta)) := by
  have hsign := (Binary64.notNegative_sub h).mul_ofInt delta
  rw [realContribution, if_neg (by rw [h]; exact Bool.false_ne_true), Binary64.toUInt64_eq hsign,
    Binary64.size_mul_ofInt]
  rfl

theorem contribution_whole {rule : NetIncrease} {s : Int64} (hs : rule.state = .int s)
    (v : Int64) : rule.contribution (.int v) = wholeContribution rule.delta v s := by
  obtain ⟨name, state, delta⟩ := rule
  cases hs
  rfl

/-- Two numbers that are not both whole are taken as doubles. -/
theorem contribution_real {rule : NetIncrease} {value : Property} {v s : Binary64}
    (hv : value.toBinary64? = some v) (hs : rule.state.toBinary64? = some s)
    (hreal : value.kind = .float ∨ rule.state.kind = .float) :
    rule.contribution value = realContribution rule.delta v s := by
  obtain ⟨name, state, delta⟩ := rule
  have hbind : (do realContribution delta (← value.toBinary64?) (← state.toBinary64?)) =
      realContribution delta v s := by
    rw [hv, hs, Option.bind_eq_bind, Option.bind_some, Option.bind_some]
  rw [← hbind]
  cases value <;> cases state <;> first | rfl | simp [Property.kind] at hreal

/-! ## 2. Asking for more -/

/-- Whoever asks for an amount under the first asks for at least that under the second. -/
def NoMore (first second : Option UInt64) : Prop := ∀ x ∈ first, ∃ y ∈ second, x ≤ y

theorem noMore_none (second : Option UInt64) : NoMore none second := nofun

theorem noMore_some {x y : UInt64} (h : x ≤ y) : NoMore (some x) (some y) := by
  intro z hz
  cases hz
  exact ⟨y, rfl, h⟩

theorem wholeDistance_mono {value value' state state' : Int64} (hv : value ≤ value')
    (hs : state' ≤ state) : wholeDistance value state ≤ wholeDistance value' state' := by
  rw [Int64.le_iff_toInt_le] at hv hs
  unfold wholeDistance
  omega

theorem scaled_mono {distance distance' : Nat} {delta delta' : UInt64}
    (h : distance ≤ distance') (hd : delta ≤ delta') :
    scaled distance delta ≤ scaled distance' delta' := by
  have hword := Binary64.roundToGrid_mono Nat.one_pos
    (Nat.mul_le_mul_right one (UInt64.le_iff_toNat_le.mp hd))
  have hproduct := Binary64.roundToGrid_mono Binary64.one_pos (Nat.mul_le_mul h hword)
  refine Nat.div_le_div_right ?_
  omega

theorem wholeContribution_mono {value value' state state' : Int64} {delta delta' : UInt64}
    (hv : value ≤ value') (hs : state' ≤ state) (hd : delta ≤ delta') :
    NoMore (wholeContribution delta value state) (wholeContribution delta' value' state') := by
  by_cases hlt : value < state
  · rw [wholeContribution_of_lt hlt]
    exact noMore_none _
  · have hle : state ≤ value := Int64.not_lt.mp hlt
    rw [wholeContribution_eq hle,
      wholeContribution_eq (Int64.le_trans hs (Int64.le_trans hle hv))]
    exact noMore_some (Clamped.ofNat_mono
      (Nat.mul_le_mul (wholeDistance_mono hv hs) (UInt64.le_iff_toNat_le.mp hd)))

/-- With a double, a NaN on either side asks for nothing, and stays one. -/
theorem realContribution_mono {value value' state state' : Binary64} {delta delta' : UInt64}
    (hv : value = value' ∨ value.AtMost value') (hs : state' = state ∨ state'.AtMost state)
    (hd : delta ≤ delta') :
    NoMore (realContribution delta value state) (realContribution delta' value' state') := by
  by_cases hbelow : value.below state = true
  · rw [realContribution_of_below hbelow]
    exact noMore_none _
  · have hbelow := Bool.eq_false_iff.mpr hbelow
    obtain ⟨hbelow', hsize⟩ := Binary64.sub_mono hv hs hbelow
    rw [realContribution_eq hbelow, realContribution_eq hbelow']
    exact noMore_some (Clamped.ofNat_mono (scaled_mono hsize hd))

/-- A value stays as it is, or is a number and grows. -/
inductive Grows : Property → Property → Prop where
  | bool (b : Bool) : Grows (.bool b) (.bool b)
  | string (s : String) : Grows (.string s) (.string s)
  | int {m n : Int64} (h : m ≤ n) : Grows (.int m) (.int n)
  | float {x y : Binary64} (h : x = y ∨ x.AtMost y) : Grows (.float x) (.float y)

theorem Grows.refl : ∀ value : Property, Grows value value
  | .bool b => .bool b
  | .int _ => .int (Int64.le_refl _)
  | .float _ => .float (.inl rfl)
  | .string s => .string s

theorem Grows.of_atMost {first second : Property} (h : first.AtMost second) :
    Grows first second := by
  cases h with
  | int h => exact .int h
  | float h => exact .float (.inr h)

/-- **A larger value, a smaller state and a larger increase** ask for no less. -/
theorem contribution_mono {rule rule' : NetIncrease} {value value' : Property}
    (hv : Grows value value') (hs : Grows rule'.state rule.state) (hd : rule.delta ≤ rule'.delta) :
    NoMore (rule.contribution value) (rule'.contribution value') := by
  obtain ⟨name, state, delta⟩ := rule
  obtain ⟨name', state', delta'⟩ := rule'
  dsimp only at hs hd
  have hequal (p : Prop) [Decidable p] :
      NoMore (if p then some delta else none) (if p then some delta' else none) := by
    split
    · exact noMore_some hd
    · exact noMore_none _
  cases hv with
  | bool b =>
    cases hs with
    | bool c => exact hequal (b = c)
    | _ => exact noMore_none _
  | string b =>
    cases hs with
    | string c => exact hequal (b = c)
    | _ => exact noMore_none _
  | int hv =>
    have hview := Binary64.atMost_ofInt (Int64.le_iff_toInt_le.mp hv)
    cases hs with
    | int hs => exact wholeContribution_mono hv hs hd
    | float hs =>
      rw [contribution_real rfl rfl (.inr rfl), contribution_real rfl rfl (.inr rfl)]
      exact realContribution_mono (.inr hview) hs hd
    | _ => exact noMore_none _
  | float hv =>
    cases hs with
    | int hs =>
      have hview := Binary64.atMost_ofInt (Int64.le_iff_toInt_le.mp hs)
      rw [contribution_real rfl rfl (.inl rfl), contribution_real rfl rfl (.inl rfl)]
      exact realContribution_mono hv (.inr hview) hd
    | float hs =>
      rw [contribution_real rfl rfl (.inl rfl), contribution_real rfl rfl (.inl rfl)]
      exact realContribution_mono hv hs hd
    | _ => exact noMore_none _

/-! ## 3. At least one `delta` -/

theorem one_le_wholeDistance (value state : Int64) : 1 ≤ wholeDistance value state := by
  unfold wholeDistance
  omega

/-- **Between whole numbers** at least one `delta` is asked for. -/
theorem le_wholeContribution {value state : Int64} (h : state ≤ value) (delta : UInt64) :
    ∃ amount ∈ wholeContribution delta value state, delta ≤ amount := by
  refine ⟨_, wholeContribution_eq h delta, ?_⟩
  conv => lhs; rw [← Clamped.ofNat_toNat delta]
  exact Clamped.ofNat_mono (Nat.le_mul_of_pos_left _ (one_le_wholeDistance value state))

/-- Up to 53 bits a word is a double, and a product with it is rounded once. -/
theorem scaled_eq {delta : UInt64} (hd : delta.toNat ≤ 2 ^ 53) (distance : Nat) :
    scaled distance delta = min (roundToGrid (distance * delta.toNat) 1) limit / one := by
  have hscale := Binary64.roundToGrid_mul_mul (distance * delta.toNat) 1 Binary64.one_pos
  rw [Nat.one_mul, Nat.mul_assoc] at hscale
  rw [scaled, Binary64.roundToGrid_self (Binary64.step_dvd_mul_one hd), hscale]

theorem le_scaled_iff {distance : Nat} {delta : UInt64}
    (hgrid : Binary64.step distance ∣ distance) (hd : delta.toNat ≤ 2 ^ 53) :
    delta.toNat ≤ scaled distance delta ↔ delta.toNat = 0 ∨ one ≤ distance := by
  rw [scaled_eq hd, Nat.le_div_iff_mul_le Binary64.one_pos]
  constructor
  · intro h
    refine Decidable.byContradiction fun hnot => ?_
    obtain ⟨hne, hlt⟩ := not_or.mp hnot
    have hround := Binary64.roundToGrid_mul_lt hgrid (Nat.not_le.mp hlt)
      (Nat.pos_of_ne_zero hne) hd
    exact Nat.not_le.mpr hround (Nat.le_trans h (Nat.min_le_left _ _))
  · rintro (hzero | hle)
    · rw [hzero, Nat.zero_mul]
      exact Nat.zero_le _
    · refine Nat.le_min.mpr ⟨?_, ?_⟩
      · refine Binary64.le_roundToGrid Nat.one_pos (Binary64.step_dvd_mul_one hd) ?_
        rw [Nat.mul_one, Nat.mul_comm]
        exact Nat.mul_le_mul_right _ hle
      · exact Binary64.mul_one_le_limit (Nat.le_of_lt delta.toNat_lt)

/-- **With a double** a whole `delta` is asked for exactly from a distance of one on. -/
theorem le_realContribution_iff {value state : Binary64} {delta : UInt64}
    (h : value.below state = false) (hd : delta.toNat ≤ 2 ^ 53) :
    (∃ amount ∈ realContribution delta value state, delta ≤ amount) ↔
      delta.toNat = 0 ∨ one ≤ (value - state).size := by
  rw [realContribution_eq h, ← le_scaled_iff (Binary64.step_dvd_size _) hd]
  have hlt := delta.toNat_lt
  constructor
  · rintro ⟨amount, hamount, hle⟩
    cases hamount
    rw [UInt64.le_iff_toNat_le, Clamped.toNat_ofNat] at hle
    omega
  · intro hle
    refine ⟨_, rfl, ?_⟩
    rw [UInt64.le_iff_toNat_le, Clamped.toNat_ofNat]
    omega

end NetIncrease
end Cooling
