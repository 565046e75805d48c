/-!
# The grid of the doubles

Every finite double is a whole number of *units* of `2 ^ (-1074)`, the least positive one.
Not every whole number is one: above `2 ^ 53` units only multiples of a power of two are,
the power growing with the number so that 53 significant bits remain.  This module says
which numbers are on that grid and rounds an arbitrary non-negative fraction to it.

* `roundDiv`: the whole number nearest a quotient, a half going to the even one.
* `step`: the distance to the next number of the grid, by the size of the number.
* `roundToGrid`: the grid number nearest a quotient; `step_dvd_roundToGrid` says that it is
  on the grid.
-/

namespace Cooling.Binary64

/-! ## 1. The nearest whole number -/

/-- The whole number nearest `num / den`; exactly between two, the even one. -/
def roundDiv (num den : Nat) : Nat :=
  let floor := num / den
  let rest := num % den
  if 2 * rest < den then floor
  else if den < 2 * rest then floor + 1
  else floor + floor % 2

/-- Rounding picks the floor or its successor. -/
theorem roundDiv_cases (num den : Nat) :
    roundDiv num den = num / den ∨ roundDiv num den = num / den + 1 := by
  unfold roundDiv
  dsimp only
  split
  · exact .inl rfl
  · split
    · exact .inr rfl
    · have := Nat.mod_two_eq_zero_or_one (num / den)
      omega

theorem roundDiv_le (num den : Nat) : roundDiv num den ≤ num / den + 1 := by
  rcases roundDiv_cases num den with h | h <;> omega

/-- A quotient that is a whole number is its own rounding. -/
theorem roundDiv_mul_right {den : Nat} (pos : 0 < den) (n : Nat) :
    roundDiv (n * den) den = n := by
  simp [roundDiv, Nat.mul_div_cancel _ pos, pos]

/-! ## 2. The grid -/

/-- The exponent of the distance between neighbours at the size of `n`: 53 bits remain. -/
def stepExponent (n : Nat) : Nat := n.log2 - 52

/-- The distance from `n` to the next number of the grid, a power of two. -/
def step (n : Nat) : Nat := 1 <<< stepExponent n

theorem step_pos (n : Nat) : 0 < step n := by
  rw [step, Nat.one_shiftLeft]
  exact Nat.two_pow_pos _

/-- A unit is `2 ^ (-unitExponent)`. -/
def unitExponent : Nat := 1074

/-- The units in the number one. -/
def one : Nat := 1 <<< unitExponent

theorem one_pos : 0 < one := by
  rw [one, Nat.one_shiftLeft]
  exact Nat.two_pow_pos unitExponent

/-- The least number of units past the finite doubles: those in `2 ^ 1024`. -/
def limit : Nat := 1 <<< (1024 + unitExponent)

theorem limit_pos : 0 < limit := by
  rw [limit, Nat.one_shiftLeft]
  exact Nat.two_pow_pos (1024 + unitExponent)

/-- The numbers of units that are finite doubles. -/
def OnGrid (n : Nat) : Prop := n < limit ∧ step n ∣ n

instance (n : Nat) : Decidable (OnGrid n) := inferInstanceAs (Decidable (_ ∧ _))

theorem onGrid_zero : OnGrid 0 := ⟨limit_pos, Nat.dvd_zero _⟩

/-- A number that has at most 53 bits above its last `k` zeros is a multiple of its step. -/
theorem step_dvd_shiftLeft {q k : Nat} (h : q ≤ 1 <<< 53) : step (q <<< k) ∣ q <<< k := by
  simp only [step, stepExponent, Nat.shiftLeft_eq, Nat.one_mul] at h ⊢
  by_cases hq : q = 0
  · simp [hq]
  have hne : q * 2 ^ k ≠ 0 := Nat.mul_ne_zero hq (Nat.ne_of_gt (Nat.two_pow_pos k))
  by_cases htop : q = 2 ^ 53
  · subst htop
    rw [← Nat.pow_add, Nat.log2_two_pow]
    exact Nat.pow_dvd_pow 2 (by omega)
  · have hlt : q < 2 ^ 53 := by omega
    have : (q * 2 ^ k).log2 < 53 + k := by
      rw [Nat.log2_lt hne, Nat.pow_add]
      exact Nat.mul_lt_mul_of_pos_right hlt (Nat.two_pow_pos k)
    exact Nat.dvd_trans (Nat.pow_dvd_pow 2 (by omega)) (Nat.dvd_mul_left (2 ^ k) q)

/-! ## 3. Rounding to the grid -/

/-- The grid number nearest `num / den`; exactly between two, the one whose last bit is 0.
The step is that of the quotient's whole part. -/
def roundToGrid (num den : Nat) : Nat :=
  roundDiv num (den * step (num / den)) * step (num / den)

/-- The quotient by its step has at most 53 bits. -/
theorem div_step_lt (n : Nat) : n / step n < 1 <<< 53 := by
  rw [Nat.div_lt_iff_lt_mul (step_pos n), step, Nat.one_shiftLeft, Nat.one_shiftLeft,
    ← Nat.pow_add]
  by_cases hn : n = 0
  · subst hn
    exact Nat.two_pow_pos _
  · refine Nat.lt_of_lt_of_le (Nat.lt_log2_self (n := n)) (Nat.pow_le_pow_right (by decide) ?_)
    rw [stepExponent]
    omega

/-- **What rounding yields is on the grid.** -/
theorem step_dvd_roundToGrid (num den : Nat) :
    step (roundToGrid num den) ∣ roundToGrid num den := by
  have hle : roundDiv num (den * step (num / den)) ≤ 1 <<< 53 := by
    refine Nat.le_trans (roundDiv_le _ _) ?_
    rw [← Nat.div_div_eq_div_mul]
    exact div_step_lt _
  have := step_dvd_shiftLeft (k := stepExponent (num / den)) hle
  rwa [Nat.shiftLeft_eq, ← Nat.one_shiftLeft] at this

/-- A grid number is its own rounding. -/
theorem roundToGrid_self {n : Nat} (h : step n ∣ n) : roundToGrid n 1 = n := by
  obtain ⟨q, hq⟩ := h
  have hs := step_pos n
  have : roundDiv n (step n) = q := by
    conv => lhs; arg 1; rw [hq, Nat.mul_comm]
    exact roundDiv_mul_right hs q
  rw [roundToGrid, Nat.div_one, Nat.one_mul, this, Nat.mul_comm]
  exact hq.symm

end Cooling.Binary64
