import Cooling.Binary64.Basic
import Mathlib.Algebra.Group.Nat.Defs

/-!
# Rounding to the nearest double

`roundToGrid` rounds a quotient of whole numbers.  What it yields depends on the quotient only
and not on how it is written, and no number of the grid is nearer.  The second is the reason
for everything else that is known of rounding: what lies on one side of a grid number is
rounded to that side of it.

* `round_congr`: quotients of one value are rounded alike;
* `roundToGrid_nearest`: no number of the grid is nearer than the rounding;
* `roundToGrid_le`, `le_roundToGrid`: bounds on the grid are kept;
* `nearest_ofInt`: a whole number becomes a double that is as near as any.
-/

namespace Cooling.Binary64

/-! ## 1. One quotient, one rounding -/

theorem roundDiv_mul_mul (num den : Nat) {c : Nat} (hc : 0 < c) :
    roundDiv (num * c) (den * c) = roundDiv num den := by
  have htwice : 2 * (num % den * c) = 2 * (num % den) * c := (Nat.mul_assoc _ _ _).symm
  simp only [roundDiv, Nat.mul_div_mul_right _ _ hc, Nat.mul_mod_mul_right, htwice,
    Nat.mul_lt_mul_right hc]

theorem roundToGrid_mul_mul (num den : Nat) {c : Nat} (hc : 0 < c) :
    roundToGrid (num * c) (den * c) = roundToGrid num den := by
  rw [roundToGrid, roundToGrid, Nat.mul_div_mul_right _ _ hc, Nat.mul_right_comm,
    roundDiv_mul_mul _ _ hc]

/-- **Quotients of one value** have one rounding. -/
theorem round_congr {num den num' den' : Nat} (hden : 0 < den) (hden' : 0 < den')
    (h : num * den' = num' * den) (negative : Bool) :
    round negative num den = round negative num' den' := by
  have hgrid : roundToGrid num den = roundToGrid num' den' := by
    rw [← roundToGrid_mul_mul num den hden', ← roundToGrid_mul_mul num' den' hden, h,
      Nat.mul_comm den]
  simp only [round, hgrid]

/-! ## 2. Nothing on the grid is nearer -/

/-- The distance between two numbers. -/
def gap (m n : Nat) : Nat := m - n + (n - m)

/-- The nearest multiple of a divisor. -/
theorem roundDiv_nearest (num : Nat) {den : Nat} (hden : 0 < den) (k : Nat) :
    gap num (roundDiv num den * den) ≤ gap num (k * den) := by
  have hdiv : num / den * den + num % den = num := Nat.div_add_mod' num den
  have hrest := Nat.mod_lt num hden
  -- a multiple is at most the floor or at least one more
  have hside : k * den ≤ num / den * den ∨ num / den * den + den ≤ k * den := by
    rcases Nat.lt_or_ge (num / den) k with h | h
    · right
      rw [← Nat.succ_mul]
      exact Nat.mul_le_mul_right den h
    · exact .inl (Nat.mul_le_mul_right den h)
  have hcases : roundDiv num den = num / den ∧ 2 * (num % den) ≤ den ∨
      roundDiv num den = num / den + 1 ∧ den ≤ 2 * (num % den) := by
    have hhalf := Nat.mod_two_eq_zero_or_one (num / den)
    unfold roundDiv
    dsimp only
    split
    · exact .inl ⟨rfl, by omega⟩
    · split
      · exact .inr ⟨rfl, by omega⟩
      · omega
  unfold gap
  rcases hcases with ⟨hround, hrest'⟩ | ⟨hround, hrest'⟩
  · rw [hround]
    omega
  · rw [hround, Nat.succ_mul]
    omega

theorem step_eq_two_pow (n : Nat) : step n = 2 ^ (n.log2 - 52) := Nat.one_shiftLeft _

/-- A number of the grid that is no multiple of the step of `n` lies below the power of two
that starts the numbers of that step. -/
theorem lt_of_not_step_dvd {g n : Nat} (hg : step g ∣ g) (hn : ¬ step n ∣ g) :
    g < 2 ^ n.log2 ∧ step n ∣ 2 ^ n.log2 := by
  rw [step_eq_two_pow] at hg hn ⊢
  have hlog : g.log2 < n.log2 := by
    refine Nat.lt_of_not_le fun hle => hn (Nat.dvd_trans (Nat.pow_dvd_pow 2 ?_) hg)
    omega
  refine ⟨?_, Nat.pow_dvd_pow 2 (Nat.sub_le _ _)⟩
  exact Nat.lt_of_lt_of_le Nat.lt_log2_self (Nat.pow_le_pow_right (by decide) hlog)

/-- **No number of the grid is nearer** to a quotient than its rounding. -/
theorem roundToGrid_nearest (num : Nat) {den g : Nat} (hden : 0 < den) (hg : step g ∣ g) :
    gap num (roundToGrid num den * den) ≤ gap num (g * den) := by
  have hmultiple {k : Nat} (hk : step (num / den) ∣ k) :
      gap num (roundToGrid num den * den) ≤ gap num (k * den) := by
    obtain ⟨c, rfl⟩ := hk
    have hround : roundToGrid num den * den =
        roundDiv num (den * step (num / den)) * (den * step (num / den)) := by
      rw [roundToGrid, Nat.mul_assoc, Nat.mul_comm (step _)]
    have hmul : step (num / den) * c * den = c * (den * step (num / den)) := by
      rw [Nat.mul_comm (step _), Nat.mul_assoc, Nat.mul_comm (step _)]
    rw [hround, hmul]
    exact roundDiv_nearest num (Nat.mul_pos hden (step_pos _)) c
  by_cases hstep : step (num / den) ∣ g
  · exact hmultiple hstep
  · -- between such a number and the quotient lies a power of two, which is a multiple
    obtain ⟨hlt, hpow⟩ := lt_of_not_step_dvd hg hstep
    refine Nat.le_trans (hmultiple hpow) ?_
    have hlow : g * den ≤ 2 ^ (num / den).log2 * den := Nat.mul_le_mul_right den (Nat.le_of_lt hlt)
    have hne : num / den ≠ 0 := by
      intro h
      rw [h] at hlt hstep
      exact hstep (Nat.one_dvd g)
    have hhigh : 2 ^ (num / den).log2 * den ≤ num :=
      Nat.le_trans (Nat.mul_le_mul_right den (Nat.log2_self_le hne)) (Nat.div_mul_le_self num den)
    unfold gap
    omega

/-- What is at most a number of the grid is rounded to at most that. -/
theorem roundToGrid_le {num den g : Nat} (hden : 0 < den) (hg : step g ∣ g)
    (h : num ≤ g * den) : roundToGrid num den ≤ g := by
  refine Nat.le_of_not_lt fun hlt => ?_
  have hnear := roundToGrid_nearest num hden hg
  have hmul := Nat.mul_lt_mul_of_pos_right hlt hden
  unfold gap at hnear
  omega

/-- What is at least a number of the grid is rounded to at least that. -/
theorem le_roundToGrid {num den g : Nat} (hden : 0 < den) (hg : step g ∣ g)
    (h : g * den ≤ num) : g ≤ roundToGrid num den := by
  refine Nat.le_of_not_lt fun hlt => ?_
  have hnear := roundToGrid_nearest num hden hg
  have hmul := Nat.mul_lt_mul_of_pos_right hlt hden
  unfold gap at hnear
  omega

theorem step_dvd_two_pow (k : Nat) : step (2 ^ k) ∣ 2 ^ k := by
  have := step_dvd_shiftLeft (q := 1) (k := k) (by decide)
  rwa [Nat.one_shiftLeft] at this

/-! ## 3. Too large and too small -/

theorem one_eq_two_pow : one = 2 ^ unitExponent := Nat.one_shiftLeft _

theorem limit_eq_two_pow : limit = 2 ^ (1024 + unitExponent) := Nat.one_shiftLeft _

/-- From the limit on there are no finite doubles. -/
theorem round_eq_infinity {num den : Nat} (hden : 0 < den) (h : limit * den ≤ num)
    (negative : Bool) : round negative num den = infinity negative := by
  have hle : limit ≤ roundToGrid num den := by
    refine le_roundToGrid hden ?_ h
    rw [limit_eq_two_pow]
    exact step_dvd_two_pow _
  exact dif_neg (Nat.not_lt.mpr hle)

/-- Less than half a unit is zero. -/
theorem round_eq_zero {num den : Nat} (h : 2 * num < den) (negative : Bool) :
    round negative num den = zero negative := by
  have hlt : num < den := by omega
  have hgrid : roundToGrid num den = 0 := by
    rw [roundToGrid, Nat.div_eq_of_lt hlt]
    have hstep : step 0 = 1 := rfl
    rw [hstep, Nat.mul_one, Nat.mul_one, roundDiv, Nat.div_eq_of_lt hlt, Nat.mod_eq_of_lt hlt]
    exact if_pos h
  simp only [round, hgrid, limit_pos, dif_pos, zero]

/-! ## 4. Doubles and whole numbers -/

/-- **A double nearest a whole number**: it is finite, and no finite double is nearer. -/
def Nearest (n : Int) (x : Binary64) : Prop :=
  ∃ negative units, ∃ h : OnGrid units, x = finite negative units h ∧
    ∀ other k, OnGrid k →
      (signed negative units - n * one).natAbs ≤ (signed other k - n * one).natAbs

/-- A whole number has the sign of its double. -/
theorem mul_one_eq_signed (n : Int) : n * one = signed (n < 0) (n.natAbs * one) := by
  unfold signed
  split
  · rename_i h
    have := of_decide_eq_true h
    rw [Int.natCast_mul, ← Int.neg_mul]
    congr 1
    omega
  · rename_i h
    have : ¬ n < 0 := by simpa using h
    rw [Int.natCast_mul]
    congr 1
    omega

/-- Numbers of one sign are as far apart as without it, those of two signs no nearer than the
first is to zero. -/
theorem gap_le_natAbs_sub (negative other : Bool) {m k bound : Nat}
    (hsame : bound ≤ gap m k) (hzero : bound ≤ gap m 0) :
    bound ≤ (signed other k - signed negative m).natAbs := by
  unfold gap at hsame hzero
  cases negative <;> cases other <;> simp only [signed, Bool.false_eq_true, if_false, if_true] <;>
    omega

/-- **A whole number that becomes a finite double becomes a nearest one.** -/
theorem nearest_ofInt {n : Int} (h : (ofInt n).isFinite = true) : Nearest n (ofInt n) := by
  rw [ofInt, round] at h ⊢
  split at h
  · rename_i hlt
    rw [dif_pos hlt]
    refine ⟨_, _, _, rfl, fun other k hk => ?_⟩
    rw [mul_one_eq_signed]
    have hnear {g : Nat} (hg : step g ∣ g) := roundToGrid_nearest (n.natAbs * one) Nat.one_pos hg
    simp only [Nat.mul_one] at hnear
    have hself : (signed (n < 0) (roundToGrid (n.natAbs * one) 1) -
        signed (n < 0) (n.natAbs * one)).natAbs =
          gap (n.natAbs * one) (roundToGrid (n.natAbs * one) 1) := by
      unfold signed gap
      split <;> omega
    rw [hself]
    exact gap_le_natAbs_sub _ _ (hnear hk.2) (hnear onGrid_zero.2)
  · cases h

/-- A whole number of at most `2 ^ 1023` becomes a finite double. -/
theorem isFinite_ofInt {n : Int} {k : Nat} (hk : k < 1024) (h : n.natAbs ≤ 2 ^ k) :
    (ofInt n).isFinite = true := by
  have hle : roundToGrid (n.natAbs * one) 1 ≤ 2 ^ (k + unitExponent) := by
    refine roundToGrid_le Nat.one_pos (step_dvd_two_pow _) ?_
    rw [Nat.mul_one, Nat.pow_add, one_eq_two_pow]
    exact Nat.mul_le_mul_right _ h
  have hlt : roundToGrid (n.natAbs * one) 1 < limit := by
    rw [limit_eq_two_pow]
    exact Nat.lt_of_le_of_lt hle (Nat.pow_lt_pow_right (by decide) (by omega))
  rw [ofInt, round, dif_pos hlt]
  rfl

end Cooling.Binary64
