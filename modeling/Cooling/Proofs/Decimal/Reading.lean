import Cooling.Decimal.Basic
import Cooling.Proofs.Binary64.Rounding

/-!
# Reading decimals

Reading a decimal is rounding its value (`toBinary64_eq_round`): the answers that are given
early, for numbers far too large or too small, are what rounding would come to.  So it does not
matter how a value is written, and since the exact decimal of a double reads back as the
double, so does the shortest.

* `toBinary64_shift`: zeros at the end of the digits are the same as a larger exponent;
* `toBinary64_shortest_eq`: the shortest decimal of a double reads back as the double.
-/

namespace Cooling.Decimal

open Binary64 (one unitExponent one_eq_two_pow OnGrid)

/-! ## 1. The value of a decimal -/

/-- The value in units is this over `den`. -/
def num (d : Decimal) : Nat := d.digits * 10 ^ d.exponent.toNat * one

/-- A power of ten. -/
def den (d : Decimal) : Nat := 10 ^ (-d.exponent).toNat

theorem den_pos (d : Decimal) : 0 < d.den := Nat.pow_pos (by decide)

/-- A power of two and a larger power of ten stay so when both are raised. -/
theorem two_pow_le_ten_pow {a b c k m e : Nat} (h : (2 ^ a) ^ b ≤ 10 ^ c)
    (hm : m ≤ a * b * k) (he : c * k ≤ e) : 2 ^ m ≤ 10 ^ e :=
  calc 2 ^ m ≤ 2 ^ (a * b * k) := Nat.pow_le_pow_right (by decide) hm
    _ = ((2 ^ a) ^ b) ^ k := by rw [Nat.pow_mul, Nat.pow_mul]
    _ ≤ (10 ^ c) ^ k := Nat.pow_le_pow_left h k
    _ = 10 ^ (c * k) := (Nat.pow_mul 10 c k).symm
    _ ≤ 10 ^ e := Nat.pow_le_pow_right (by decide) he

/-- From `10 ^ 309` on a decimal is past the finite doubles. -/
theorem limit_le_num {d : Decimal} (hdigits : d.digits ≠ 0) (h : 309 ≤ d.exponent) :
    Binary64.limit * d.den ≤ d.num := by
  have hden : d.den = 1 := by
    rw [den, Int.toNat_of_nonpos (by omega), Nat.pow_zero]
  -- `2 ^ 1024 < 10 ^ 309`, by cube roots
  have hroot : (2 ^ 171) ^ 2 ≤ 10 ^ 103 := by decide
  have hunits {k : Nat} (hk : k ≤ 171 * 2 * 3) :
      2 ^ (k + unitExponent) ≤ d.digits * 10 ^ d.exponent.toNat * one := by
    have hpow : 2 ^ k ≤ 10 ^ d.exponent.toNat := two_pow_le_ten_pow hroot hk (by omega)
    rw [Nat.pow_add, one_eq_two_pow]
    refine Nat.mul_le_mul_right _ (Nat.le_trans hpow ?_)
    exact Nat.le_mul_of_pos_left _ (Nat.pos_of_ne_zero hdigits)
  rw [hden, Nat.mul_one, num, Binary64.limit_eq_two_pow]
  exact hunits (by decide)

/-- A decimal whose digits are outweighed by its exponent is below half a unit. -/
theorem two_mul_num_lt {d : Decimal} (h : (d.digits.log2 + 1077 : Int) ≤ 3 * -d.exponent) :
    2 * d.num < d.den := by
  have hexponent : d.exponent.toNat = 0 := Int.toNat_of_nonpos (by omega)
  have hdigits : d.digits < 2 ^ (d.digits.log2 + 1) := Nat.lt_log2_self
  have hunit : unitExponent = 1074 := rfl
  calc 2 * d.num = d.digits * 2 ^ (unitExponent + 1) := by
        rw [num, hexponent, Nat.pow_zero, Nat.mul_one, one_eq_two_pow, Nat.pow_succ,
          Nat.mul_comm 2, Nat.mul_assoc]
    _ < 2 ^ (d.digits.log2 + 1) * 2 ^ (unitExponent + 1) :=
        Nat.mul_lt_mul_of_pos_right hdigits (Nat.two_pow_pos _)
    _ = 2 ^ (d.digits.log2 + 1 + (unitExponent + 1)) := (Nat.pow_add _ _ _).symm
    _ ≤ 2 ^ (3 * (-d.exponent).toNat) := Nat.pow_le_pow_right (by decide) (by omega)
    _ = 8 ^ (-d.exponent).toNat := Nat.pow_mul 2 3 _
    _ ≤ d.den := Nat.pow_le_pow_left (by decide) _

/-- **Reading a decimal rounds its value.** -/
theorem toBinary64_eq_round (negative : Bool) (d : Decimal) :
    d.toBinary64 negative = .round negative d.num d.den := by
  unfold toBinary64
  by_cases hdigits : d.digits = 0
  · rw [if_pos hdigits]
    refine (Binary64.round_eq_zero ?_ negative).symm
    rw [num, hdigits, Nat.zero_mul, Nat.zero_mul]
    exact d.den_pos
  rw [if_neg hdigits]
  by_cases hlarge : 309 ≤ d.exponent
  · rw [if_pos hlarge, Binary64.round_eq_infinity d.den_pos (limit_le_num hdigits hlarge)]
  rw [if_neg hlarge]
  by_cases hsmall : (d.digits.log2 + 1077 : Int) ≤ 3 * -d.exponent
  · rw [if_pos hsmall, Binary64.round_eq_zero (two_mul_num_lt hsmall)]
  rw [if_neg hsmall]
  cases hexponent : d.exponent with
  | ofNat e => simp [num, den, hexponent]
  | negSucc e => simp [num, den, hexponent]

/-! ## 2. One value, one double -/

/-- **Decimals of one value** are read as one double. -/
theorem toBinary64_congr {d d' : Decimal} (h : d.num * d'.den = d'.num * d.den)
    (negative : Bool) : d.toBinary64 negative = d'.toBinary64 negative := by
  rw [toBinary64_eq_round, toBinary64_eq_round, Binary64.round_congr d.den_pos d'.den_pos h]

/-- Zeros at the end of the digits are the same as a larger exponent. -/
theorem toBinary64_shift (digits zeros : Nat) (exponent : Int) (negative : Bool) :
    (⟨digits * 10 ^ zeros, exponent⟩ : Decimal).toBinary64 negative =
      (⟨digits, exponent + zeros⟩ : Decimal).toBinary64 negative := by
  refine toBinary64_congr ?_ negative
  have hpow : 10 ^ zeros * 10 ^ exponent.toNat * 10 ^ (-(exponent + zeros)).toNat =
      10 ^ (exponent + zeros).toNat * 10 ^ (-exponent).toNat := by
    rw [← Nat.pow_add, ← Nat.pow_add, ← Nat.pow_add]
    congr 1
    omega
  calc digits * 10 ^ zeros * 10 ^ exponent.toNat * one * 10 ^ (-(exponent + zeros)).toNat
      = digits * one * (10 ^ zeros * 10 ^ exponent.toNat * 10 ^ (-(exponent + zeros)).toNat) := by
        ac_rfl
    _ = digits * one * (10 ^ (exponent + zeros).toNat * 10 ^ (-exponent).toNat) := by rw [hpow]
    _ = digits * 10 ^ (exponent + zeros).toNat * one * 10 ^ (-exponent).toNat := by ac_rfl

/-! ## 3. Back to the double -/

/-- The exact decimal of a double reads back as the double. -/
theorem toBinary64_exact (negative : Bool) {units : Nat} (h : OnGrid units) :
    (exact units).toBinary64 negative = .finite negative units h := by
  have hnum : (exact units).num = units * 10 ^ unitExponent := by
    have hexponent : (-(unitExponent : Int)).toNat = 0 := Int.toNat_of_nonpos (by omega)
    have hten (n : Nat) : 10 ^ n = 5 ^ n * 2 ^ n := Nat.mul_pow 5 2 n
    rw [num, exact, hexponent, Nat.pow_zero, Nat.mul_one, one_eq_two_pow, hten, Nat.pow_eq,
      Nat.mul_assoc]
  have hden : (exact units).den = 10 ^ unitExponent := by
    rw [den, exact, Int.neg_neg, Int.toNat_natCast]
  rw [toBinary64_eq_round, ← Binary64.round_self negative h]
  refine Binary64.round_congr (den_pos _) Nat.one_pos ?_ negative
  rw [hnum, hden, Nat.mul_one]

/-- A decimal that is read as a finite double is read as the same with the other sign. -/
theorem toBinary64_negative {d : Decimal} {units : Nat} {h : OnGrid units}
    (hd : d.toBinary64 false = .finite false units h) (negative : Bool) :
    d.toBinary64 negative = .finite negative units h := by
  rw [toBinary64_eq_round, Binary64.round] at hd ⊢
  split at hd
  · rename_i hlt
    rw [dif_pos hlt]
    cases hd
    rfl
  · cases hd

/-- **The shortest decimal of a double reads back as the double.** -/
theorem toBinary64_shortest_eq (tie : Tie) (negative : Bool) {units : Nat} (h : OnGrid units) :
    (shortest tie units).toBinary64 negative = .finite negative units h :=
  toBinary64_negative ((toBinary64_shortest tie units).trans (toBinary64_exact false h)) negative

/-- It has digits unless the double is zero. -/
theorem digits_shortest_ne_zero (tie : Tie) {units : Nat} (h : OnGrid units) (hne : units ≠ 0) :
    (shortest tie units).digits ≠ 0 := by
  intro hzero
  have hback := toBinary64_shortest_eq tie false h
  rw [toBinary64, if_pos hzero] at hback
  cases hback
  exact hne rfl

end Cooling.Decimal
