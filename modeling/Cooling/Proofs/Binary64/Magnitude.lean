import Cooling.Clamped
import Cooling.Proofs.Binary64.Rounding

/-!
# How large differences and products of doubles are

What a difference comes to that is multiplied by a whole number and cut to its whole part is
decided by sizes alone.  The **size** of a double is its distance from zero in units; an
infinity has the size `limit`, past that of every finite double, and a NaN counts as nothing.
In these terms an infinity needs no rules of its own: its difference with anything has the size
`limit`, and a product that is too large has it too.

* `roundToGrid_mono`: the larger of two quotients is not rounded to less;
* `atMost_ofInt`: the larger of two whole numbers does not become the lesser double;
* `atMost_ofInt_of_le`, `ofInt_atMost_of_le`: a whole number on one side of a double stays there;
* `size_sub`: the size of a difference, by the positions of the two doubles;
* `size_mul_ofInt`: the size of a product with a whole number;
* `toUInt64_eq`: the whole part of what is not negative, by its size;
* `position_ofInt`, `size_sub_whole`: whole numbers of up to 53 bits and their differences are
  exact.
-/

namespace Cooling.Binary64

/-! ## 1. Rounding keeps the order -/

/-- **The larger of two quotients** is not rounded to less. -/
theorem roundToGrid_mono {num num' den : Nat} (hden : 0 < den) (h : num ≤ num') :
    roundToGrid num den ≤ roundToGrid num' den := by
  refine Nat.le_of_not_lt fun hlt => ?_
  have hnear := roundToGrid_nearest num hden (step_dvd_roundToGrid num' den)
  have hnear' := roundToGrid_nearest num' hden (step_dvd_roundToGrid num den)
  have hmul := Nat.mul_lt_mul_of_pos_right hlt hden
  -- otherwise both lie half-way between the two roundings, so they are one quotient
  have heq : num = num' := by
    unfold gap at hnear hnear'
    omega
  subst heq
  exact Nat.lt_irrefl _ hlt

theorem roundToGrid_zero (den : Nat) : roundToGrid 0 den = 0 := by
  have hdiv : roundDiv 0 (den * step (0 / den)) = 0 := by
    simp [roundDiv]
  rw [roundToGrid, hdiv, Nat.zero_mul]

theorem step_dvd_limit : step limit ∣ limit := by
  rw [limit_eq_two_pow]
  exact step_dvd_two_pow _

theorem step_dvd_one : step one ∣ one := by
  rw [one_eq_two_pow]
  exact step_dvd_two_pow _

/-! ## 2. Sizes and positions -/

/-- Whole numbers are ordered as their places are. -/
theorem mul_one_le_iff {m n : Int} : m * one ≤ n * one ↔ m ≤ n :=
  Int.mul_le_mul_right (Int.natCast_pos.mpr one_pos)

theorem mul_one_lt_iff {m n : Int} : m * one < n * one ↔ m < n :=
  Int.mul_lt_mul_right (Int.natCast_pos.mpr one_pos)

theorem mul_one_inj {m n : Int} : m * one = n * one ↔ m = n :=
  Int.mul_eq_mul_right_iff (Int.natCast_ne_zero.mpr (Nat.ne_of_gt one_pos))

/-- The distance from zero, in units. -/
def size : Binary64 → Nat
  | nan => 0
  | infinity _ => limit
  | finite _ units _ => units

theorem size_le_limit (x : Binary64) : x.size ≤ limit := by
  cases x with
  | nan => exact Nat.zero_le _
  | infinity _ => exact Nat.le_refl _
  | finite _ _ h => exact Nat.le_of_lt h.1

theorem step_dvd_size (x : Binary64) : step x.size ∣ x.size := by
  cases x with
  | nan => exact Nat.dvd_zero _
  | infinity _ => exact step_dvd_limit
  | finite _ _ h => exact h.2

theorem size_round (negative : Bool) (num den : Nat) :
    (round negative num den).size = min (roundToGrid num den) limit := by
  unfold round
  split
  · rename_i h
    exact (Nat.min_eq_left (Nat.le_of_lt h)).symm
  · rename_i h
    exact (Nat.min_eq_right (Nat.le_of_not_lt h)).symm

theorem position_round (negative : Bool) (num den : Nat) :
    (round negative num den).position =
      some (signed negative (min (roundToGrid num den) limit)) := by
  rw [← size_round negative]
  unfold round
  split <;> rfl

@[simp] theorem natAbs_signed (negative : Bool) (n : Nat) : (signed negative n).natAbs = n := by
  unfold signed
  split <;> omega

theorem signed_ne_signed (negative other : Bool) {m n : Nat} (h : m ≠ n) :
    signed negative m ≠ signed other n := by
  intro heq
  have := congrArg Int.natAbs heq
  simp only [natAbs_signed] at this
  exact h this

theorem signed_ne_of_ne : ∀ {s t : Bool} {n : Nat}, s ≠ t → 0 < n → signed s n ≠ signed t n
  | false, false, _, h, _ => absurd rfl h
  | true, true, _, h, _ => absurd rfl h
  | false, true, n, _, hn => by
    show (n : Int) ≠ -(n : Int)
    omega
  | true, false, n, _, hn => by
    show -(n : Int) ≠ (n : Int)
    omega

theorem position_eq_none_iff {x : Binary64} : x.position = none ↔ x = nan := by
  cases x <;> simp [position]

/-- A position is at most as far from zero as those of the infinities. -/
theorem abs_position_le {x : Binary64} {p : Int} (h : x.position = some p) :
    -limit ≤ p ∧ p ≤ limit := by
  have hsigned : ∀ negative n, n ≤ limit →
      -(limit : Int) ≤ signed negative n ∧ signed negative n ≤ limit := by
    intro negative n hn
    unfold signed
    split <;> omega
  cases x with
  | nan => cases h
  | infinity negative =>
    cases h
    exact hsigned _ _ (Nat.le_refl _)
  | finite negative n hn =>
    cases h
    exact hsigned _ _ (Nat.le_of_lt hn.1)

/-- A double is below another by their positions. -/
theorem below_eq_false_iff {x y : Binary64} {p q : Int} (hx : x.position = some p)
    (hy : y.position = some q) : x.below y = false ↔ q ≤ p := by
  unfold below compare
  rw [hx, hy]
  simp [Int.compare_eq_lt]

theorem sub_nan (x : Binary64) : x - nan = nan := by
  cases x <;> rfl

theorem below_nan_right (x : Binary64) : x.below nan = false := by
  cases x <;> rfl

theorem exists_eq_signed_size {x : Binary64} {p : Int} (h : x.position = some p) :
    ∃ negative, p = signed negative x.size := by
  cases x with
  | nan => cases h
  | infinity negative =>
    cases h
    exact ⟨negative, rfl⟩
  | finite negative _ _ =>
    cases h
    exact ⟨negative, rfl⟩

/-- One double is at most another, so neither is a NaN. -/
def AtMost (x y : Binary64) : Prop :=
  ∃ p q, x.position = some p ∧ y.position = some q ∧ p ≤ q

theorem atMost_or_nan {x y : Binary64} (h : x = y ∨ x.AtMost y) :
    x.AtMost y ∨ x = nan ∧ y = nan := by
  rcases h with rfl | h
  · cases hp : x.position with
    | none =>
      have := position_eq_none_iff.mp hp
      exact .inr ⟨this, this⟩
    | some p => exact .inl ⟨p, p, hp, hp, Int.le_refl _⟩
  · exact .inl h

theorem AtMost.below_eq_false {x y : Binary64} (h : x.AtMost y) : y.below x = false := by
  obtain ⟨p, q, hp, hq, hle⟩ := h
  exact (below_eq_false_iff hq hp).mpr hle

/-- A double that is not below zero.  A NaN is not, and neither is the negative zero. -/
def NotNegative (x : Binary64) : Prop := ∀ p ∈ x.position, 0 ≤ p

theorem notNegative_nan : nan.NotNegative := nofun

theorem notNegative_of_position {x : Binary64} {n : Nat}
    (h : x.position = some (signed false n)) : x.NotNegative := by
  intro p hp
  rw [h] at hp
  cases hp
  exact Int.natCast_nonneg n

theorem NotNegative.cases {x : Binary64} (hx : x.NotNegative) :
    x = nan ∨ x = infinity false ∨ (∃ n h, x = finite false n h) ∨ x = zero true := by
  have hpos := limit_pos
  match x, hx with
  | nan, _ => exact .inl rfl
  | infinity false, _ => exact .inr (.inl rfl)
  | infinity true, hx =>
    have := hx _ rfl
    simp [signed] at this
    omega
  | finite false n h, _ => exact .inr (.inr (.inl ⟨n, h, rfl⟩))
  | finite true n h, hx =>
    have hzero : n = 0 := by
      have := hx _ rfl
      simp [signed] at this
      omega
    subst hzero
    exact .inr (.inr (.inr rfl))

/-- **The larger of two whole numbers** does not become the lesser double. -/
theorem atMost_ofInt {m n : Int} (h : m ≤ n) : (ofInt m).AtMost (ofInt n) := by
  refine ⟨_, _, position_round _ _ _, position_round _ _ _, ?_⟩
  have hmono {k l : Int} (hkl : k.natAbs ≤ l.natAbs) :
      roundToGrid (k.natAbs * one) 1 ≤ roundToGrid (l.natAbs * one) 1 :=
    roundToGrid_mono Nat.one_pos (Nat.mul_le_mul_right one hkl)
  by_cases hn : n < 0
  · have := hmono (k := n) (l := m) (by omega)
    simp only [signed, hn, show m < 0 by omega, decide_true, if_true]
    omega
  · by_cases hm : m < 0
    · simp only [signed, hn, hm, decide_true, decide_false, if_true, Bool.false_eq_true, if_false]
      omega
    · have := hmono (k := m) (l := n) (by omega)
      simp only [signed, hn, hm, decide_false, Bool.false_eq_true, if_false]
      omega

/-- A double that is at most a whole number is at most the double that it becomes. -/
theorem atMost_ofInt_of_le {x : Binary64} {p n : Int} (hx : x.position = some p)
    (h : p ≤ n * one) : x.AtMost (ofInt n) := by
  refine ⟨p, _, hx, position_round _ _ _, ?_⟩
  obtain ⟨negative, rfl⟩ := exists_eq_signed_size hx
  have hlimit := x.size_le_limit
  have hgrid := x.step_dvd_size
  rw [mul_one_eq_signed] at h
  generalize n.natAbs * one = units at *
  -- only where both have the same sign does the rounding matter
  cases negative with
  | false =>
    by_cases hn : n < 0
    · simp only [signed, hn, decide_true, Bool.false_eq_true, if_true, if_false] at h ⊢
      have hzero : units = 0 := by omega
      rw [hzero, roundToGrid_zero]
      omega
    · simp only [signed, hn, decide_false, Bool.false_eq_true, if_false] at h ⊢
      have hround := le_roundToGrid Nat.one_pos hgrid (show x.size * 1 ≤ units by omega)
      omega
  | true =>
    by_cases hn : n < 0
    · simp only [signed, hn, decide_true, if_true] at h ⊢
      have hround := roundToGrid_le Nat.one_pos hgrid (show units ≤ x.size * 1 by omega)
      omega
    · simp only [signed, hn, decide_false, Bool.false_eq_true, if_true, if_false] at h ⊢
      omega

/-- The number line has the same places on both sides of zero. -/
theorem exists_position_neg {x : Binary64} {p : Int} (h : x.position = some p) :
    ∃ y : Binary64, y.position = some (-p) := by
  have hsigned : ∀ negative n, signed (!negative) n = -signed negative n := by
    intro negative n
    cases negative with
    | false => rfl
    | true => exact (Int.neg_neg _).symm
  cases x with
  | nan => cases h
  | infinity negative =>
    cases h
    exact ⟨infinity (!negative), congrArg some (hsigned negative limit)⟩
  | finite negative n hn =>
    cases h
    exact ⟨finite (!negative) n hn, congrArg some (hsigned negative n)⟩

/-- Whole numbers on both sides of zero are rounded alike. -/
theorem position_ofInt_neg {n p : Int} (h : (ofInt n).position = some p) :
    (ofInt (-n)).position = some (-p) := by
  rw [ofInt, position_round] at h ⊢
  cases h
  rw [Int.natAbs_neg]
  rcases Int.lt_trichotomy n 0 with hn | rfl | hn
  · simp [signed, hn, Int.not_lt.mpr (Int.le_of_lt hn)]
  · simp [signed, roundToGrid_zero]
  · simp [signed, hn, Int.not_lt.mpr (Int.le_of_lt hn)]

/-- A double that is at least a whole number is at least the double that it becomes. -/
theorem ofInt_atMost_of_le {x : Binary64} {p n : Int} (hx : x.position = some p)
    (h : n * one ≤ p) : (ofInt n).AtMost x := by
  obtain ⟨y, hy⟩ := exists_position_neg hx
  have hneg : -p ≤ -n * one := by
    rw [Int.neg_mul]
    omega
  obtain ⟨q, r, hq, hr, hle⟩ := atMost_ofInt_of_le hy hneg
  cases hy.symm.trans hq
  have hback := position_ofInt_neg hr
  rw [Int.neg_neg] at hback
  exact ⟨-r, p, hback, hx, by omega⟩

/-! ## 3. Differences -/

/-- The size of a difference of finite doubles is its rounding. -/
theorem size_sub_finite (a b : Bool) {m n : Nat} (hm : OnGrid m) (hn : OnGrid n) :
    (finite a m hm - finite b n hn).size =
      min (roundToGrid (signed a m - signed b n).natAbs 1) limit := by
  show (sub (finite a m hm) (finite b n hn)).size = _
  unfold sub
  dsimp only
  split
  · rename_i h
    rw [h, Int.natAbs_zero, roundToGrid_zero, Nat.zero_min]
    rfl
  · exact size_round _ _ _

/-- Finite doubles have a difference. -/
theorem sub_ne_nan {x y : Binary64} (hx : x.isFinite = true) (hy : y.isFinite = true) :
    x - y ≠ nan := by
  cases x with
  | nan => cases hx
  | infinity _ => cases hx
  | finite a m hm =>
    cases y with
    | nan => cases hy
    | infinity _ => cases hy
    | finite b n hn =>
      show sub (finite a m hm) (finite b n hn) ≠ nan
      unfold sub
      dsimp only
      split
      · intro h
        cases h
      · intro h
        have := congrArg position h
        rw [position_round] at this
        cases this

/-- **The size of a difference.**  Equal infinities have none, and an infinity is as far as can
be from all else. -/
theorem size_sub {x y : Binary64} {p q : Int} (hx : x.position = some p)
    (hy : y.position = some q) :
    (x - y).size =
      if p = q then 0
      else if p.natAbs = limit ∨ q.natAbs = limit then limit
      else min (roundToGrid (p - q).natAbs 1) limit := by
  cases x with
  | nan => cases hx
  | infinity s =>
    cases hx
    cases y with
    | nan => cases hy
    | infinity t =>
      cases hy
      show (if s = t then nan else infinity s).size = _
      by_cases hst : s = t
      · subst hst
        rw [if_pos rfl, if_pos rfl]
        rfl
      · rw [if_neg hst, if_neg (signed_ne_of_ne hst limit_pos),
          if_pos (.inl (natAbs_signed _ _))]
        rfl
    | finite t n hn =>
      cases hy
      rw [if_neg (signed_ne_signed s t (Nat.ne_of_gt hn.1)), if_pos (.inl (natAbs_signed _ _))]
      rfl
  | finite s m hm =>
    cases hx
    cases y with
    | nan => cases hy
    | infinity t =>
      cases hy
      rw [if_neg (signed_ne_signed s t (Nat.ne_of_lt hm.1)), if_pos (.inr (natAbs_signed _ _))]
      rfl
    | finite t n hn =>
      cases hy
      have hm' : (signed s m).natAbs ≠ limit := by
        rw [natAbs_signed]
        exact Nat.ne_of_lt hm.1
      have hn' : (signed t n).natAbs ≠ limit := by
        rw [natAbs_signed]
        exact Nat.ne_of_lt hn.1
      rw [size_sub_finite, if_neg (not_or.mpr ⟨hm', hn'⟩)]
      split
      · rename_i h
        rw [h, Int.sub_self, Int.natAbs_zero, roundToGrid_zero, Nat.zero_min]
      · rfl

/-- A larger number less a smaller one is no smaller a difference. -/
theorem size_sub_mono {x x' y y' : Binary64} {p p' q q' : Int} (hx : x.position = some p)
    (hx' : x'.position = some p') (hy : y.position = some q) (hy' : y'.position = some q')
    (hle : q ≤ p) (hp : p ≤ p') (hq : q' ≤ q) : (x - y).size ≤ (x' - y').size := by
  have hp' := abs_position_le hx'
  have hq' := abs_position_le hy'
  rw [size_sub hx hy, size_sub hx' hy']
  by_cases heq : p = q
  · rw [if_pos heq]
    exact Nat.zero_le _
  rw [if_neg heq, if_neg (show p' ≠ q' by omega)]
  by_cases hend : p.natAbs = limit ∨ q.natAbs = limit
  · have hend' : p'.natAbs = limit ∨ q'.natAbs = limit := by omega
    exact Nat.le_of_eq (by rw [if_pos hend, if_pos hend'])
  · rw [if_neg hend]
    split
    · exact Nat.min_le_right _ _
    · have hround := roundToGrid_mono Nat.one_pos (show (p - q).natAbs ≤ (p' - q').natAbs by omega)
      omega

/-- Of two numbers the larger one is positive if it is farther from zero. -/
theorem eq_false_of_signed_le {s t : Bool} {m n : Nat} (h : signed t n ≤ signed s m)
    (hlt : n < m) : s = false := by
  cases s
  · rfl
  · cases t <;> simp [signed] at h <;> omega

/-- Of two numbers the smaller one is negative if it is farther from zero. -/
theorem eq_true_of_signed_le {s t : Bool} {m n : Nat} (h : signed t n ≤ signed s m)
    (hlt : m < n) : t = true := by
  cases t
  · cases s <;> simp [signed] at h <;> omega
  · rfl

/-- A difference with something no larger is not negative. -/
theorem notNegative_sub {x y : Binary64} (h : x.below y = false) : (x - y).NotNegative := by
  match x, y, h with
  | nan, _, _ => exact notNegative_nan
  | infinity _, nan, _ => exact notNegative_nan
  | finite .., nan, _ => exact notNegative_nan
  | infinity s, infinity t, h =>
    have hle := (below_eq_false_iff rfl rfl).mp h
    show (if s = t then nan else infinity s).NotNegative
    split
    · exact notNegative_nan
    · rename_i hne
      cases s with
      | false => exact notNegative_of_position rfl
      | true =>
        cases t with
        | false =>
          have hpos := limit_pos
          have hle : (limit : Int) ≤ -limit := hle
          omega
        | true => exact absurd rfl hne
  | infinity s, finite t n hn, h =>
    have hle := (below_eq_false_iff rfl rfl).mp h
    rw [eq_false_of_signed_le hle hn.1]
    exact notNegative_of_position rfl
  | finite s m hm, infinity t, h =>
    have hle := (below_eq_false_iff rfl rfl).mp h
    rw [eq_true_of_signed_le hle hm.1]
    exact notNegative_of_position rfl
  | finite s m hm, finite t n hn, h =>
    have hle := (below_eq_false_iff rfl rfl).mp h
    show (if signed s m - signed t n = 0 then zero (s && !t)
      else round (signed s m - signed t n < 0) (signed s m - signed t n).natAbs 1).NotNegative
    split
    · cases (s && !t) <;> exact notNegative_of_position rfl
    · rw [decide_eq_false (show ¬ signed s m - signed t n < 0 by omega)]
      exact notNegative_of_position (position_round _ _ _)

/-- A larger number less a smaller one: the order and the size of the difference are kept.  A
NaN is in no order and stays what it is. -/
theorem sub_mono {x x' y y' : Binary64} (hx : x = x' ∨ x.AtMost x') (hy : y' = y ∨ y'.AtMost y)
    (h : x.below y = false) : x'.below y' = false ∧ (x - y).size ≤ (x' - y').size := by
  rcases atMost_or_nan hx with ⟨p, p', hp, hp', hle⟩ | ⟨rfl, rfl⟩
  · rcases atMost_or_nan hy with ⟨q', q, hq', hq, hle'⟩ | ⟨rfl, rfl⟩
    · have hqp := (below_eq_false_iff hp hq).mp h
      exact ⟨(below_eq_false_iff hp' hq').mpr (by omega),
        size_sub_mono hp hp' hq hq' hqp hle hle'⟩
    · exact ⟨below_nan_right _, Nat.le_of_eq (by rw [sub_nan, sub_nan])⟩
  · exact ⟨rfl, Nat.le_refl _⟩

/-! ## 4. Products with whole numbers, and whole parts -/

theorem isFinite_ofInt_toInt (n : Int64) : (ofInt n.toInt).isFinite = true := by
  have hlow := n.le_toInt
  have hhigh := n.toInt_lt
  have hle : n.toInt.natAbs ≤ 2 ^ 63 := by omega
  exact isFinite_ofInt (by decide) hle

/-- A word is a double that is finite and not negative. -/
theorem exists_ofInt_eq_finite (k : UInt64) :
    ∃ h, ofInt k.toNat = finite false (roundToGrid (k.toNat * one) 1) h := by
  have hle : (k.toNat : Int).natAbs ≤ 2 ^ 64 := Nat.le_of_lt k.toNat_lt
  have hfinite := isFinite_ofInt (by decide) hle
  rw [ofInt, Int.natAbs_natCast, decide_eq_false (by omega), round] at hfinite ⊢
  split at hfinite
  · rename_i hlt
    exact ⟨_, dif_pos hlt⟩
  · cases hfinite

/-- **The size of a product with a whole number.** -/
theorem size_mul_ofInt (x : Binary64) (k : UInt64) :
    (x * ofInt k.toNat).size =
      min (roundToGrid (x.size * roundToGrid (k.toNat * one) 1) one) limit := by
  obtain ⟨h, hk⟩ := exists_ofInt_eq_finite k
  rw [hk]
  cases x with
  | nan =>
    rw [size, Nat.zero_mul, roundToGrid_zero, Nat.zero_min]
    rfl
  | infinity s =>
    show (if roundToGrid (k.toNat * one) 1 = 0 then nan else infinity (s != false)).size =
      min (roundToGrid (limit * roundToGrid (k.toNat * one) 1) one) limit
    split
    · rename_i hzero
      rw [hzero, Nat.mul_zero, roundToGrid_zero, Nat.zero_min]
      rfl
    · rename_i hne
      have hk : 1 ≤ k.toNat := by
        refine Nat.one_le_iff_ne_zero.mpr fun hk => hne ?_
        rw [hk, Nat.zero_mul, roundToGrid_zero]
      have hone : one ≤ roundToGrid (k.toNat * one) 1 := by
        refine le_roundToGrid Nat.one_pos step_dvd_one ?_
        rw [Nat.mul_one]
        exact Nat.le_mul_of_pos_left one hk
      have hlarge := le_roundToGrid one_pos step_dvd_limit (Nat.mul_le_mul_left limit hone)
      exact (Nat.min_eq_right hlarge).symm
  | finite s m hm => exact size_round _ _ _

theorem NotNegative.mul_ofInt {x : Binary64} (hx : x.NotNegative) (k : UInt64) :
    (x * ofInt k.toNat).NotNegative := by
  obtain ⟨h, hk⟩ := exists_ofInt_eq_finite k
  rw [hk]
  rcases hx.cases with rfl | rfl | ⟨n, hn, rfl⟩ | rfl
  · exact notNegative_nan
  · show (if roundToGrid (k.toNat * one) 1 = 0 then nan else infinity false).NotNegative
    split
    · exact notNegative_nan
    · exact notNegative_of_position rfl
  · exact notNegative_of_position (position_round _ _ _)
  · show (round true (0 * roundToGrid (k.toNat * one) 1) one).NotNegative
    intro r hr
    rw [position_round, Nat.zero_mul, roundToGrid_zero, Nat.zero_min] at hr
    cases hr
    decide

theorem two_pow_64_le_limit_div_one : 2 ^ 64 ≤ limit / one := by
  rw [Nat.le_div_iff_mul_le one_pos, one_eq_two_pow, limit_eq_two_pow, ← Nat.pow_add]
  exact Nat.pow_le_pow_right (by decide) (by decide)

/-- Words are far from the infinities. -/
theorem mul_one_le_limit {n : Nat} (h : n ≤ 2 ^ 64) : n * one ≤ limit :=
  (Nat.le_div_iff_mul_le one_pos).mp (Nat.le_trans h two_pow_64_le_limit_div_one)

/-- **The whole part** of what is not negative. -/
theorem toUInt64_eq {x : Binary64} (hx : x.NotNegative) :
    x.toUInt64 = Clamped.ofNat (x.size / one) := by
  rcases hx.cases with rfl | rfl | ⟨n, hn, rfl⟩ | rfl
  · rw [size, Nat.zero_div]
    rfl
  · have := two_pow_64_le_limit_div_one
    rw [size, Clamped.ofNat, Nat.min_eq_right (by omega)]
    rfl
  · rfl
  · show (0 : UInt64) = Clamped.ofNat (0 / one)
    rw [Nat.zero_div]
    rfl

/-! ## 5. Parts of a whole number -/

/-- A grid number below a power of two is a whole step of the last numbers below it. -/
theorem add_two_pow_le {m e : Nat} (hm : step m ∣ m) (h : m < 2 ^ (53 + e)) :
    m + 2 ^ e ≤ 2 ^ (53 + e) := by
  have hpow : 2 ^ (53 + e) = 2 ^ 53 * 2 ^ e := Nat.pow_add 2 53 e
  have hpos := Nat.two_pow_pos e
  by_cases hhalf : m < 2 ^ 52 * 2 ^ e
  · omega
  · have hlog : m.log2 = 52 + e := by
      have hne : m ≠ 0 := by omega
      have hle : 52 + e ≤ m.log2 := by
        rw [Nat.le_log2 hne, Nat.pow_add]
        omega
      have hlt : m.log2 < 53 + e := (Nat.log2_lt hne).mpr h
      omega
    have hstep : step m = 2 ^ e := by
      rw [step_eq_two_pow, hlog]
      congr 1
      omega
    rw [hstep] at hm
    obtain ⟨k, rfl⟩ := hm
    have hk : k < 2 ^ 53 := by
      rw [hpow, Nat.mul_comm (2 ^ 53)] at h
      exact Nat.lt_of_mul_lt_mul_left h
    calc 2 ^ e * k + 2 ^ e = 2 ^ e * (k + 1) := (Nat.mul_succ _ _).symm
      _ ≤ 2 ^ e * 2 ^ 53 := Nat.mul_le_mul_left _ hk
      _ = 2 ^ (53 + e) := by rw [hpow, Nat.mul_comm]

/-- The least power of two that is no smaller than a number of up to 53 bits. -/
theorem exists_two_pow_ge {d : Nat} (hpos : 0 < d) (hd : d ≤ 2 ^ 53) :
    ∃ j, j ≤ 53 ∧ 2 ^ j < 2 * d ∧ d ≤ 2 ^ j := by
  have hne : 2 * d - 1 ≠ 0 := by omega
  refine ⟨(2 * d - 1).log2, ?_, ?_, ?_⟩
  · have hlog := (Nat.log2_lt (n := 2 * d - 1) (k := 54) hne).mpr (by omega)
    omega
  · have hlow := Nat.log2_self_le hne
    omega
  · have hhigh := Nat.lt_log2_self (n := 2 * d - 1)
    rw [Nat.pow_succ] at hhigh
    omega

/-- One step below a multiple of a large power of two there is a grid number. -/
theorem step_dvd_pred_mul {d j : Nat} (hj : j ≤ 53) (hd : d ≤ 2 ^ j) (e : Nat) :
    step ((d * 2 ^ (53 - j) - 1) * 2 ^ (j + e)) ∣ (d * 2 ^ (53 - j) - 1) * 2 ^ (j + e) := by
  have hmul : d * 2 ^ (53 - j) ≤ 2 ^ j * 2 ^ (53 - j) := Nat.mul_le_mul_right _ hd
  rw [← Nat.pow_add, Nat.add_sub_cancel' hj] at hmul
  rw [← Nat.shiftLeft_eq]
  refine step_dvd_shiftLeft ?_
  rw [Nat.one_shiftLeft]
  omega

theorem roundToGrid_mul_lt_two_pow {m d e : Nat} (hm : step m ∣ m) (h : m < 2 ^ (53 + e))
    (hpos : 0 < d) (hd : d ≤ 2 ^ 53) : roundToGrid (m * d) 1 < d * 2 ^ (53 + e) := by
  obtain ⟨j, hj, hlow, hhigh⟩ := exists_two_pow_ge hpos hd
  refine Nat.lt_of_not_le fun hle => ?_
  -- the product is nearer to the grid number one step below the bound than to the bound
  have hnear := roundToGrid_nearest (m * d) Nat.one_pos (step_dvd_pred_mul hj hhigh e)
  have hpred : (d * 2 ^ (53 - j) - 1) * 2 ^ (j + e) = d * 2 ^ (53 + e) - 2 ^ (j + e) := by
    rw [Nat.sub_mul, Nat.one_mul, Nat.mul_assoc, ← Nat.pow_add]
    congr 3
    omega
  have hprod : m * d + 2 ^ e * d ≤ d * 2 ^ (53 + e) := by
    rw [← Nat.add_mul, Nat.mul_comm d]
    exact Nat.mul_le_mul_right d (add_two_pow_le hm h)
  have hhalf : 2 ^ (j + e) < 2 * (2 ^ e * d) := by
    rw [Nat.pow_add, Nat.mul_comm, Nat.mul_left_comm]
    exact Nat.mul_lt_mul_of_pos_left hlow (Nat.two_pow_pos e)
  have hunit := Nat.two_pow_pos (j + e)
  have hstep : 2 ^ (j + e) ≤ d * 2 ^ (53 + e) := by
    have hpow := Nat.pow_le_pow_right (n := 2) (by decide) (Nat.add_le_add_right hj e)
    have hmul := Nat.mul_le_mul hpos hpow
    rwa [Nat.one_mul] at hmul
  rw [hpred, Nat.mul_one, Nat.mul_one] at hnear
  generalize d * 2 ^ (53 + e) = whole at *
  generalize 2 ^ e * d = rest at *
  generalize 2 ^ (j + e) = unit at *
  unfold gap at hnear
  omega

/-- **A part of a whole number** is rounded to less than it, however small the rest. -/
theorem roundToGrid_mul_lt {m d : Nat} (hm : step m ∣ m) (h : m < one) (hpos : 0 < d)
    (hd : d ≤ 2 ^ 53) : roundToGrid (m * d) 1 < d * one := by
  have hexp : unitExponent = 53 + 1021 := rfl
  rw [one_eq_two_pow, hexp] at h ⊢
  exact roundToGrid_mul_lt_two_pow hm h hpos hd

/-! ## 6. Whole numbers of up to 53 bits -/

/-- Up to 53 bits a whole number is a double. -/
theorem step_dvd_mul_one {n : Nat} (h : n ≤ 2 ^ 53) : step (n * one) ∣ n * one := by
  have := step_dvd_shiftLeft (k := unitExponent) (Nat.one_shiftLeft 53 ▸ h)
  rwa [Nat.shiftLeft_eq, ← one_eq_two_pow] at this

/-- **A whole number of up to 53 bits** stands as a double where it stands itself. -/
theorem position_ofInt {n : Int} (h : n.natAbs ≤ 2 ^ 53) :
    (ofInt n).position = some (n * one) := by
  rw [ofInt, position_round, roundToGrid_self (step_dvd_mul_one h),
    Nat.min_eq_left (mul_one_le_limit (by omega)), ← mul_one_eq_signed]

/-- **Differences** of doubles that are whole are exact up to 53 bits. -/
theorem size_sub_whole {x y : Binary64} {m n : Int} (hx : x.position = some (m * one))
    (hy : y.position = some (n * one)) (hm : m.natAbs ≤ 2 ^ 53) (hn : n.natAbs ≤ 2 ^ 53)
    (h : (m - n).natAbs ≤ 2 ^ 53) : (x - y).size = (m - n).natAbs * one := by
  have hfar {k : Int} (hk : k.natAbs ≤ 2 ^ 53) : (k * one).natAbs ≠ limit := by
    have hlimit := mul_one_le_limit (n := 2 ^ 64) (Nat.le_refl _)
    have hone := one_pos
    have hmul := Nat.mul_le_mul_right one hk
    rw [Int.natAbs_mul, Int.natAbs_natCast]
    omega
  have hunits : (m * one - n * one).natAbs = (m - n).natAbs * one := by
    rw [← Int.sub_mul, Int.natAbs_mul, Int.natAbs_natCast]
  rw [size_sub hx hy, if_neg (not_or.mpr ⟨hfar hm, hfar hn⟩), hunits,
    roundToGrid_self (step_dvd_mul_one h), Nat.min_eq_left (mul_one_le_limit (by omega))]
  split
  · rename_i heq
    rw [← hunits, heq, Int.sub_self, Int.natAbs_zero]
  · rfl

end Cooling.Binary64
