import Cooling.Property
import Cooling.Proofs.Binary64.Magnitude
import Mathlib.Algebra.Order.Field.Basic
import Mathlib.Algebra.Order.Ring.Rat
import Mathlib.Order.WithBot

/-!
# The order of numbers

Two whole numbers are compared as they are.  Of any other two numbers a whole one is rounded to
a double first, and that loses digits from `2 ^ 53` on.  What is known of the order nevertheless
follows from one fact, `rounded_mono`: rounding never takes a number past another one.

So there are two places to a number.  `position?` is where it stands exactly, in units, and
`rounded?` is where its double stands.  A comparison looks at the first for two whole numbers
and at the second for all others; the first decides what it means (`lt_of_compare`), and both
together that it is transitive (`compare_trans`).  `value?` is the exact value apart from any
units, a rational number or an infinity, and is ordered as the exact places are.

Being equal is not transitive, as numbers become equal by rounding; the order is not total
either, as a NaN is above, below and equal to nothing.
-/

namespace Cooling

open Binary64 (one limit limit_pos signed Nearest)

/-! ## 1. Exact values -/

/-- What a double stands for: a rational number or an infinity, and nothing for a NaN. -/
def Binary64.value? : Binary64 → Option (WithBot (WithTop ℚ))
  | nan => none
  | infinity negative => some (if negative then ⊥ else ⊤)
  | finite negative units _ => some (((signed negative units : ℚ) / one : ℚ) : WithTop ℚ)

namespace Property

/-- The exact value of a number, none being rounded. -/
def value? : Property → Option (WithBot (WithTop ℚ))
  | .int n => some ((n.toInt : ℚ) : WithTop ℚ)
  | .float x => x.value?
  | _ => none

/-- The place of a number on the number line, in units, none being rounded. -/
def position? : Property → Option Int
  | .int n => some (n.toInt * one)
  | .float x => x.position
  | _ => none

/-- The exact value of one number is below that of another. -/
def Below (a b : Property) : Prop := ∃ u v, a.value? = some u ∧ b.value? = some v ∧ u < v

/-- Two numbers have one exact value. -/
def SameValue (a b : Property) : Prop := ∃ v, a.value? = some v ∧ b.value? = some v

/-- What has no place in the order: a truth value, a string and a NaN. -/
inductive Unordered : Property → Prop where
  | bool (b : Bool) : Unordered (.bool b)
  | string (s : String) : Unordered (.string s)
  | nan : Unordered (.float .nan)

variable {a b c : Property} {p q : Int}

/-- The value at a place. -/
def valueAt (p : Int) : WithBot (WithTop ℚ) :=
  if limit ≤ p then ⊤ else if p ≤ -limit then ⊥ else (((p : ℚ) / one : ℚ) : WithTop ℚ)

theorem valueAt_of_lt (hlow : -limit < p) (hhigh : p < limit) :
    valueAt p = (((p : ℚ) / one : ℚ) : WithTop ℚ) := by
  rw [valueAt, if_neg (Int.not_le.mpr hhigh), if_neg (Int.not_le.mpr hlow)]

/-- Values are ordered as their places, from one infinity to the other. -/
theorem valueAt_lt (hlow : -limit ≤ p) (hhigh : q ≤ limit) (h : p < q) :
    valueAt p < valueAt q := by
  have hone : (0 : ℚ) < one := Nat.cast_pos.mpr Binary64.one_pos
  unfold valueAt
  rw [if_neg (show ¬ (limit : Int) ≤ p by omega), if_neg (show ¬ q ≤ -(limit : Int) by omega)]
  split
  · split
    · exact bot_lt_top
    · exact WithBot.bot_lt_coe _
  · split
    · exact WithBot.coe_lt_coe.mpr (WithTop.coe_lt_top _)
    · have hdiv := div_lt_div_of_pos_right (Int.cast_lt.mpr h) hone
      exact WithBot.coe_lt_coe.mpr (WithTop.coe_lt_coe.mpr hdiv)

theorem valueAt_lt_iff (hp : -limit ≤ p ∧ p ≤ limit) (hq : -limit ≤ q ∧ q ≤ limit) :
    valueAt p < valueAt q ↔ p < q := by
  constructor
  · intro h
    rcases Int.lt_trichotomy p q with hlt | rfl | hlt
    · exact hlt
    · exact absurd h (lt_irrefl _)
    · exact absurd h (lt_asymm (valueAt_lt hq.1 hp.2 hlt))
  · exact valueAt_lt hp.1 hq.2

theorem valueAt_eq_iff (hp : -limit ≤ p ∧ p ≤ limit) (hq : -limit ≤ q ∧ q ≤ limit) :
    valueAt p = valueAt q ↔ p = q := by
  constructor
  · intro h
    rcases Int.lt_trichotomy p q with hlt | rfl | hlt
    · exact absurd h (ne_of_lt (valueAt_lt hp.1 hq.2 hlt))
    · rfl
    · exact absurd h.symm (ne_of_lt (valueAt_lt hq.1 hp.2 hlt))
  · exact congrArg valueAt

/-- A whole number of 64 bits is far from the infinities. -/
theorem natAbs_mul_one_lt (n : Int64) : (n.toInt * one).natAbs < limit := by
  have hlow := n.le_toInt
  have hhigh := n.toInt_lt
  have hlimit : 2 ^ 64 * one ≤ limit := Binary64.mul_one_le_limit (Nat.le_refl _)
  have hlt : n.toInt.natAbs * one < 2 ^ 64 * one :=
    Nat.mul_lt_mul_of_pos_right (by omega) Binary64.one_pos
  rw [Int.natAbs_mul, Int.natAbs_natCast]
  omega

theorem abs_position?_le (h : a.position? = some p) : -limit ≤ p ∧ p ≤ limit := by
  cases a with
  | int n =>
    cases h
    have hlt := natAbs_mul_one_lt n
    exact ⟨by omega, by omega⟩
  | float x => exact Binary64.abs_position_le h
  | bool _ => cases h
  | string _ => cases h

/-- **The exact value of a number** is the one at its place. -/
theorem value?_of_position? (h : a.position? = some p) : a.value? = some (valueAt p) := by
  have hpos := limit_pos
  cases a with
  | bool _ => cases h
  | string _ => cases h
  | int n =>
    cases h
    have hlt := natAbs_mul_one_lt n
    have hone : (one : ℚ) ≠ 0 := Nat.cast_ne_zero.mpr (Nat.ne_of_gt Binary64.one_pos)
    rw [valueAt_of_lt (by omega) (by omega), Int.cast_mul, Int.cast_natCast,
      mul_div_cancel_right₀ _ hone]
    rfl
  | float x =>
    cases x with
    | nan => cases h
    | infinity negative =>
      cases h
      cases negative with
      | false =>
        have hplace : valueAt (signed false limit) = ⊤ := if_pos (Int.le_refl _)
        rw [hplace]
        rfl
      | true =>
        have hplace : valueAt (signed true limit) = ⊥ := by
          simp only [valueAt, signed, if_true]
          rw [if_neg (by omega), if_pos (Int.le_refl _)]
        rw [hplace]
        rfl
    | finite negative units hgrid =>
      cases h
      have hlt := hgrid.1
      have habs := Binary64.natAbs_signed negative units
      rw [valueAt_of_lt (by omega) (by omega)]
      rfl

theorem position?_eq_none_iff : a.position? = none ↔ a.Unordered := by
  constructor
  · intro h
    cases a with
    | bool b => exact .bool b
    | string s => exact .string s
    | int n => cases h
    | float x =>
      cases Binary64.position_eq_none_iff.mp h
      exact .nan
  · intro h
    cases h <;> rfl

theorem exists_position? {v : WithBot (WithTop ℚ)} (h : a.value? = some v) :
    ∃ p, a.position? = some p := by
  cases hp : a.position? with
  | some p => exact ⟨p, rfl⟩
  | none => cases position?_eq_none_iff.mp hp <;> cases h

/-- The exact value of one number is below that of another as its place is. -/
theorem below_iff :
    Below a b ↔ ∃ p q, a.position? = some p ∧ b.position? = some q ∧ p < q := by
  constructor
  · rintro ⟨u, v, hu, hv, hlt⟩
    obtain ⟨p, hp⟩ := exists_position? hu
    obtain ⟨q, hq⟩ := exists_position? hv
    cases (value?_of_position? hp).symm.trans hu
    cases (value?_of_position? hq).symm.trans hv
    exact ⟨p, q, hp, hq,
      (valueAt_lt_iff (abs_position?_le hp) (abs_position?_le hq)).mp hlt⟩
  · rintro ⟨p, q, hp, hq, hlt⟩
    exact ⟨_, _, value?_of_position? hp, value?_of_position? hq,
      (valueAt_lt_iff (abs_position?_le hp) (abs_position?_le hq)).mpr hlt⟩

/-- Two numbers have one value exactly if they stand at one place. -/
theorem sameValue_iff : SameValue a b ↔ ∃ p, a.position? = some p ∧ b.position? = some p := by
  constructor
  · rintro ⟨v, hu, hv⟩
    obtain ⟨p, hp⟩ := exists_position? hu
    obtain ⟨q, hq⟩ := exists_position? hv
    have hvalues : valueAt p = valueAt q := by
      rw [value?_of_position? hp] at hu
      rw [value?_of_position? hq] at hv
      exact Option.some.inj (hu.trans hv.symm)
    obtain rfl := (valueAt_eq_iff (abs_position?_le hp) (abs_position?_le hq)).mp hvalues
    exact ⟨p, hp, hq⟩
  · rintro ⟨p, hp, hq⟩
    exact ⟨_, value?_of_position? hp, value?_of_position? hq⟩

/-! ## 2. Rounded places -/

/-- The place of the double that a number is taken as. -/
def rounded? (a : Property) : Option Int := a.toBinary64? >>= Binary64.position

theorem rounded?_int (n : Int64) :
    (int n).rounded? = (Binary64.ofInt n.toInt).position := by
  rw [rounded?, toBinary64?, Option.bind_eq_bind, Option.bind_some]

theorem rounded?_float (x : Binary64) : (float x).rounded? = x.position := by
  rw [rounded?, toBinary64?, Option.bind_eq_bind, Option.bind_some]

theorem rounded?_eq_none_iff : a.rounded? = none ↔ a.Unordered := by
  rw [← position?_eq_none_iff]
  cases a with
  | int n =>
    rw [rounded?_int, Binary64.ofInt, Binary64.position_round]
    constructor
    · intro h
      cases h
    · intro h
      cases h
  | _ => exact Iff.rfl

theorem exists_position?_of_rounded? (h : a.rounded? = some p) :
    ∃ q, a.position? = some q := by
  cases hq : a.position? with
  | some q => exact ⟨q, rfl⟩
  | none =>
    have hnone := rounded?_eq_none_iff.mpr (position?_eq_none_iff.mp hq)
    cases hnone.symm.trans h

/-- Only whole numbers are rounded. -/
theorem rounded?_eq_position? (h : a.kind ≠ .int) : a.rounded? = a.position? := by
  cases a with
  | int _ => exact absurd rfl h
  | float x => exact rounded?_float x
  | bool _ => rfl
  | string _ => rfl

/-- **Rounding never takes a number past another one**, of whatever kinds they are. -/
theorem rounded_mono (ha : a.position? = some p) (hb : b.position? = some q) (h : p ≤ q) :
    ∃ r s, a.rounded? = some r ∧ b.rounded? = some s ∧ r ≤ s := by
  cases a with
  | bool _ => cases ha
  | string _ => cases ha
  | int m =>
    cases ha
    rw [rounded?_int]
    cases b with
    | bool _ => cases hb
    | string _ => cases hb
    | int n =>
      cases hb
      rw [rounded?_int]
      exact Binary64.atMost_ofInt (Binary64.mul_one_le_iff.mp h)
    | float y =>
      rw [rounded?_float]
      exact Binary64.ofInt_atMost_of_le hb h
  | float x =>
    rw [rounded?_float]
    cases b with
    | bool _ => cases hb
    | string _ => cases hb
    | int n =>
      cases hb
      rw [rounded?_int]
      exact Binary64.atMost_ofInt_of_le ha h
    | float y =>
      rw [rounded?_float]
      exact ⟨p, q, ha, hb, h⟩

/-! ## 3. What is compared -/

/-- Two numbers that are not both whole are compared as doubles. -/
theorem compare_eq_views (h : a.kind ≠ .int ∨ b.kind ≠ .int) :
    compare a b = (do Binary64.compare (← a.toBinary64?) (← b.toBinary64?)) := by
  cases a with
  | int m =>
    cases b with
    | int n => simp [kind] at h
    | _ => rfl
  | _ => rfl

/-- Two numbers that are not both whole are compared at their rounded places. -/
theorem compare_eq_rounded (h : a.kind ≠ .int ∨ b.kind ≠ .int) :
    compare a b = a.rounded?.bind fun p => b.rounded?.map (Ord.compare p) := by
  rw [compare_eq_views h, rounded?, rounded?]
  cases a.toBinary64? with
  | none => rfl
  | some x =>
    cases b.toBinary64? with
    | none =>
      show none = x.position.bind fun _ => none
      cases x.position <;> rfl
    | some y =>
      show x.compare y = _
      rw [Binary64.compare]
      cases hp : x.position with
      | none => simp [hp]
      | some p => cases hq : y.position <;> simp [hp, hq]

theorem compare_eq_some_iff {o : Ordering} (h : a.kind ≠ .int ∨ b.kind ≠ .int) :
    compare a b = some o ↔
      ∃ r s, a.rounded? = some r ∧ b.rounded? = some s ∧ Ord.compare r s = o := by
  rw [compare_eq_rounded h, Option.bind_eq_some_iff]
  constructor
  · rintro ⟨r, hr, hcompare⟩
    obtain ⟨s, hs, ho⟩ := Option.map_eq_some_iff.mp hcompare
    exact ⟨r, s, hr, hs, ho⟩
  · rintro ⟨r, s, hr, hs, ho⟩
    exact ⟨r, hr, Option.map_eq_some_iff.mpr ⟨s, hs, ho⟩⟩

theorem whole_or_real (a b : Property) :
    (∃ m n, a = .int m ∧ b = .int n) ∨ (a.kind ≠ .int ∨ b.kind ≠ .int) := by
  cases a with
  | int m =>
    cases b with
    | int n => exact .inl ⟨m, n, rfl, rfl⟩
    | _ => exact .inr (.inr nofun)
  | _ => exact .inr (.inl nofun)

/-- **There is no order** with a value that has no place in it, and only then. -/
theorem compare_eq_none_iff : compare a b = none ↔ a.Unordered ∨ b.Unordered := by
  rcases whole_or_real a b with ⟨m, n, rfl, rfl⟩ | h
  · constructor
    · nofun
    · rintro (h | h) <;> cases h
  · rw [compare_eq_rounded h, ← rounded?_eq_none_iff, ← rounded?_eq_none_iff]
    cases a.rounded? with
    | none => exact ⟨fun _ => .inl rfl, fun _ => rfl⟩
    | some r =>
      rw [Option.bind_some, Option.map_eq_none_iff]
      constructor
      · exact .inr
      · rintro (h | h)
        · cases h
        · exact h

/-- **The other way round** the answer is the reverse. -/
theorem compare_swap (a b : Property) : compare b a = (compare a b).map Ordering.swap := by
  rcases whole_or_real a b with ⟨m, n, rfl, rfl⟩ | h
  · exact congrArg some (Int.compare_swap _ _).symm
  · rw [compare_eq_rounded h, compare_eq_rounded h.symm]
    cases a.rounded? with
    | none => cases b.rounded? <;> rfl
    | some r =>
      cases b.rounded? with
      | none => rfl
      | some s => exact congrArg some (Int.compare_swap _ _).symm

/-! ## 4. Equality -/

/-- Numbers of one kind are equal exactly at one place: neither kind rounds its own. -/
theorem compare_eq_eq_iff (hkind : a.kind = b.kind) :
    compare a b = some .eq ↔ ∃ p, a.position? = some p ∧ b.position? = some p := by
  rcases whole_or_real a b with ⟨m, n, rfl, rfl⟩ | hreal
  · constructor
    · intro h
      have heq : m.toInt = n.toInt := Int.compare_eq_eq.mp (Option.some.inj h)
      exact ⟨_, rfl, congrArg (fun k : Int => some (k * one)) heq.symm⟩
    · rintro ⟨p, hp, hq⟩
      cases hp
      have heq : n.toInt = m.toInt := Binary64.mul_one_inj.mp (Option.some.inj hq)
      exact congrArg some (Int.compare_eq_eq.mpr heq.symm)
  · have ha : a.kind ≠ .int := by
      rcases hreal with ha | hb
      · exact ha
      · rwa [hkind]
    have hb : b.kind ≠ .int := by rwa [← hkind]
    rw [compare_eq_some_iff hreal, rounded?_eq_position? ha, rounded?_eq_position? hb]
    constructor
    · rintro ⟨p, q, hp, hq, hcompare⟩
      cases Int.compare_eq_eq.mp hcompare
      exact ⟨p, hp, hq⟩
    · rintro ⟨p, hp, hq⟩
      exact ⟨p, p, hp, hq, Int.compare_eq_eq.mpr rfl⟩

/-- **Numbers of one kind compare equal exactly if they are the same.** -/
theorem compare_eq_eq_iff_same (hkind : a.kind = b.kind) (hnumeric : a.isNumeric = true) :
    compare a b = some .eq ↔ a.same b = true := by
  cases a with
  | bool _ => cases hnumeric
  | string _ => cases hnumeric
  | int m =>
    cases b with
    | int n =>
      calc
        compare (int m) (int n) = some .eq ↔ m.toInt = n.toInt := by
          rw [compare, Option.some.injEq, Int.compare_eq_eq]
        _ ↔ m = n := Int64.toInt_inj
        _ ↔ (int m).same (int n) = true := beq_iff_eq.symm
    | _ => cases hkind
  | float x =>
    cases b with
    | float y => exact beq_iff_eq.symm
    | _ => cases hkind

/-! ## 5. What an answer means -/

/-- **What is below is below exactly**, as rounding would otherwise have taken it past. -/
theorem lt_of_compare (h : compare a b = some .lt) :
    ∃ p q, a.position? = some p ∧ b.position? = some q ∧ p < q := by
  rcases whole_or_real a b with ⟨m, n, rfl, rfl⟩ | hreal
  · have hlt : m.toInt < n.toInt := Int.compare_eq_lt.mp (Option.some.inj h)
    exact ⟨_, _, rfl, rfl, Binary64.mul_one_lt_iff.mpr hlt⟩
  · obtain ⟨r, s, hr, hs, hcompare⟩ := (compare_eq_some_iff hreal).mp h
    have hlt : r < s := Int.compare_eq_lt.mp hcompare
    obtain ⟨p, hp⟩ := exists_position?_of_rounded? hr
    obtain ⟨q, hq⟩ := exists_position?_of_rounded? hs
    refine ⟨p, q, hp, hq, Int.not_le.mp fun hle => ?_⟩
    obtain ⟨s', r', hs', hr', hle'⟩ := rounded_mono hq hp hle
    cases hs.symm.trans hs'
    cases hr.symm.trans hr'
    omega

/-- **What is below exactly is below**, unless one number is rounded and comes to the other. -/
theorem compare_of_below (h : Below a b) :
    compare a b = some .lt ∨ compare a b = some .eq ∧ a.kind ≠ b.kind ∧
      ∃ x y, a.toBinary64? = some x ∧ b.toBinary64? = some y ∧ x.sameNumber y = true := by
  obtain ⟨p, q, hp, hq, hlt⟩ := below_iff.mp h
  rcases whole_or_real a b with ⟨m, n, rfl, rfl⟩ | hreal
  · cases hp
    cases hq
    have hwhole : m.toInt < n.toInt := Binary64.mul_one_lt_iff.mp hlt
    exact .inl (congrArg some (Int.compare_eq_lt.mpr hwhole))
  · obtain ⟨r, s, hr, hs, hle⟩ := rounded_mono hp hq (Int.le_of_lt hlt)
    rcases Int.lt_or_eq_of_le hle with hlt' | rfl
    · exact .inl ((compare_eq_some_iff hreal).mpr ⟨r, s, hr, hs, Int.compare_eq_lt.mpr hlt'⟩)
    · have heq := (compare_eq_some_iff hreal).mpr ⟨r, r, hr, hs, Int.compare_eq_eq.mpr rfl⟩
      refine .inr ⟨heq, ?_, ?_⟩
      · intro hkind
        obtain ⟨t, ht, ht'⟩ := (compare_eq_eq_iff hkind).mp heq
        cases hp.symm.trans ht
        cases hq.symm.trans ht'
        exact Int.lt_irrefl _ hlt
      · obtain ⟨x, hx, hxr⟩ := Option.bind_eq_some_iff.mp hr
        obtain ⟨y, hy, hyr⟩ := Option.bind_eq_some_iff.mp hs
        refine ⟨x, y, hx, hy, beq_iff_eq.mpr ?_⟩
        rw [Binary64.compare, hxr, hyr]
        exact congrArg some (Int.compare_eq_eq.mpr rfl)

/-- The reverse of an answer is an answer to the reverse. -/
theorem compare_eq_gt_iff : compare a b = some .gt ↔ compare b a = some .lt := by
  rw [compare_swap a b, Option.map_eq_some_iff]
  constructor
  · intro h
    exact ⟨.gt, h, rfl⟩
  · rintro ⟨o, ho, hswap⟩
    cases o with
    | gt => exact ho
    | _ => cases hswap

/-- What is below is not above after rounding, and is below unless both numbers are whole. -/
theorem rounded_of_compare (h : compare a b = some .lt) :
    ∃ r s, a.rounded? = some r ∧ b.rounded? = some s ∧ r ≤ s ∧
      (a.kind ≠ .int ∨ b.kind ≠ .int → r < s) := by
  obtain ⟨p, q, hp, hq, hlt⟩ := lt_of_compare h
  obtain ⟨r, s, hr, hs, hle⟩ := rounded_mono hp hq (Int.le_of_lt hlt)
  refine ⟨r, s, hr, hs, hle, fun hreal => ?_⟩
  obtain ⟨r', s', hr', hs', hcompare⟩ := (compare_eq_some_iff hreal).mp h
  cases hr.symm.trans hr'
  cases hs.symm.trans hs'
  exact Int.compare_eq_lt.mp hcompare

/-- **Being below is transitive.**  From one whole number over anything to another the exact
places decide.  Otherwise the rounded places do, and on the way from the first number to the
last one of the two comparisons is not between whole numbers, so it is strict there. -/
theorem compare_trans (hab : compare a b = some .lt) (hbc : compare b c = some .lt) :
    compare a c = some .lt := by
  rcases whole_or_real a c with ⟨m, n, rfl, rfl⟩ | hreal
  · obtain ⟨p, q, hp, hq, hpq⟩ := lt_of_compare hab
    obtain ⟨q', r, hq', hr, hqr⟩ := lt_of_compare hbc
    cases hq.symm.trans hq'
    cases hp
    cases hr
    have hlt : m.toInt < n.toInt := Binary64.mul_one_lt_iff.mp (Int.lt_trans hpq hqr)
    exact congrArg some (Int.compare_eq_lt.mpr hlt)
  · obtain ⟨p, q, hp, hq, hpq, hpq'⟩ := rounded_of_compare hab
    obtain ⟨q', r, hq', hr, hqr, hqr'⟩ := rounded_of_compare hbc
    cases hq.symm.trans hq'
    have hlt : p < r := by
      rcases hreal with ha | hc
      · exact Int.lt_of_lt_of_le (hpq' (.inl ha)) hqr
      · exact Int.lt_of_le_of_lt hpq (hqr' (.inr hc))
    exact (compare_eq_some_iff hreal).mpr ⟨p, r, hp, hr, Int.compare_eq_lt.mpr hlt⟩

/-! ## 6. The order -/

/-- The double nearest a whole number of 64 bits is the number itself if that is one. -/
theorem sameValue_ofInt {n : Int64} {y : Binary64} (h : SameValue (.float y) (.int n)) :
    SameValue (.float (.ofInt n.toInt)) (.int n) := by
  obtain ⟨p, hy, hn⟩ := sameValue_iff.mp h
  obtain ⟨r, s, hr, hs, hle⟩ := rounded_mono hy hn (Int.le_refl _)
  obtain ⟨s', r', hs', hr', hle'⟩ := rounded_mono hn hy (Int.le_refl _)
  rw [rounded?_float] at hr hr'
  rw [rounded?_int] at hs hs'
  cases hr.symm.trans hr'
  cases hs.symm.trans hs'
  cases (hy : y.position = some p).symm.trans hr
  cases Int.le_antisymm hle hle'
  exact sameValue_iff.mpr ⟨_, hs, hn⟩

/-- Rounding keeps numbers in order. -/
theorem atMost_of_below {x y : Binary64} (h : Below a b) (ha : a.toBinary64? = some x)
    (hb : b.toBinary64? = some y) : x.AtMost y := by
  obtain ⟨p, q, hp, hq, hlt⟩ := below_iff.mp h
  obtain ⟨r, s, hr, hs, hle⟩ := rounded_mono hp hq (Int.le_of_lt hlt)
  rw [rounded?, ha, Option.bind_eq_bind, Option.bind_some] at hr
  rw [rounded?, hb, Option.bind_eq_bind, Option.bind_some] at hs
  exact ⟨r, s, hr, hs, hle⟩

/-- **The order of numbers.**  Where a whole number is taken as a double it is the nearest one,
itself if it can be, and numbers stay in order.  There is an answer exactly between numbers none
of which is a NaN, and the reverse one the other way round.  What is answered to be below or
above is so by the exact values, infinities included; what is below by these is answered to be
so, or to be equal where it becomes one double with a number of the other kind.  Being below is
transitive.  Numbers of one kind are answered to be equal exactly if they are the same, which is
to have one value. -/
theorem order_of_numbers (a b c : Property) :
    ((∀ n, a = .int n → ∃ x, a.toBinary64? = some x ∧ Nearest n.toInt x ∧
        ∀ y, SameValue (.float y) a → SameValue (.float x) a) ∧
      ∀ x y, a.toBinary64? = some x → b.toBinary64? = some y → Below a b → x.AtMost y) ∧
    (compare a b = none ↔ a.Unordered ∨ b.Unordered) ∧
    compare b a = (compare a b).map Ordering.swap ∧
    (compare a b = some .lt → Below a b) ∧
    (compare a b = some .gt → Below b a) ∧
    (Below a b → compare a b = some .lt ∨ compare a b = some .eq ∧ a.kind ≠ b.kind ∧
      ∃ x y, a.toBinary64? = some x ∧ b.toBinary64? = some y ∧ x.sameNumber y = true) ∧
    (compare a b = some .lt → compare b c = some .lt → compare a c = some .lt) ∧
    (a.kind = b.kind → a.isNumeric = true →
      (compare a b = some .eq ↔ a.same b = true) ∧ (compare a b = some .eq ↔ SameValue a b)) := by
  refine ⟨⟨?_, ?_⟩, compare_eq_none_iff, compare_swap a b, ?_, ?_,
    compare_of_below, compare_trans, ?_⟩
  · rintro n rfl
    have hfinite := Binary64.isFinite_ofInt_toInt n
    exact ⟨_, rfl, Binary64.nearest_ofInt hfinite, fun y h => sameValue_ofInt h⟩
  · intro x y ha hb h
    exact atMost_of_below h ha hb
  · intro h
    exact below_iff.mpr (lt_of_compare h)
  · intro h
    exact below_iff.mpr (lt_of_compare (compare_eq_gt_iff.mp h))
  · intro hkind hnumeric
    refine ⟨compare_eq_eq_iff_same hkind hnumeric, ?_⟩
    rw [compare_eq_eq_iff hkind, sameValue_iff]

/-- Past `2 ^ 53` a whole number can be equal to a double that it is not. -/
example :
    compare (.int 9007199254740993) (.float (.ofInt 9007199254740992)) = some .eq ∧
      compare (.int 9007199254740993) (.int 9007199254740992) = some .gt := by
  decide +kernel

end Property
end Cooling
