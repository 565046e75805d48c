import Cooling.Proofs.Property.Order
import Mathlib.Data.Prod.Lex

/-!
# Sorting numbers

Of any two numbers one is answered to be at most the other.  From one number over a second to a
third that answer nearly always carries over: the first and the last are taken as they are
compared with each other, or both as doubles.  The exception is a double between two whole
numbers that both become it, since the two are compared exactly when they meet.

So being at most is no order to sort by as it stands, but there is one inside it: by the
doubles first and by the exact places among equal doubles (`rank`).  Numbers that ascend in
rank are at most each other, which is why every list of numbers can be arranged and has a
largest member.

* `lessOrEqual_trans_iff`: where being at most fails to carry over;
* `not_lessOrEqual_trans`: that it does fail, just past `2 ^ 53`;
* `numbers_arrange`: what there is of an order nevertheless.
-/

namespace Cooling.Property

open Binary64 (one)

variable {a b c : Property}

/-! ## 1. Being at most -/

/-- The answer is that the first is below the second or equal to it. -/
def LessOrEqual (a b : Property) : Prop := compare a b = some .lt ∨ compare a b = some .eq

/-- Two whole numbers both become the double that stands between them, and the first is the
larger one. -/
def Inverted (a b c : Property) : Prop :=
  ∃ m n x, a = .int m ∧ b = .float x ∧ c = .int n ∧ n < m ∧
    (Binary64.ofInt m.toInt).sameNumber x = true ∧ (Binary64.ofInt n.toInt).sameNumber x = true

theorem lessOrEqual_int_iff {m n : Int64} : LessOrEqual (.int m) (.int n) ↔ m ≤ n := by
  have hanswer {o : Ordering} :
      compare (.int m) (.int n) = some o ↔ Ord.compare m.toInt n.toInt = o := Option.some_inj
  rw [LessOrEqual, hanswer, hanswer, Int.compare_eq_lt, Int.compare_eq_eq, Int64.le_iff_toInt_le]
  exact Int.le_iff_lt_or_eq.symm

/-- Numbers that are not both whole are at most each other as their doubles are. -/
theorem lessOrEqual_real_iff (h : a.kind ≠ .int ∨ b.kind ≠ .int) :
    a.LessOrEqual b ↔ ∃ r s, a.rounded? = some r ∧ b.rounded? = some s ∧ r ≤ s := by
  rw [LessOrEqual, compare_eq_some_iff h, compare_eq_some_iff h]
  constructor
  · rintro (⟨r, s, hr, hs, ho⟩ | ⟨r, s, hr, hs, ho⟩)
    · exact ⟨r, s, hr, hs, Int.le_of_lt (Int.compare_eq_lt.mp ho)⟩
    · exact ⟨r, s, hr, hs, Int.le_of_eq (Int.compare_eq_eq.mp ho)⟩
  · rintro ⟨r, s, hr, hs, hle⟩
    rcases Int.lt_or_eq_of_le hle with hlt | heq
    · exact .inl ⟨r, s, hr, hs, Int.compare_eq_lt.mpr hlt⟩
    · exact .inr ⟨r, s, hr, hs, Int.compare_eq_eq.mpr heq⟩

/-- What is at most a number is so after rounding as well. -/
theorem rounded_of_lessOrEqual (h : a.LessOrEqual b) :
    ∃ r s, a.rounded? = some r ∧ b.rounded? = some s ∧ r ≤ s := by
  rcases whole_or_real a b with ⟨m, n, rfl, rfl⟩ | hreal
  · have hle := Int64.le_iff_toInt_le.mp (lessOrEqual_int_iff.mp h)
    rw [rounded?_int, rounded?_int]
    exact Binary64.atMost_ofInt hle
  · exact (lessOrEqual_real_iff hreal).mp h

theorem rounded_le {r s : Int} (h : a.LessOrEqual b) (ha : a.rounded? = some r)
    (hb : b.rounded? = some s) : r ≤ s := by
  obtain ⟨r', s', hr, hs, hle⟩ := rounded_of_lessOrEqual h
  cases ha.symm.trans hr
  cases hb.symm.trans hs
  exact hle

theorem not_unordered_of_lessOrEqual (h : a.LessOrEqual b) : ¬ a.Unordered ∧ ¬ b.Unordered := by
  obtain ⟨r, s, hr, hs, -⟩ := rounded_of_lessOrEqual h
  rw [← rounded?_eq_none_iff, ← rounded?_eq_none_iff, hr, hs]
  exact ⟨Option.some_ne_none r, Option.some_ne_none s⟩

/-- **One of two numbers** is at most the other. -/
theorem lessOrEqual_total (ha : ¬ a.Unordered) (hb : ¬ b.Unordered) :
    a.LessOrEqual b ∨ b.LessOrEqual a := by
  have hanswer : compare a b ≠ none := fun h => (compare_eq_none_iff.mp h).elim ha hb
  obtain ⟨o, ho⟩ := Option.ne_none_iff_exists'.mp hanswer
  cases o with
  | lt => exact .inl (.inl ho)
  | eq => exact .inl (.inr ho)
  | gt => exact .inr (.inl (compare_eq_gt_iff.mp ho))

/-! ## 2. From one number over a second to a third -/

/-- Doubles that are one number stand at one place. -/
theorem sameNumber_iff {x y : Binary64} :
    x.sameNumber y = true ↔ ∃ p, x.position = some p ∧ y.position = some p := by
  have hkind : (float x).kind = (float y).kind := rfl
  exact (compare_eq_eq_iff_same hkind rfl).symm.trans (compare_eq_eq_iff hkind)

/-- Being at most carries over, or two whole numbers became the double between them. -/
theorem lessOrEqual_or_inverted (hab : a.LessOrEqual b) (hbc : b.LessOrEqual c) :
    a.LessOrEqual c ∨ Inverted a b c := by
  obtain ⟨p, q, hp, hq, hpq⟩ := rounded_of_lessOrEqual hab
  obtain ⟨-, r, -, hr, -⟩ := rounded_of_lessOrEqual hbc
  have hqr := rounded_le hbc hq hr
  rcases whole_or_real a c with ⟨m, n, rfl, rfl⟩ | hreal
  · rw [lessOrEqual_int_iff]
    by_cases hmn : m ≤ n
    · exact .inl hmn
    · right
      have hlt : n < m := Int64.not_le.mp hmn
      cases b with
      | int k =>
        have hmk := lessOrEqual_int_iff.mp hab
        have hkn := lessOrEqual_int_iff.mp hbc
        exact absurd (Int64.le_trans hmk hkn) hmn
      | float x =>
        -- the doubles are in the opposite order too, so all three are one
        have hrp := rounded_le (lessOrEqual_int_iff.mpr (Int64.le_of_lt hlt)) hr hp
        rw [rounded?_int] at hp hr
        rw [rounded?_float] at hq
        obtain rfl : p = q := by omega
        obtain rfl : p = r := by omega
        exact ⟨m, n, x, rfl, rfl, rfl, hlt, sameNumber_iff.mpr ⟨p, hp, hq⟩,
          sameNumber_iff.mpr ⟨p, hr, hq⟩⟩
      | bool _ => cases hq
      | string _ => cases hq
  · exact .inl ((lessOrEqual_real_iff hreal).mpr ⟨p, r, hp, hr, Int.le_trans hpq hqr⟩)

/-- The answers where two whole numbers became the double between them. -/
theorem Inverted.compare_eq (h : Inverted a b c) :
    compare a b = some .eq ∧ compare b c = some .eq ∧ compare a c = some .gt := by
  obtain ⟨m, n, x, rfl, rfl, rfl, hlt, hm, hn⟩ := h
  have hbetween {k : Int64} (hk : (Binary64.ofInt k.toInt).sameNumber x = true) :
      compare (.int k) (.float x) = some .eq := by
    obtain ⟨p, hp, hx⟩ := sameNumber_iff.mp hk
    have hreal : (int k).kind ≠ .int ∨ (float x).kind ≠ .int := .inr nofun
    rw [compare_eq_some_iff hreal, rounded?_int, rounded?_float]
    exact ⟨p, p, hp, hx, Int.compare_eq_eq.mpr rfl⟩
  refine ⟨hbetween hm, ?_, ?_⟩
  · rw [compare_swap, hbetween hn]
    rfl
  · exact congrArg some (Int.compare_eq_gt.mpr (Int64.lt_iff_toInt_lt.mp hlt))

/-- **Being at most fails to carry over exactly** from one whole number to a smaller one over
the double that both become. -/
theorem lessOrEqual_trans_iff :
    a.LessOrEqual b ∧ b.LessOrEqual c ∧ ¬ a.LessOrEqual c ↔ Inverted a b c := by
  constructor
  · rintro ⟨hab, hbc, hac⟩
    exact (lessOrEqual_or_inverted hab hbc).resolve_left hac
  · intro h
    obtain ⟨hab, hbc, hac⟩ := h.compare_eq
    refine ⟨.inr hab, .inr hbc, ?_⟩
    rintro (h | h)
    · cases hac.symm.trans h
    · cases hac.symm.trans h

/-- Whole numbers of up to 53 bits are no two of them one double. -/
theorem not_inverted (ha : ∀ m, a = .int m → m.toInt.natAbs ≤ 2 ^ 53)
    (hc : ∀ n, c = .int n → n.toInt.natAbs ≤ 2 ^ 53) : ¬ Inverted a b c := by
  rintro ⟨m, n, x, rfl, rfl, rfl, hlt, hm, hn⟩
  obtain ⟨p, hp, hx⟩ := sameNumber_iff.mp hm
  obtain ⟨q, hq, hx'⟩ := sameNumber_iff.mp hn
  rw [Binary64.position_ofInt (ha m rfl)] at hp
  rw [Binary64.position_ofInt (hc n rfl)] at hq
  have hplaces : m.toInt * one = n.toInt * one :=
    Option.some.inj (hp.trans (hx.symm.trans (hx'.trans hq.symm)))
  have heq := Binary64.mul_one_inj.mp hplaces
  exact Int.lt_irrefl _ (heq ▸ Int64.lt_iff_toInt_lt.mp hlt)

/-! ## 3. Arranging numbers -/

/-- The place of a number's double, and its own among numbers of one double. -/
def rank (a : Property) : Int ×ₗ Int := toLex (a.rounded?.getD 0, a.position?.getD 0)

/-- Numbers that ascend in rank are at most each other. -/
theorem lessOrEqual_of_rank_le (ha : ¬ a.Unordered) (hb : ¬ b.Unordered)
    (h : a.rank ≤ b.rank) : a.LessOrEqual b := by
  obtain ⟨r, hr⟩ := Option.ne_none_iff_exists'.mp (mt rounded?_eq_none_iff.mp ha)
  obtain ⟨s, hs⟩ := Option.ne_none_iff_exists'.mp (mt rounded?_eq_none_iff.mp hb)
  rw [rank, rank, Prod.Lex.toLex_le_toLex, hr, hs] at h
  dsimp only [Option.getD_some] at h
  rcases whole_or_real a b with ⟨m, n, rfl, rfl⟩ | hreal
  · rw [lessOrEqual_int_iff]
    rcases h with hlt | ⟨-, hle⟩
    · refine Int64.not_lt.mp fun hnm => ?_
      -- rounding would have taken the smaller number past the larger one
      have hsr := rounded_le (lessOrEqual_int_iff.mpr (Int64.le_of_lt hnm)) hs hr
      exact Int.not_le.mpr hlt hsr
    · exact Int64.le_iff_toInt_le.mpr (Binary64.mul_one_le_iff.mp hle)
  · refine (lessOrEqual_real_iff hreal).mpr ⟨r, s, hr, hs, ?_⟩
    rcases h with hlt | ⟨heq, -⟩
    · exact Int.le_of_lt hlt
    · exact Int.le_of_eq heq

/-- Numbers can be arranged so that each is at most every later one. -/
theorem exists_arranged {xs : List Property} (h : ∀ a ∈ xs, ¬ a.Unordered) :
    ∃ arranged : List Property, arranged.Perm xs ∧ arranged.Pairwise LessOrEqual := by
  have htrans (a b c : Property) (hab : decide (a.rank ≤ b.rank) = true)
      (hbc : decide (b.rank ≤ c.rank) = true) : decide (a.rank ≤ c.rank) = true :=
    decide_eq_true (le_trans (of_decide_eq_true hab) (of_decide_eq_true hbc))
  have htotal (a b : Property) : (decide (a.rank ≤ b.rank) || decide (b.rank ≤ a.rank)) = true := by
    simpa using le_total a.rank b.rank
  have hperm := xs.mergeSort_perm fun a b => decide (a.rank ≤ b.rank)
  have hranks := List.pairwise_mergeSort htrans htotal xs
  refine ⟨_, hperm, hranks.imp_of_mem fun ha hb hrank => ?_⟩
  exact lessOrEqual_of_rank_le (h _ (hperm.mem_iff.mp ha)) (h _ (hperm.mem_iff.mp hb))
    (of_decide_eq_true hrank)

/-- Among numbers there is a largest one. -/
theorem exists_largest {xs : List Property} (hne : xs ≠ []) (h : ∀ a ∈ xs, ¬ a.Unordered) :
    ∃ top ∈ xs, ∀ a ∈ xs, a.LessOrEqual top := by
  obtain ⟨arranged, hperm, hpairs⟩ := exists_arranged h
  rcases List.eq_nil_or_concat arranged with rfl | ⟨before, top, rfl⟩
  · exact absurd hperm.nil_eq.symm hne
  · have htop : top ∈ xs := hperm.mem_iff.mp (by simp)
    refine ⟨top, htop, fun a ha => ?_⟩
    have hmem := hperm.mem_iff.mpr ha
    rw [List.concat_eq_append] at hpairs hmem
    rcases List.mem_append.mp hmem with hbefore | hlast
    · exact (List.pairwise_append.mp hpairs).2.2 a hbefore top (List.mem_singleton_self _)
    · rw [List.mem_singleton.mp hlast]
      exact or_self_iff.mp (lessOrEqual_total (h top htop) (h top htop))

/-- **What there is of an order of numbers.**  One of two numbers is at most the other.  Being
at most carries over from one number to the next, unless the first and the last are whole
numbers in the opposite order and the one between them is the double that both become; those
are told to be equal to it, and the first above the last.  So it carries over wherever the whole
numbers have up to 53 bits.  All numbers, of whatever size, can be arranged so that each is at
most every later one, and there is a largest. -/
theorem numbers_arrange :
    (∀ a b : Property, ¬ a.Unordered → ¬ b.Unordered → a.LessOrEqual b ∨ b.LessOrEqual a) ∧
    (∀ a b c : Property, a.LessOrEqual b → b.LessOrEqual c →
      (a.LessOrEqual c ↔ ¬ Inverted a b c)) ∧
    (∀ a b c : Property, Inverted a b c →
      compare a b = some .eq ∧ compare b c = some .eq ∧ compare a c = some .gt) ∧
    (∀ a b c : Property, (∀ m, a = .int m → m.toInt.natAbs ≤ 2 ^ 53) →
      (∀ n, c = .int n → n.toInt.natAbs ≤ 2 ^ 53) →
      a.LessOrEqual b → b.LessOrEqual c → a.LessOrEqual c) ∧
    (∀ xs : List Property, (∀ a ∈ xs, ¬ a.Unordered) →
      ∃ arranged : List Property, arranged.Perm xs ∧ arranged.Pairwise LessOrEqual) ∧
    ∀ xs : List Property, xs ≠ [] → (∀ a ∈ xs, ¬ a.Unordered) →
      ∃ top ∈ xs, ∀ a ∈ xs, a.LessOrEqual top := by
  refine ⟨fun a b => lessOrEqual_total, ?_, fun a b c => Inverted.compare_eq, ?_,
    fun xs => exists_arranged, fun xs => exists_largest⟩
  · intro a b c hab hbc
    rw [← lessOrEqual_trans_iff]
    simp [hab, hbc]
  · intro a b c ha hc hab hbc
    exact (lessOrEqual_or_inverted hab hbc).resolve_right (not_inverted ha hc)

/-- **Being at most does not carry over** from `2 ^ 53 + 1` over the double `2 ^ 53` to the
whole number `2 ^ 53`. -/
theorem not_lessOrEqual_trans :
    ¬ ∀ a b c : Property, ¬ a.Unordered → ¬ b.Unordered → ¬ c.Unordered →
      a.LessOrEqual b → b.LessOrEqual c → a.LessOrEqual c := by
  intro h
  have hinverted : Inverted (.int 9007199254740993) (.float (.ofInt 9007199254740992))
      (.int 9007199254740992) :=
    ⟨_, _, _, rfl, rfl, rfl, by decide, by decide +kernel, by decide +kernel⟩
  obtain ⟨hab, hbc, hac⟩ := lessOrEqual_trans_iff.mpr hinverted
  obtain ⟨ha, hb⟩ := not_unordered_of_lessOrEqual hab
  exact hac (h _ _ _ ha hb (not_unordered_of_lessOrEqual hbc).2 hab hbc)

end Cooling.Property
