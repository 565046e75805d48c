import Cooling.Decimal.Text
import Cooling.Proofs.Decimal.Reading

/-!
# The digits of a decimal

Writing a double starts from the digits of its shortest decimal, without the zeros at the end
(`digitsOf`).  What is left starts with no zero either (`leads_digitsOf`), and with the power of
ten that is left it is the same number (`toBinary64_digitsOf`).
-/

namespace Cooling.Decimal

/-! ## 1. Digits with no zero in front -/

/-- **Digits that start with one that counts**: there are some, and the first is not zero. -/
structure Leads (ds : List Char) : Prop where
  isDigit : ∀ c ∈ ds, c.isDigit = true
  ne_nil : ds ≠ []
  head?_ne : ds.head? ≠ some '0'

theorem head?_append_left {ds : List Char} (h : ds ≠ []) (es : List Char) :
    (ds ++ es).head? = ds.head? := by
  cases ds with
  | nil => exact absurd rfl h
  | cons => rfl

/-- More digits may follow. -/
theorem Leads.append {ds es : List Char} (h : Leads ds) (hes : ∀ c ∈ es, c.isDigit = true) :
    Leads (ds ++ es) where
  isDigit c hc := (List.mem_append.mp hc).elim (h.isDigit c) (hes c)
  ne_nil hnil := h.ne_nil (List.append_eq_nil_iff.mp hnil).1
  head?_ne := by
    rw [head?_append_left h.ne_nil]
    exact h.head?_ne

/-- Some of the digits may be left out at the end. -/
theorem Leads.of_append {ds es : List Char} (h : Leads (ds ++ es)) (hne : ds ≠ []) : Leads ds where
  isDigit c hc := h.isDigit c (List.mem_append_left es hc)
  ne_nil := hne
  head?_ne := by
    rw [← head?_append_left hne es]
    exact h.head?_ne

theorem isDigit_toDigits (n : Nat) : ∀ c ∈ Nat.toDigits 10 n, c.isDigit = true :=
  fun _ hc => Nat.isDigit_of_mem_toDigits (by decide) (by decide) hc

/-- A number that is not zero is written with no zero in front. -/
theorem leads_toDigits {n : Nat} (h : n ≠ 0) : Leads (Nat.toDigits 10 n) := by
  refine ⟨isDigit_toDigits n, Nat.toDigits_ne_nil, ?_⟩
  induction n using Nat.strongRecOn with
  | ind n ih =>
    rw [Nat.toDigits_eq_if (by decide)]
    split
    · simpa using h
    · rw [head?_append_left Nat.toDigits_ne_nil]
      exact ih (n / 10) (by omega) (by omega)

/-! ## 2. Zeros -/

theorem isDigit_zeros (zeros : Nat) : ∀ c ∈ List.replicate zeros '0', c.isDigit = true := by
  intro c hc
  rw [List.eq_of_mem_replicate hc]
  rfl

/-- Zeros at the end of digits multiply by ten. -/
theorem ofDigitChars_append_zeros (ds : List Char) (zeros : Nat) :
    Nat.ofDigitChars 10 (ds ++ List.replicate zeros '0') 0 =
      Nat.ofDigitChars 10 ds 0 * 10 ^ zeros := by
  rw [Nat.ofDigitChars_append, Nat.ofDigitChars_replicate_zero, Nat.mul_comm]

/-- Zeros in front of digits do nothing. -/
theorem ofDigitChars_zeros_append (zeros : Nat) (ds : List Char) :
    Nat.ofDigitChars 10 (List.replicate zeros '0' ++ ds) 0 = Nat.ofDigitChars 10 ds 0 := by
  rw [Nat.ofDigitChars_append, Nat.ofDigitChars_replicate_zero, Nat.mul_zero]

/-- What stands behind the last character that is no zero are zeros. -/
theorem exists_eq_append_zeros (ds : List Char) :
    ∃ zeros, ds = (ds.reverse.dropWhile (· == '0')).reverse ++ List.replicate zeros '0' := by
  have hsplit : ds.reverse.takeWhile (· == '0') ++ ds.reverse.dropWhile (· == '0') = ds.reverse :=
    List.takeWhile_append_dropWhile
  have hzeros : ds.reverse.takeWhile (· == '0') =
      List.replicate (ds.reverse.takeWhile (· == '0')).length '0' := by
    refine List.eq_replicate_iff.mpr ⟨rfl, fun c hc => ?_⟩
    exact beq_iff_eq.mp (List.all_eq_true.mp List.all_takeWhile c hc)
  refine ⟨(ds.reverse.takeWhile (· == '0')).length, ?_⟩
  rw [← List.reverse_replicate, ← hzeros, ← List.reverse_append, hsplit, List.reverse_reverse]

/-! ## 3. The digits that are kept -/

/-- What is dropped from the digits of a decimal goes to the power of ten. -/
theorem digitsOf_append_zeros (d : Decimal) :
    ∃ zeros : Nat, Nat.toDigits 10 d.digits = d.digitsOf.1 ++ List.replicate zeros '0' ∧
      d.digitsOf.2 = d.exponent + zeros := by
  obtain ⟨zeros, hzeros⟩ := exists_eq_append_zeros (Nat.toDigits 10 d.digits)
  have hexponent : d.digitsOf.2 =
      d.exponent + ((Nat.toDigits 10 d.digits).length - d.digitsOf.1.length : Nat) := rfl
  have hlength : (Nat.toDigits 10 d.digits).length = d.digitsOf.1.length + zeros := by
    conv => lhs; rw [hzeros]
    rw [List.length_append, List.length_replicate]
    rfl
  exact ⟨zeros, hzeros, by omega⟩

/-- The digits of a decimal that is not zero. -/
theorem leads_digitsOf {d : Decimal} (h : d.digits ≠ 0) : Leads d.digitsOf.1 := by
  obtain ⟨zeros, hzeros, -⟩ := digitsOf_append_zeros d
  refine Leads.of_append (hzeros ▸ leads_toDigits h) fun hnil => h ?_
  calc d.digits = Nat.ofDigitChars 10 (Nat.toDigits 10 d.digits) 0 :=
        Nat.ofDigitChars_ten_toDigits.symm
    _ = 0 := by rw [hzeros, hnil, ofDigitChars_append_zeros, Nat.ofDigitChars_nil, Nat.zero_mul]

/-- **The digits of a decimal are the same number.** -/
theorem toBinary64_digitsOf (d : Decimal) (negative : Bool) :
    (⟨Nat.ofDigitChars 10 d.digitsOf.1 0, d.digitsOf.2⟩ : Decimal).toBinary64 negative =
      d.toBinary64 negative := by
  obtain ⟨zeros, hzeros, hexponent⟩ := digitsOf_append_zeros d
  have hdigits : d.digits = Nat.ofDigitChars 10 d.digitsOf.1 0 * 10 ^ zeros := by
    rw [← ofDigitChars_append_zeros, ← hzeros, Nat.ofDigitChars_ten_toDigits]
  rw [hexponent, ← toBinary64_shift, ← hdigits]

end Cooling.Decimal
