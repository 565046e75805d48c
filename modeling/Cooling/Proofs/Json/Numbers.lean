import Cooling.Json.Reader
import Cooling.Json.Writer
import Cooling.Proofs.Decimal.Digits
import Cooling.Proofs.Text.Words

/-!
# Numbers in JSON text

`Literal` is a number as the grammar has it, part by part.  The reader takes the text of a
literal apart again (`number?_text`), and what the writer makes of a number is the text of a
literal (`Number.exists_literal`).  So a number that was written is read back, whole numbers as
whole and doubles as doubles: the text of a double has a fraction or an exponent, and the double
that it is read as is the one that was written.
-/

namespace Cooling.Json

open Decimal (Leads)

/-! ## 1. Literals -/

/-- **A number as it is written.**  Its whole part has no zero in front, a fraction of no digits
is left out with its point, and an exponent always has a sign. -/
structure Literal where
  negative : Bool
  whole : List Char
  fraction : List Char
  exponent : Option Int
  whole_leads : whole = ['0'] ∨ Leads whole
  fraction_isDigit : ∀ c ∈ fraction, c.isDigit = true

namespace Literal

/-- A sign. -/
def signText (negative : Bool) : List Char := if negative then ['-'] else []

/-- A point and the digits behind it. -/
def fractionText (digits : List Char) : List Char := if digits = [] then [] else '.' :: digits

/-- An exponent with its letter. -/
def exponentText : Option Int → List Char
  | none => []
  | some n => 'e' :: (if n < 0 then '-' else '+') :: Nat.toDigits 10 n.natAbs

/-- The text of a literal. -/
def text (l : Literal) : List Char :=
  signText l.negative ++ (l.whole ++ (fractionText l.fraction ++ exponentText l.exponent))

/-- The number that a literal stands for. -/
def number? (l : Literal) : Option Number :=
  Number.ofParts? l.negative l.whole l.fraction l.exponent

/-- The decimal of a literal, without its sign. -/
def decimal (l : Literal) : Decimal :=
  ⟨Nat.ofDigitChars 10 (l.whole ++ l.fraction) 0, l.exponent.getD 0 - l.fraction.length⟩

/-- Whether a literal has a fraction or an exponent. -/
def IsReal (l : Literal) : Prop := l.fraction ≠ [] ∨ l.exponent.isSome = true

end Literal

/-! ## 2. Reading a literal -/

/-- A text that no number goes on with. -/
def Ends (s : List Char) : Prop :=
  ∀ c ∈ s.head?, c.isDigit = false ∧ c ≠ '.' ∧ c ≠ 'e' ∧ c ≠ 'E'

theorem ends_nil : Ends [] := fun _ h => nomatch h

theorem head?_exponentText {rest : List Char} (hrest : Ends rest) (exponent : Option Int) :
    ∀ c ∈ (Literal.exponentText exponent ++ rest).head?, c.isDigit = false ∧ c ≠ '.' := by
  intro c hc
  cases exponent with
  | none => exact ⟨(hrest c hc).1, (hrest c hc).2.1⟩
  | some n =>
    cases hc
    decide

theorem head?_fractionText {rest : List Char} (hrest : ∀ c ∈ rest.head?, c.isDigit = false)
    (digits : List Char) :
    ∀ c ∈ (Literal.fractionText digits ++ rest).head?, c.isDigit = false := by
  intro c hc
  unfold Literal.fractionText at hc
  split at hc
  · exact hrest c hc
  · cases hc
    decide

theorem fraction?_text {digits rest : List Char} (hdigits : ∀ c ∈ digits, c.isDigit = true)
    (hrest : ∀ c ∈ rest.head?, c.isDigit = false ∧ c ≠ '.') :
    fraction? (Literal.fractionText digits ++ rest) = some (digits, rest) := by
  by_cases hnil : digits = []
  · subst hnil
    cases rest with
    | nil => rfl
    | cons c rest =>
      have hc : c ≠ '.' := (hrest c rfl).2
      simp [Literal.fractionText, fraction?, hc]
  · have hspan := Text.span_append hdigits fun c hc => (hrest c hc).1
    simp only [Literal.fractionText, if_neg hnil, List.cons_append, fraction?, hspan]
    simp [hnil]

theorem exponent?_text (exponent : Option Int) {rest : List Char} (hrest : Ends rest) :
    exponent? (Literal.exponentText exponent ++ rest) = some (exponent, rest) := by
  cases exponent with
  | none =>
    cases rest with
    | nil => rfl
    | cons c rest =>
      obtain ⟨-, -, he, hE⟩ := hrest c rfl
      simp [Literal.exponentText, exponent?, he, hE]
  | some n =>
    have hspan := Text.span_append (Decimal.isDigit_toDigits n.natAbs) fun c hc => (hrest c hc).1
    have hsome : ¬ (Nat.toDigits 10 n.natAbs).isEmpty = true := by simp
    have hdigits : Nat.ofDigitChars 10 (Nat.toDigits 10 n.natAbs) 0 = n.natAbs :=
      Nat.ofDigitChars_ten_toDigits
    by_cases hn : n < 0
    · have hsigned : -(n.natAbs : Int) = n := by omega
      simp only [Literal.exponentText, if_pos hn, List.cons_append, exponent?, exponentRest?, hspan,
        if_neg hsome, hdigits, hsigned, if_true, Option.map_some]
    · have hsigned : (n.natAbs : Int) = n := by omega
      simp only [Literal.exponentText, if_neg hn, List.cons_append, exponent?, exponentRest?, hspan,
        if_neg hsome, hdigits, hsigned, Bool.false_eq_true, if_false, Option.map_some]

theorem number?_signText (negative : Bool) {s : List Char} (hs : s.head? ≠ some '-') :
    number? (Literal.signText negative ++ s) = magnitude? negative s := by
  cases negative with
  | true => rfl
  | false =>
    cases s with
    | nil => rfl
    | cons c s =>
      have hc : c ≠ '-' := fun h => hs (congrArg some h)
      simp [Literal.signText, number?, hc]

namespace Literal

theorem whole_isDigit (l : Literal) : ∀ c ∈ l.whole, c.isDigit = true := by
  rcases l.whole_leads with h | h
  · rw [h]
    exact Decimal.isDigit_zeros 1
  · exact h.isDigit

theorem whole_ne_nil (l : Literal) : l.whole ≠ [] := by
  rcases l.whole_leads with h | h
  · rw [h]
    decide
  · exact h.ne_nil

/-- The whole part of a literal is one that the reader accepts. -/
theorem whole_accepted (l : Literal) :
    (!l.whole.isEmpty && (l.whole.length == 1 || l.whole.head? != some '0')) = true := by
  rcases l.whole_leads with h | h
  · rw [h]
    rfl
  · simp [h.ne_nil, h.head?_ne]

/-- **The text of a literal is read as its number**, whatever stands behind it that does not go
on with it. -/
theorem number?_text (l : Literal) {rest : List Char} (hrest : Ends rest) :
    Json.number? (l.text ++ rest) = l.number?.map fun n => (n, rest) := by
  have hends := head?_exponentText hrest l.exponent
  have hspan := Text.span_append l.whole_isDigit
    (head?_fractionText (fun c hc => (hends c hc).1) l.fraction)
  have hminus : (l.whole ++ (fractionText l.fraction ++ (exponentText l.exponent ++ rest))).head? ≠
      some '-' := by
    rw [Decimal.head?_append_left l.whole_ne_nil]
    intro h
    cases l.whole_isDigit '-' (List.mem_of_head? h)
  rw [text, List.append_assoc, List.append_assoc, List.append_assoc, number?_signText _ hminus,
    magnitude?, hspan]
  dsimp only
  rw [l.whole_accepted, guard, if_pos rfl, fraction?_text l.fraction_isDigit hends]
  dsimp only [pure_bind, Option.bind_eq_bind, Option.bind_some]
  rw [exponent?_text l.exponent hrest, Option.map_eq_bind]
  rfl

end Literal

/-! ## 3. Writing a literal -/

/-- The digits of a whole number are those of a literal. -/
theorem toDigits_eq_zero_or_leads (n : Nat) : Nat.toDigits 10 n = ['0'] ∨ Leads (Nat.toDigits 10 n) := by
  by_cases h : n = 0
  · subst h
    exact .inl rfl
  · exact .inr (Decimal.leads_toDigits h)

/-- A whole number as a literal. -/
def Literal.ofInt (n : Int) : Literal where
  negative := n < 0
  whole := Nat.toDigits 10 n.natAbs
  fraction := []
  exponent := none
  whole_leads := toDigits_eq_zero_or_leads n.natAbs
  fraction_isDigit := nofun

theorem Literal.text_ofInt (n : Int) : (Literal.ofInt n).text = intText n := by
  simp [intText, text, signText, ofInt, fractionText, exponentText]

/-- A literal without a fraction and an exponent is a whole number, if 64 bits hold it. -/
theorem Literal.number?_ofInt (n : Int) (h : -0x8000000000000000 ≤ n ∧ n ≤ 0xffffffffffffffff) :
    (Literal.ofInt n).number? = some (.whole n h) := by
  have hvalue : Nat.ofDigitChars 10 (Nat.toDigits 10 n.natAbs ++ []) 0 = n.natAbs := by
    rw [List.append_nil, Nat.ofDigitChars_ten_toDigits]
  have hsigned : (if decide (n < 0) = true then -(n.natAbs : Int) else n.natAbs) = n := by
    simp only [decide_eq_true_eq]
    split <;> omega
  -- only a zero could be negative without being so as a whole number
  have hzero : (!(decide (n < 0) && n.natAbs == 0)) = true := by
    by_cases hn : n < 0
    · simp [hn]
      omega
    · simp [hn]
  simp only [number?, ofInt, Number.ofParts?, hvalue, hzero, hsigned, Number.ofInt?, dif_pos h,
    List.isEmpty_nil, Option.isNone_none, Bool.and_true, if_true, Option.some_or]

/-- A literal with a fraction or an exponent is the double that its decimal is read as. -/
theorem Literal.number?_of_isReal {l : Literal} (hl : l.IsReal) :
    l.number? = Number.ofBinary64? (l.decimal.toBinary64 l.negative) := by
  have hreal : (l.fraction.isEmpty && l.exponent.isNone) = false := by
    rcases hl with h | h
    · simp [h]
    · rw [← Option.not_isSome, h, Bool.not_true, Bool.and_false]
  simp [number?, Number.ofParts?, hreal, decimal]

/-- A literal with a fraction or an exponent shows it. -/
theorem Literal.mem_text_of_isReal {l : Literal} (hl : l.IsReal) :
    '.' ∈ l.text ∨ 'e' ∈ l.text := by
  rcases hl with h | h
  · left
    simp [text, fractionText, h]
  · right
    obtain ⟨n, hn⟩ := Option.isSome_iff_exists.mp h
    simp [text, hn, exponentText]

/-- **A text spells a decimal as a double** if with a sign in front it is a literal that has a
fraction or an exponent and is read as the decimal is. -/
def Spells (negative : Bool) (d : Decimal) (s : List Char) : Prop :=
  ∃ l : Literal, l.text = Literal.signText negative ++ s ∧ l.negative = negative ∧ l.IsReal ∧
    l.decimal.toBinary64 negative = d.toBinary64 negative

/-- Zeros behind the digits of the decimal do not matter. -/
theorem Spells.of_zeros {l : Literal} {d : Decimal} {s : List Char}
    (htext : l.text = Literal.signText l.negative ++ s) (hreal : l.IsReal) (zeros : Nat)
    (hdigits : Nat.ofDigitChars 10 (l.whole ++ l.fraction) 0 = d.digits * 10 ^ zeros)
    (hexponent : l.exponent.getD 0 - l.fraction.length + zeros = d.exponent) :
    Spells l.negative d s := by
  refine ⟨l, htext, rfl, hreal, ?_⟩
  rw [Literal.decimal, hdigits, Decimal.toBinary64_shift, hexponent]

section Layouts

variable (negative : Bool) {ds : List Char} (hds : Leads ds) {exponent : Int}

include hds

/-- Zeros and `.0` stand behind the digits. -/
theorem spells_plain_whole (h : 0 ≤ exponent) :
    Spells negative ⟨Nat.ofDigitChars 10 ds 0, exponent⟩ (Decimal.plain true ds exponent) := by
  let l : Literal := {
    negative
    whole := ds ++ List.replicate exponent.toNat '0'
    fraction := ['0']
    exponent := none
    whole_leads := .inr (hds.append (Decimal.isDigit_zeros _))
    fraction_isDigit := Decimal.isDigit_zeros 1 }
  refine .of_zeros (l := l) ?_ (.inl nofun) (exponent.toNat + 1) ?_ ?_
  · simp [l, Literal.text, Literal.fractionText, Literal.exponentText, Decimal.plain, h]
  · rw [← Decimal.ofDigitChars_append_zeros, List.replicate_succ', ← List.append_assoc]
  · have hpower : (0 : Int) - 1 + (exponent.toNat + 1 : Nat) = exponent := by omega
    exact hpower

/-- The point stands between two digits. -/
theorem spells_plain_inside (h : exponent < 0) (hplaces : (-exponent).toNat < ds.length) :
    Spells negative ⟨Nat.ofDigitChars 10 ds 0, exponent⟩ (Decimal.plain true ds exponent) := by
  let cut := ds.length - (-exponent).toNat
  have hplain : Decimal.plain true ds exponent = ds.take cut ++ '.' :: ds.drop cut := by
    rw [Decimal.plain, if_neg (by omega)]
    exact if_pos hplaces
  have hsplit : ds.take cut ++ ds.drop cut = ds := List.take_append_drop _ _
  have hlength : (ds.take cut).length = cut ∧ (ds.drop cut).length = (-exponent).toNat := by
    rw [List.length_take, List.length_drop]
    omega
  have hwhole : ds.take cut ≠ [] := List.ne_nil_of_length_pos (by omega)
  have hfraction : ds.drop cut ≠ [] := List.ne_nil_of_length_pos (by omega)
  let l : Literal := {
    negative
    whole := ds.take cut
    fraction := ds.drop cut
    exponent := none
    whole_leads := .inr (Leads.of_append (hsplit.symm ▸ hds) hwhole)
    fraction_isDigit := fun c hc => hds.isDigit c (List.mem_of_mem_drop hc) }
  refine .of_zeros (l := l) ?_ (.inl hfraction) 0 ?_ ?_
  · simp only [l, Literal.text, Literal.fractionText, if_neg hfraction, Literal.exponentText,
      hplain, List.append_nil]
  · rw [hsplit, Nat.pow_zero, Nat.mul_one]
  · simp only [l, hlength, Option.getD_none]
    omega

/-- Zeros stand between the point and the digits. -/
theorem spells_plain_before (h : exponent < 0) (hplaces : ds.length ≤ (-exponent).toNat) :
    Spells negative ⟨Nat.ofDigitChars 10 ds 0, exponent⟩ (Decimal.plain true ds exponent) := by
  let zeros := List.replicate ((-exponent).toNat - ds.length) '0'
  have hplain : Decimal.plain true ds exponent = ['0'] ++ '.' :: (zeros ++ ds) := by
    rw [Decimal.plain, if_neg (by omega)]
    exact if_neg (by omega)
  have hlength : (zeros ++ ds).length = (-exponent).toNat := by
    rw [List.length_append, List.length_replicate]
    omega
  have hfraction : zeros ++ ds ≠ [] := List.append_ne_nil_of_right_ne_nil _ hds.ne_nil
  let l : Literal := {
    negative
    whole := ['0']
    fraction := zeros ++ ds
    exponent := none
    whole_leads := .inl rfl
    fraction_isDigit := fun c hc =>
      (List.mem_append.mp hc).elim (Decimal.isDigit_zeros _ c) (hds.isDigit c) }
  refine .of_zeros (l := l) ?_ (.inl hfraction) 0 ?_ ?_
  · simp only [l, Literal.text, Literal.fractionText, if_neg hfraction, Literal.exponentText,
      hplain, List.append_nil]
  · rw [Nat.pow_zero, Nat.mul_one]
    exact Decimal.ofDigitChars_zeros_append ((-exponent).toNat - ds.length + 1) ds
  · simp only [l, hlength, Option.getD_none]
    omega

/-- Digits whose last one has a power, written plainly. -/
theorem spells_plain (exponent : Int) :
    Spells negative ⟨Nat.ofDigitChars 10 ds 0, exponent⟩ (Decimal.plain true ds exponent) := by
  by_cases h : 0 ≤ exponent
  · exact spells_plain_whole negative hds h
  · by_cases hplaces : (-exponent).toNat < ds.length
    · exact spells_plain_inside negative hds (by omega) hplaces
    · exact spells_plain_before negative hds (by omega) (by omega)

/-- Digits whose last one has a power, written with an exponent. -/
theorem spells_scientific (exponent : Int) :
    Spells negative ⟨Nat.ofDigitChars 10 ds 0, exponent⟩
      (Decimal.scientific ds (exponent + ds.length - 1)) := by
  have hsplit : ds.take 1 ++ ds.drop 1 = ds := List.take_append_drop 1 ds
  have hpos : 0 < ds.length := List.length_pos_iff.mpr hds.ne_nil
  have hwhole : ds.take 1 ≠ [] := by simp [hds.ne_nil]
  have hfraction : ds.drop 1 = [] ↔ ds.length ≤ 1 := List.drop_eq_nil_iff
  let l : Literal := {
    negative
    whole := ds.take 1
    fraction := ds.drop 1
    exponent := some (exponent + ds.length - 1)
    whole_leads := .inr (Leads.of_append (hsplit.symm ▸ hds) hwhole)
    fraction_isDigit := fun c hc => hds.isDigit c (List.mem_of_mem_drop hc) }
  refine .of_zeros (l := l) ?_ (.inr rfl) 0 ?_ ?_
  · simp only [l, Literal.text, Literal.fractionText, Literal.exponentText, Decimal.scientific,
      hfraction, List.append_assoc]
  · rw [hsplit, Nat.pow_zero, Nat.mul_one]
  · simp only [l, List.length_drop, Option.getD_some]
    omega

end Layouts

/-- Zero is written `0.0`. -/
theorem spells_zero (negative : Bool) :
    Spells negative ⟨0, 0⟩ (Decimal.plain true ['0'] 0) := by
  let l : Literal := ⟨negative, ['0'], ['0'], none, .inl rfl, Decimal.isDigit_zeros 1⟩
  exact .of_zeros (l := l) rfl (.inl nofun) 1 rfl rfl

/-- What is written for data spells the shortest decimal. -/
theorem spells_magnitudeText (negative : Bool) {units : Nat} (h : Binary64.OnGrid units) :
    Spells negative (Decimal.shortest Layout.data.tie units)
      (Binary64.magnitudeText .data units) := by
  by_cases hzero : units = 0
  · subst hzero
    obtain ⟨l, htext, hnegative, hreal, hread⟩ := spells_zero negative
    refine ⟨l, htext, hnegative, hreal, hread.trans ?_⟩
    rw [Decimal.toBinary64_shortest_eq _ _ h]
    rfl
  · have hds := Decimal.leads_digitsOf (Decimal.digits_shortest_ne_zero Layout.data.tie h hzero)
    rw [Binary64.magnitudeText, if_neg hzero, Spells,
      ← Decimal.toBinary64_digitsOf (Decimal.shortest Layout.data.tie units)]
    dsimp only
    split
    · exact spells_plain negative hds _
    · exact spells_scientific negative hds _

/-- **A finite double is written as a literal with a fraction or an exponent, and the double
that the literal is read as is that double.** -/
theorem exists_literal_data (negative : Bool) {units : Nat} (h : Binary64.OnGrid units) :
    ∃ l : Literal, l.IsReal ∧ l.text = (Binary64.finite negative units h).text .data ∧
      l.number? = some (.real (.finite negative units h) rfl) := by
  obtain ⟨l, htext, hnegative, hreal, hread⟩ := spells_magnitudeText negative h
  refine ⟨l, hreal, htext, ?_⟩
  rw [Literal.number?_of_isReal hreal, hnegative, hread, Decimal.toBinary64_shortest_eq _ _ h]
  rfl

/-- The text of a finite double is not that of a whole number. -/
theorem mem_text_data {x : Binary64} (h : x.isFinite = true) :
    '.' ∈ x.text .data ∨ 'e' ∈ x.text .data := by
  cases x with
  | finite negative units hunits =>
    obtain ⟨l, hreal, htext, -⟩ := exists_literal_data negative hunits
    rw [← htext]
    exact Literal.mem_text_of_isReal hreal
  | _ => cases h

/-- **Every number is written as a literal that stands for it.** -/
theorem Number.exists_literal (n : Number) :
    ∃ l : Literal, l.text = n.text ∧ l.number? = some n := by
  cases n with
  | whole n h => exact ⟨.ofInt n, Literal.text_ofInt n, Literal.number?_ofInt n h⟩
  | real x h =>
    cases x with
    | finite negative units hunits =>
      obtain ⟨l, -, htext, hnumber⟩ := exists_literal_data negative hunits
      exact ⟨l, htext, hnumber⟩
    | _ => cases h

/-- A number that was written is read back. -/
theorem number?_numberText (n : Number) {rest : List Char} (hrest : Ends rest) :
    number? (n.text ++ rest) = some (n, rest) := by
  obtain ⟨l, htext, hnumber⟩ := n.exists_literal
  rw [← htext, l.number?_text hrest, hnumber]
  rfl

/-- A number starts with a minus sign or a digit. -/
theorem exists_numberText_cons (n : Number) :
    ∃ c cs, n.text = c :: cs ∧ (c = '-' ∨ c.isDigit = true) := by
  obtain ⟨l, htext, -⟩ := n.exists_literal
  obtain ⟨c, cs, hwhole⟩ := List.exists_cons_of_ne_nil l.whole_ne_nil
  rw [← htext, Literal.text, hwhole]
  cases l.negative with
  | true => exact ⟨'-', _, rfl, .inl rfl⟩
  | false => exact ⟨c, _, rfl, .inr (l.whole_isDigit c (hwhole ▸ List.mem_cons_self))⟩

end Cooling.Json
