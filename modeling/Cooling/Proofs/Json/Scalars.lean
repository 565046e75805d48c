import Cooling.Proofs.Json.Numbers

/-!
# Strings and single values in JSON text

A character inside a string is escaped or stands for itself, and either way the reader takes one
escape for it (`stringRest_escape`), so a string of any characters is read back.  With the
literals of `Numbers.lean` this holds of every value that is no array and no object
(`value?_text`): its text is read as that value, and what stands behind it is left.
-/

namespace Cooling.Json

/-! ## 1. Strings -/

theorem hexDigit?_digitChar {n : Nat} (h : n < 16) : hexDigit? n.digitChar = some n := by
  have hall : ∀ i : Fin 16, hexDigit? (Nat.digitChar i) = some i.val := by decide
  exact hall ⟨n, h⟩

theorem hexWord_eq {n : Nat} (h : n < 0x100) :
    hexWord n = ['0', '0', (n / 16).digitChar, (n % 16).digitChar] := by
  rw [hexWord, Nat.toDigits_eq_if (by decide)]
  split
  · rw [Nat.div_eq_of_lt ‹_›, Nat.mod_eq_of_lt ‹_›]
    rfl
  · rw [Nat.toDigits_of_lt_base (by omega)]
    rfl

theorem hexWord?_eq {n : Nat} (h : n < 0x100) :
    hexWord? '0' '0' (n / 16).digitChar (n % 16).digitChar = some n := by
  have hzero : hexDigit? '0' = some 0 := rfl
  have hsum : (0 * 16 + 0) * 256 + n / 16 * 16 + n % 16 = n := by omega
  simp only [hexWord?, hzero, hexDigit?_digitChar (show n / 16 < 16 by omega),
    hexDigit?_digitChar (Nat.mod_lt n (by decide)), Option.bind_eq_bind, Option.bind_some, hsum]
  rfl

/-- A control character is escaped by its number. -/
theorem stringRest_control {c : Char} (hc : c.toNat < 0x20) (rest : List Char) :
    stringRest ('\\' :: 'u' :: hexWord c.toNat ++ rest) =
      (stringRest rest).map fun (cs, rest) => (c :: cs, rest) := by
  rw [hexWord_eq (by omega)]
  simp only [List.cons_append, List.nil_append]
  rw [stringRest, hexWord?_eq (by omega)]
  dsimp only
  rw [if_pos (.inl (by omega)), Char.ofNat_toNat]

/-- Other characters than quotes, backslashes and control characters stand for themselves. -/
theorem stringRest_plain {c : Char} (hquote : c ≠ '"') (hslash : c ≠ '\\')
    (hc : ¬ c.toNat < 0x20) (rest : List Char) :
    stringRest (c :: rest) = (stringRest rest).map fun (cs, rest) => (c :: cs, rest) := by
  rw [stringRest, if_neg hc]
  · exact hquote
  · intro _ _ _ _ _ h
    exact absurd h hslash
  · intro _ _ h
    exact absurd h hslash

/-- **What a character is written as is read as that character.** -/
theorem stringRest_escape (c : Char) (rest : List Char) :
    stringRest (escape c ++ rest) = (stringRest rest).map fun (cs, rest) => (c :: cs, rest) := by
  unfold escape
  split
  · rfl
  · rfl
  · rfl
  · rfl
  · rfl
  · rfl
  · rfl
  · rename_i hquote hslash _ _ _ _ _
    split
    · rename_i hc
      exact stringRest_control hc rest
    · rename_i hc
      exact stringRest_plain hquote hslash hc rest

theorem stringRest_flatMap (cs rest : List Char) :
    stringRest (cs.flatMap escape ++ '"' :: rest) = some (cs, rest) := by
  induction cs with
  | nil => rfl
  | cons c cs ih =>
    rw [List.flatMap_cons, List.append_assoc, stringRest_escape, ih]
    rfl

/-! ## 2. Single values -/

/-- Whether a value is no array and no object. -/
def isScalar : Json → Bool
  | array _ => false
  | object _ => false
  | _ => true

theorem ne_of_startsNumber {c d : Char} (hc : c = '-' ∨ c.isDigit = true)
    (hd : d ≠ '-' ∧ d.isDigit = false) : c ≠ d := by
  rintro rfl
  rcases hc with h | h
  · exact hd.1 h
  · rw [hd.2] at h
    cases h

/-- A text that starts with a minus sign or a digit is read as a number. -/
theorem scalar?_number {c : Char} (hc : c = '-' ∨ c.isDigit = true) (s : List Char) :
    scalar? (c :: s) = (number? (c :: s)).map fun (n, rest) => (.number n, rest) := by
  have hn : c ≠ 'n' := ne_of_startsNumber hc (by decide)
  have ht : c ≠ 't' := ne_of_startsNumber hc (by decide)
  have hf : c ≠ 'f' := ne_of_startsNumber hc (by decide)
  have hq : c ≠ '"' := ne_of_startsNumber hc (by decide)
  simp [scalar?, hn, ht, hf, hq]

/-- **The text of a single value is read as that value.** -/
theorem scalar?_text {j : Json} (hj : j.isScalar = true) {rest : List Char} (hrest : Ends rest) :
    scalar? (j.text ++ rest) = some (j, rest) := by
  cases j with
  | null => rfl
  | bool b => cases b <;> rfl
  | number n =>
    obtain ⟨c, cs, htext, hc⟩ := exists_numberText_cons n
    have hread := number?_numberText n hrest
    rw [htext] at hread
    rw [text, htext, List.cons_append, scalar?_number hc, ← List.cons_append, hread]
    rfl
  | string s =>
    have htext : (string s).text ++ rest = '"' :: (s.toList.flatMap escape ++ '"' :: rest) := by
      simp [text, stringText]
    rw [htext, scalar?, stringRest_flatMap]
    simp
  | array items => cases hj
  | object members => cases hj

/-- The text of a single value starts with no blank, bracket or brace. -/
theorem exists_text_cons {j : Json} (hj : j.isScalar = true) :
    ∃ c cs, j.text = c :: cs ∧ isGap c = false ∧ c ≠ '[' ∧ c ≠ '\x7b' := by
  cases j with
  | null => exact ⟨'n', _, rfl, by decide⟩
  | bool b =>
    cases b with
    | true => exact ⟨'t', _, rfl, by decide⟩
    | false => exact ⟨'f', _, rfl, by decide⟩
  | number n =>
    obtain ⟨c, cs, htext, hc⟩ := exists_numberText_cons n
    refine ⟨c, cs, htext, ?_, ne_of_startsNumber hc (by decide), ne_of_startsNumber hc (by decide)⟩
    have hspace : c ≠ ' ' := ne_of_startsNumber hc (by decide)
    have htab : c ≠ '\t' := ne_of_startsNumber hc (by decide)
    have hline : c ≠ '\n' := ne_of_startsNumber hc (by decide)
    have hreturn : c ≠ '\r' := ne_of_startsNumber hc (by decide)
    simp [isGap, hspace, htab, hline, hreturn]
  | string s => exact ⟨'"', _, rfl, by decide⟩
  | array items => cases hj
  | object members => cases hj

theorem value?_cons (depth : Nat) {c : Char} (hgap : isGap c = false) (hbracket : c ≠ '[')
    (hbrace : c ≠ '\x7b') (s : List Char) : value? depth (c :: s) = scalar? (c :: s) := by
  have hskip : skipGap (c :: s) = c :: s := by simp [skipGap, hgap]
  cases depth with
  | zero => rw [value?, hskip]
  | succ depth => simp [value?, hskip, hbracket, hbrace]

theorem value?_text (depth : Nat) {j : Json} (hj : j.isScalar = true) {rest : List Char}
    (hrest : Ends rest) : value? depth (j.text ++ rest) = some (j, rest) := by
  obtain ⟨c, cs, htext, hgap, hbracket, hbrace⟩ := exists_text_cons hj
  rw [← scalar?_text hj hrest, htext]
  exact value?_cons depth hgap hbracket hbrace (cs ++ rest)

end Cooling.Json
