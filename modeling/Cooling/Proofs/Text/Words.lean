import Cooling.Text.Blank
import Mathlib.Data.List.TakeDrop

/-!
# Words of a list written as text

A text lists words between separators.  What it lists is decided piece by piece: two texts that
are joined by a separator list the words of both (`words_append`), and a piece without separators
lists itself, trimmed, or nothing.  So the words of any text are of one form (`IsWord`), and words
of this form are listed by the text that they are joined to.

* `trimmed_trim`, `trim_of_trimmed`: what trimming leaves, and what it leaves alone;
* `isWord_of_mem_words`: the form of the words that a text lists;
* `words_intercalate`: words of that form, joined and read again.
-/

namespace Cooling.Text

variable {separator c : Char} {s piece word : List Char}

/-! ## 1. Pieces -/

theorem splitOn_of_notMem (h : separator ∉ s) : splitOn separator s = [s] := by
  induction s with
  | nil => rfl
  | cons c rest ih =>
    rw [List.mem_cons, not_or] at h
    rw [splitOn, if_neg (Ne.symm h.1), ih h.2]

/-- No piece has a separator in it. -/
theorem notMem_of_mem_splitOn (h : piece ∈ splitOn separator s) : separator ∉ piece := by
  induction s generalizing piece with
  | nil =>
    rw [splitOn, List.mem_singleton] at h
    simp [h]
  | cons c rest ih =>
    rw [splitOn] at h
    split at h
    · rcases List.mem_cons.mp h with rfl | h
      · simp
      · exact ih h
    · rename_i hc
      split at h
      · rename_i hnil
        exact absurd hnil (splitOn_ne_nil separator rest)
      · rename_i first others hpieces
        rcases List.mem_cons.mp h with rfl | h
        · -- the character goes to the front of the first piece of the rest
          have hfirst : separator ∉ first := ih (hpieces ▸ List.mem_cons_self)
          simp [hfirst, Ne.symm hc]
        · exact ih (hpieces ▸ List.mem_cons_of_mem _ h)

/-- A run of characters ends where the first one stands that does not belong to it. -/
theorem span_append {p : Char → Bool} {run rest : List Char} (hrun : ∀ c ∈ run, p c = true)
    (hrest : ∀ c ∈ rest.head?, p c = false) : (run ++ rest).span p = (run, rest) := by
  rw [List.span_eq_takeWhile_dropWhile, List.takeWhile_append_of_pos hrun,
    List.dropWhile_append_of_pos hrun]
  cases rest with
  | nil => simp
  | cons c rest =>
    have hc : p c = false := hrest c rfl
    simp [hc]

/-! ## 2. Trimming -/

/-- A text that neither starts nor ends with a blank character. -/
structure Trimmed (s : List Char) : Prop where
  first : ∀ c, s.head? = some c → isBlank c = false
  last : ∀ c, s.getLast? = some c → isBlank c = false

/-- What is left does not start with a character that is dropped. -/
theorem head?_dropWhile {p : Char → Bool} (h : (s.dropWhile p).head? = some c) : p c = false := by
  have hnot := List.head?_dropWhile_not p s
  rwa [h] at hnot

theorem dropWhile_of_head? {p : Char → Bool} (h : ∀ c, s.head? = some c → p c = false) :
    s.dropWhile p = s := by
  cases s with
  | nil => rfl
  | cons c rest => rw [List.dropWhile_cons, h c rfl, if_neg Bool.false_ne_true]

theorem trimmed_trim (s : List Char) : Trimmed (trim s) := by
  refine ⟨?_, ?_⟩
  · intro c h
    -- cutting off blanks at the end leaves the first character, if it leaves any
    have hprefix : trim s <+: s.dropWhile isBlank := by
      rw [trim, ← List.reverse_suffix, List.reverse_reverse]
      exact List.dropWhile_suffix isBlank
    obtain ⟨rest, hrest⟩ := hprefix
    refine head?_dropWhile (s := s) ?_
    rw [← hrest, List.head?_append, h]
    rfl
  · intro c h
    rw [trim, List.getLast?_reverse] at h
    exact head?_dropWhile h

theorem trim_of_trimmed (h : Trimmed s) : trim s = s := by
  have hlast : ∀ c, s.reverse.head? = some c → isBlank c = false := by
    intro c hc
    rw [List.head?_reverse] at hc
    exact h.last c hc
  rw [trim, dropWhile_of_head? h.first, dropWhile_of_head? hlast, List.reverse_reverse]

theorem mem_of_mem_trim (h : c ∈ trim s) : c ∈ s := by
  rw [trim, List.mem_reverse] at h
  have hfront := (List.dropWhile_sublist isBlank).mem h
  rw [List.mem_reverse] at hfront
  exact (List.dropWhile_sublist isBlank).mem hfront

/-! ## 3. Words -/

/-- **A word** is not empty, has no separator in it and no blank character at its ends. -/
structure IsWord (separator : Char) (s : List Char) : Prop where
  ne_nil : s ≠ []
  notMem : separator ∉ s
  trimmed : Trimmed s

/-- Every word that a text lists is a word. -/
theorem isWord_of_mem_words (h : word ∈ words separator s) : IsWord separator word := by
  obtain ⟨hmem, hne⟩ := List.mem_filter.mp h
  obtain ⟨piece, hpiece, rfl⟩ := List.mem_map.mp hmem
  refine ⟨?_, ?_, trimmed_trim piece⟩
  · intro hnil
    rw [hnil] at hne
    cases hne
  · intro hsep
    exact notMem_of_mem_splitOn hpiece (mem_of_mem_trim hsep)

theorem words_of_isWord (h : IsWord separator word) : words separator word = [word] := by
  have hne : word.isEmpty = false := List.isEmpty_eq_false_iff.mpr h.ne_nil
  simp [words, splitOn_of_notMem h.notMem, trim_of_trimmed h.trimmed, hne]

/-- **Words that are joined and read again** are the same words. -/
theorem words_intercalate {ws : List (List Char)} (h : ∀ word ∈ ws, IsWord separator word) :
    words separator ([separator].intercalate ws) = ws := by
  induction ws with
  | nil => rfl
  | cons word rest ih =>
    obtain ⟨hword, hrest⟩ := List.forall_mem_cons.mp h
    cases rest with
    | nil => simp [words_of_isWord hword]
    | cons next others =>
      rw [List.intercalate_cons_cons, List.append_assoc, List.singleton_append, words_append,
        words_of_isWord hword, ih hrest, List.singleton_append]

end Cooling.Text
