/-!
# Blank characters, trimming and lists in text

Blank characters are those with the Unicode property White_Space.  `trim` takes them off
both ends of a text, `splitOn` cuts it at a separator, and `words` does both and drops what
is left empty: the names in a list written as text.
-/

namespace Cooling.Text

/-! ## 1. Blank characters -/

/-- The ranges of code points with the property White_Space, in ascending order. -/
def blankRanges : List (Nat × Nat) :=
  [(0x9, 0xd), (0x20, 0x20), (0x85, 0x85), (0xa0, 0xa0), (0x1680, 0x1680), (0x2000, 0x200a),
   (0x2028, 0x2029), (0x202f, 0x202f), (0x205f, 0x205f), (0x3000, 0x3000)]

/-- Whether a character is blank. -/
def isBlank (c : Char) : Bool :=
  blankRanges.any fun (first, last) => first ≤ c.toNat && c.toNat ≤ last

/-- A text without the blank characters at its two ends. -/
def trim (s : List Char) : List Char :=
  ((s.dropWhile isBlank).reverse.dropWhile isBlank).reverse

/-! ## 2. Lists -/

/-- The pieces of a text between the separators; there is always one more than separators. -/
def splitOn (separator : Char) : List Char → List (List Char)
  | [] => [[]]
  | c :: rest =>
    if c = separator then [] :: splitOn separator rest
    else match splitOn separator rest with
      | [] => [[c]]
      | piece :: pieces => (c :: piece) :: pieces

/-- The trimmed pieces of a text that are not empty. -/
def words (separator : Char) (s : List Char) : List (List Char) :=
  ((splitOn separator s).map trim).filter (!·.isEmpty)

theorem splitOn_ne_nil (separator : Char) (s : List Char) : splitOn separator s ≠ [] := by
  cases s with
  | nil => simp [splitOn]
  | cons c rest =>
    unfold splitOn
    split
    · simp
    · split <;> simp

/-- A separator ends one piece and starts the next. -/
theorem splitOn_append (separator : Char) (s t : List Char) :
    splitOn separator (s ++ separator :: t) = splitOn separator s ++ splitOn separator t := by
  induction s with
  | nil => simp [splitOn]
  | cons c rest ih =>
    by_cases hc : c = separator
    · simp [splitOn, hc, ih]
    · have := splitOn_ne_nil separator rest
      simp only [List.cons_append, splitOn, hc, if_false, ih]
      cases h : splitOn separator rest with
      | nil => contradiction
      | cons piece pieces => simp

/-- Words of two lists joined by the separator. -/
theorem words_append (separator : Char) (s t : List Char) :
    words separator (s ++ separator :: t) = words separator s ++ words separator t := by
  simp [words, splitOn_append]

end Cooling.Text
