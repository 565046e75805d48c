import Cooling.Proofs.Text.Words
import Cooling.Toml.Reader
import Mathlib.Data.List.Forall2
import Mathlib.Data.List.Nodup

/-!
# Writing TOML

Not every document can be written here, only headers with lines of a name and a value under them,
where values are strings and arrays.  That is enough for any settings, and it is read back as it
was meant.

A string stands between double quotes, with a character that may not stand there written by its
number, so the reader takes one step for each character (`basicRest_escape`).  What a text of a
value must do to go into an array or on a line is said once (`Spells`), for both kinds.

* `spells_stringText`, `spells_arrayText`: strings and arrays are read back;
* `read?_blocks`: so are blocks of lines under distinct names.
-/

namespace Cooling.Toml

/-! ## 1. Strings -/

/-- A character as it is written between double quotes: as itself, or by its number. -/
def escape (c : Char) : List Char :=
  if isText c ∧ c ≠ '"' ∧ c ≠ '\\' then [c]
  else ['\\', 'u', '0', '0', (c.toNat / 16).digitChar, (c.toNat % 16).digitChar]

/-- A string as it is written. -/
def stringText (s : String) : List Char := '"' :: s.toList.flatMap escape ++ ['"']

theorem charOfHex?_digitChar {n : Nat} (h : n < 128) :
    charOfHex? ['0', '0', (n / 16).digitChar, (n % 16).digitChar] = some (Char.ofNat n) := by
  have hall : ∀ i : Fin 128, charOfHex? ['0', '0', (i.val / 16).digitChar,
      (i.val % 16).digitChar] = some (Char.ofNat i.val) := by decide
  exact hall ⟨n, h⟩

/-- Only the first characters are written by their numbers. -/
theorem toNat_lt_of_escaped {c : Char} (h : ¬ (isText c ∧ c ≠ '"' ∧ c ≠ '\\')) :
    c.toNat < 128 := by
  by_cases hquote : c = '"'
  · subst hquote
    decide
  by_cases hslash : c = '\\'
  · subst hslash
    decide
  have htext : ¬ isText c = true := fun htext => h ⟨htext, hquote, hslash⟩
  simp only [isText, Bool.or_eq_true, Bool.and_eq_true, beq_iff_eq, decide_eq_true_eq,
    bne_iff_ne, not_or, not_and] at htext
  omega

/-- Of a character that stands for itself the reader takes one step. -/
theorem basicRest_plain {c : Char} (htext : isText c = true) (hquote : c ≠ '"')
    (hslash : c ≠ '\\') (rest : List Char) :
    basicRest (c :: rest) = prepend c (basicRest rest) := by
  rw [basicRest, if_pos htext]
  · exact hquote
  · intro _ _ _ _ _ h
    exact absurd h hslash
  · intro _ _ _ _ _ _ _ _ _ h
    exact absurd h hslash
  · intro _ _ h
    exact absurd h hslash

/-- **What a character is written as is read as that character.** -/
theorem basicRest_escape (c : Char) (rest : List Char) :
    basicRest (escape c ++ rest) = prepend c (basicRest rest) := by
  rw [escape]
  split
  · rename_i h
    exact basicRest_plain h.1 h.2.1 h.2.2 rest
  · rename_i h
    have hchar := charOfHex?_digitChar (toNat_lt_of_escaped h)
    rw [Char.ofNat_toNat] at hchar
    simp only [List.cons_append, List.nil_append]
    rw [basicRest, hchar]
    rfl

theorem basicRest_flatMap (cs rest : List Char) :
    basicRest (cs.flatMap escape ++ '"' :: rest) = some (cs, rest) := by
  induction cs with
  | nil => rfl
  | cons c cs ih =>
    rw [List.flatMap_cons, List.append_assoc, basicRest_escape, ih]
    rfl

/-- A quote that does not start three of them starts a string of one line. -/
theorem string?_quote {s : List Char} (h : ∀ rest, s ≠ '"' :: '"' :: rest) :
    string? ('"' :: s) = (basicRest s).map fun (cs, rest) => (String.ofList cs, rest) := by
  unfold string?
  split
  · rename_i heq
    rw [List.cons.injEq] at heq
    exact absurd heq.2 (h _)
  · rename_i heq
    cases heq
  · rename_i heq
    cases heq
    rfl
  · rename_i heq
    cases heq
  · rename_i hquote _
    exact absurd rfl (hquote s)

/-- **A string is read back**, if it is not followed by one more quote. -/
theorem string?_stringText (s : String) {rest : List Char} (hrest : rest.head? ≠ some '"') :
    string? (stringText s ++ rest) = some (s, rest) := by
  have hread := basicRest_flatMap s.toList rest
  have htext : stringText s ++ rest = '"' :: (s.toList.flatMap escape ++ '"' :: rest) := by
    simp [stringText]
  rw [htext, string?_quote, hread]
  · simp
  · -- an empty string before a quote would be the start of three
    intro rest' heq
    have hempty : basicRest ('"' :: '"' :: rest') = some ([], '"' :: rest') := rfl
    rw [heq, hempty, Option.some.injEq, Prod.mk.injEq] at hread
    exact hrest (hread.2 ▸ rfl)

/-! ## 2. Values -/

/-- **A text spells a value** within a depth: it starts as a string or an array does, and the
reader takes it for the value, whatever follows but a quote. -/
structure Spells (depth : Nat) (text : List Char) (x : Toml) : Prop where
  head : text.head? = some '"' ∨ text.head? = some '['
  read : ∀ rest, rest.head? ≠ some '"' → value? depth (text ++ rest) = some (x, rest)

theorem Spells.exists_cons {depth : Nat} {text : List Char} {x : Toml} (h : Spells depth text x) :
    ∃ c rest, text = c :: rest ∧ (c = '"' ∨ c = '[') := by
  cases text with
  | nil => simpa using h.head
  | cons c rest => exact ⟨c, rest, rfl, by simpa using h.head⟩

theorem spells_stringText (depth : Nat) (s : String) :
    Spells depth (stringText s) (.string s) where
  head := .inl rfl
  read rest hrest := by
    have hstring := string?_stringText s hrest
    rw [stringText, List.cons_append, List.cons_append] at hstring ⊢
    rw [value?, hstring]
    rfl

/-- Where there is no blank, no comment and no end of a line, nothing is skipped. -/
theorem skipLines_cons {c : Char} (hspace : isSpace c = false) (hcomment : c ≠ '#')
    (hnewline : c ≠ '\n') (hreturn : c ≠ '\r') (bound : Nat) (rest : List Char) :
    skipLines bound (c :: rest) = c :: rest := by
  cases bound with
  | zero => rfl
  | succ bound =>
    have hskip : skipSpace (c :: rest) = c :: rest := by
      rw [skipSpace, List.dropWhile_cons_of_neg (by simp [hspace])]
    have hcomment : skipComment (c :: rest) = c :: rest := by
      rw [skipComment]
      intro _ h
      exact hcomment (List.cons.inj h).1
    have hline : newline? (c :: rest) = none := by
      rw [newline?]
      · intro _ h
        exact hnewline (List.cons.inj h).1
      · intro _ h
        exact hreturn (List.cons.inj h).1
    simp only [skipLines, hskip, hcomment, hline]

/-- An array of texts, each with a comma behind it. -/
def arrayText (texts : List (List Char)) : List Char := '[' :: texts.flatMap (· ++ [',']) ++ [']']

/-- Texts that spell values are read as the items of an array. -/
theorem arrayItems?_texts {depth : Nat} {texts : List (List Char)} {xs : List Toml}
    (h : List.Forall₂ (Spells depth) texts xs) (rest : List Char) :
    ∀ bound, (texts.flatMap (· ++ [',']) ++ ']' :: rest).length ≤ bound →
      arrayItems? (value? depth) bound (texts.flatMap (· ++ [',']) ++ ']' :: rest) =
        some (xs, rest) := by
  induction h with
  | nil =>
    intro bound hbound
    cases bound with
    | zero => exact absurd hbound (by simp)
    | succ bound =>
      have hskip (bound : Nat) : skipLines bound (']' :: rest) = ']' :: rest :=
        skipLines_cons rfl (by decide) (by decide) (by decide) bound rest
      simp only [List.flatMap_nil, List.nil_append, arrayItems?, hskip]
  | @cons text x texts xs htext _ ih =>
    intro bound hbound
    generalize htail : texts.flatMap (· ++ [',']) ++ ']' :: rest = tail at ih
    have hall : (text :: texts).flatMap (· ++ [',']) ++ ']' :: rest = text ++ ',' :: tail := by
      rw [← htail]
      simp
    rw [hall] at hbound ⊢
    have hvalue := htext.read (',' :: tail) (by simp)
    have hcomma (bound : Nat) : skipLines bound (',' :: tail) = ',' :: tail :=
      skipLines_cons rfl (by decide) (by decide) (by decide) bound tail
    obtain ⟨c, more, rfl, hc⟩ := htext.exists_cons
    have hskip (bound : Nat) : skipLines bound (c :: more ++ ',' :: tail) =
        c :: more ++ ',' :: tail := by
      rcases hc with rfl | rfl <;>
        exact skipLines_cons rfl (by decide) (by decide) (by decide) _ _
    have hclose : c ≠ ']' := by
      rcases hc with rfl | rfl <;> decide
    cases bound with
    | zero => exact absurd hbound (by simp)
    | succ bound =>
      have hitems := ih bound (by
        simp only [List.length_append, List.length_cons] at hbound
        omega)
      simp only [List.cons_append] at hskip hvalue ⊢
      rw [arrayItems?, hskip]
      simp [hclose, hvalue, hcomma, hitems]

theorem spells_arrayText {depth : Nat} {texts : List (List Char)} {xs : List Toml}
    (h : List.Forall₂ (Spells depth) texts xs) :
    Spells (depth + 1) (arrayText texts) (.array xs) where
  head := .inr rfl
  read rest _ := by
    have htext : arrayText texts ++ rest = '[' :: (texts.flatMap (· ++ [',']) ++ ']' :: rest) := by
      simp [arrayText]
    rw [htext, value?, arrayItems?_texts h rest _ (Nat.le_succ _)]
    rfl

/-! ## 3. Names -/

/-- A name that needs no quotes. -/
structure IsBareName (name : String) : Prop where
  ne_nil : name.toList ≠ []
  isBare : ∀ c ∈ name.toList, isBare c = true

instance (name : String) : Decidable (IsBareName name) :=
  decidable_of_iff (name.toList.isEmpty = false ∧ name.toList.all isBare = true)
    ⟨fun h => ⟨List.isEmpty_eq_false_iff.mp h.1, List.all_eq_true.mp h.2⟩,
      fun h => ⟨List.isEmpty_eq_false_iff.mpr h.ne_nil, List.all_eq_true.mpr h.isBare⟩⟩

theorem IsBareName.exists_cons {name : String} (h : IsBareName name) :
    ∃ c rest, name.toList = c :: rest ∧ Toml.isBare c = true := by
  obtain ⟨c, rest, hname⟩ := List.exists_cons_of_ne_nil h.ne_nil
  exact ⟨c, rest, hname, h.isBare c (hname ▸ List.mem_cons_self)⟩

theorem ne_of_isBare {c d : Char} (hc : isBare c = true) (hd : isBare d = false) : c ≠ d := by
  rintro rfl
  cases hc.symm.trans hd

theorem isSpace_of_isBare {c : Char} (hc : isBare c = true) : isSpace c = false := by
  have hblank : c ≠ ' ' := ne_of_isBare hc rfl
  have htab : c ≠ '\t' := ne_of_isBare hc rfl
  simp [isSpace, hblank, htab]

/-- Before a character of such a name nothing is skipped. -/
theorem skipLines_bare {c : Char} (hc : isBare c = true) (bound : Nat) (rest : List Char) :
    skipLines bound (c :: rest) = c :: rest :=
  skipLines_cons (isSpace_of_isBare hc) (ne_of_isBare hc rfl) (ne_of_isBare hc rfl)
    (ne_of_isBare hc rfl) bound rest

/-- **A name without quotes is a key of one part**, before an equals sign or a bracket. -/
theorem IsBareName.key? {name : String} (h : IsBareName name) {c : Char} (hc : c = '=' ∨ c = ']')
    (bound : Nat) (rest : List Char) :
    key? (bound + 1) (name.toList ++ c :: rest) = some (([], name), c :: rest) := by
  obtain ⟨first, more, hname, hfirst⟩ := h.exists_cons
  have hspan : (name.toList ++ c :: rest).span Toml.isBare = (name.toList, c :: rest) := by
    refine Text.span_append h.isBare ?_
    rcases hc with rfl | rfl <;> simp [Toml.isBare]
  have hskip : skipSpace (name.toList ++ c :: rest) = name.toList ++ c :: rest := by
    rw [hname, List.cons_append, skipSpace,
      List.dropWhile_cons_of_neg (by simp [isSpace_of_isBare hfirst])]
  have hpart : keyPart? (name.toList ++ c :: rest) = some (name, c :: rest) := by
    rw [keyPart?, hspan]
    · simp [h.ne_nil]
    all_goals
      intro _ heq
      rw [hname, List.cons_append, List.cons.injEq] at heq
      exact ne_of_isBare hfirst rfl heq.1
  have hdone : skipSpace (c :: rest) = c :: rest := by
    rcases hc with rfl | rfl <;> rfl
  rw [Toml.key?, hskip, hpart]
  rcases hc with rfl | rfl <;> simp [hdone]

/-- A name in brackets is a header. -/
theorem IsBareName.header? {name : String} (h : IsBareName name) (rest : List Char) :
    header? ('[' :: (name.toList ++ ']' :: rest)) = some ((false, [], name), rest) := by
  obtain ⟨first, more, hname, hfirst⟩ := h.exists_cons
  rw [Toml.header?, maxDepth, h.key? (.inr rfl)]
  · rfl
  · -- a second bracket would start a name
    intro _ heq
    rw [hname, List.cons_append, List.cons.injEq] at heq
    exact ne_of_isBare hfirst rfl heq.1

/-! ## 4. Lines -/

/-- A line that gives a name a value. -/
structure Line where
  name : String
  text : List Char
  value : Toml

namespace Line

/-- A line as it is written. -/
def chars (line : Line) : List Char := line.name.toList ++ '=' :: line.text ++ ['\n']

/-- The entry that a line writes. -/
def entry (line : Line) : Entry := ([], line.name, line.value)

/-- The member that a line gives its table. -/
def member (line : Line) : String × Toml := (line.name, line.value)

/-- A line that is read back: its name needs no quotes, and its text spells its value. -/
structure Readable (line : Line) : Prop where
  name : IsBareName line.name
  spells : Spells maxDepth line.text line.value

end Line

/-- A line is read as the entry that it writes. -/
theorem entry?_chars {line : Line} (h : line.Readable) (rest : List Char) :
    entry? (value? maxDepth) (line.chars ++ rest) = some (line.entry, '\n' :: rest) := by
  have htext : line.chars ++ rest = line.name.toList ++ '=' :: (line.text ++ '\n' :: rest) := by
    simp [Line.chars]
  have hread := h.spells.read ('\n' :: rest) (by simp)
  obtain ⟨c, more, hmore, hc⟩ := h.spells.exists_cons
  have hskip : skipSpace (line.text ++ '\n' :: rest) = line.text ++ '\n' :: rest := by
    rw [hmore]
    rcases hc with rfl | rfl <;> rfl
  rw [htext, entry?, maxDepth, h.name.key? (.inl rfl), Option.bind_eq_bind, Option.bind_some]
  simp only [hskip]
  rw [← maxDepth, hread]
  rfl

/-- **Lines are read as their entries**, with the sections of what comes after them. -/
theorem lines?_lines {lines : List Line} {tail : List Char} {sections : List Section}
    (h : ∀ line ∈ lines, line.Readable)
    (htail : ∀ bound, tail.length < bound → lines? bound tail = some ⟨[], sections⟩) :
    ∀ bound, (lines.flatMap Line.chars ++ tail).length < bound →
      lines? bound (lines.flatMap Line.chars ++ tail) = some ⟨lines.map Line.entry, sections⟩ := by
  induction lines with
  | nil => exact htail
  | cons line lines ih =>
    intro bound hbound
    obtain ⟨hline, hlines⟩ := List.forall_mem_cons.mp h
    generalize hmore : lines.flatMap Line.chars ++ tail = more at ih
    have hall : (line :: lines).flatMap Line.chars ++ tail = line.chars ++ more := by
      rw [List.flatMap_cons, List.append_assoc, hmore]
    have hentry := entry?_chars hline more
    have hend : lineEnd? ('\n' :: more) = some more := rfl
    obtain ⟨c, rest, hc, hrest⟩ : ∃ c rest, isBare c = true ∧ line.chars ++ more = c :: rest := by
      obtain ⟨c, name, hname, hc⟩ := hline.name.exists_cons
      exact ⟨c, _, hc, congrArg (· ++ '=' :: line.text ++ ['\n'] ++ more) hname⟩
    have hlength : more.length ≤ rest.length := by
      have hsum := congrArg List.length hrest
      simp only [Line.chars, List.length_append, List.length_cons] at hsum
      omega
    rw [hall, hrest] at hbound ⊢
    rw [hrest] at hentry
    cases bound with
    | zero => exact absurd hbound (Nat.not_lt_zero _)
    | succ bound =>
      have hmore := ih hlines bound (Nat.lt_of_le_of_lt hlength (Nat.lt_of_succ_lt_succ hbound))
      rw [lines?, skipLines_bare hc]
      simp [ne_of_isBare hc (d := '[') rfl, hentry, hend, hmore]

/-! ## 5. Blocks -/

/-- Lines under a header. -/
structure Block where
  name : String
  lines : List Line

namespace Block

/-- A block as it is written. -/
def chars (block : Block) : List Char :=
  '[' :: block.name.toList ++ ']' :: '\n' :: block.lines.flatMap Line.chars

/-- The section that a block writes. -/
def toSection (block : Block) : Section :=
  ⟨false, [], block.name, block.lines.map Line.entry⟩

/-- The member that a block gives the table of the document. -/
def member (block : Block) : String × Toml :=
  (block.name, .table .header (block.lines.map Line.member))

/-- A block that is read back. -/
structure Readable (block : Block) : Prop where
  name : IsBareName block.name
  lines : ∀ line ∈ block.lines, line.Readable
  nodup : (block.lines.map Line.name).Nodup

end Block

/-- **Blocks are read as their sections.** -/
theorem lines?_blocks {blocks : List Block} (h : ∀ block ∈ blocks, block.Readable) :
    ∀ bound, (blocks.flatMap Block.chars).length < bound →
      lines? bound (blocks.flatMap Block.chars) = some ⟨[], blocks.map Block.toSection⟩ := by
  induction blocks with
  | nil =>
    intro bound hbound
    cases bound with
    | zero => exact absurd hbound (Nat.not_lt_zero _)
    | succ bound => rfl
  | cons block blocks ih =>
    intro bound hbound
    obtain ⟨hblock, hblocks⟩ := List.forall_mem_cons.mp h
    have hlines := lines?_lines hblock.lines (ih hblocks)
    generalize hmore : block.lines.flatMap Line.chars ++ blocks.flatMap Block.chars = more at hlines
    have hall : (block :: blocks).flatMap Block.chars =
        '[' :: (block.name.toList ++ ']' :: '\n' :: more) := by
      simp [Block.chars, ← hmore]
    have hheader := hblock.name.header? ('\n' :: more)
    have hend : lineEnd? ('\n' :: more) = some more := rfl
    rw [hall] at hbound ⊢
    cases bound with
    | zero => exact absurd hbound (Nat.not_lt_zero _)
    | succ bound =>
      have hlines := hlines bound (by
        simp only [List.length_append, List.length_cons] at hbound
        omega)
      rw [lines?, skipLines_cons rfl (by decide) (by decide) (by decide)]
      simp [hheader, hend, hlines, Block.toSection]

/-- An absent key is added at the end. -/
theorem alter?_of_notMem {key : String} {f : Option Toml → Option Toml} {members : Members}
    (h : key ∉ members.map Prod.fst) :
    members.alter? key f = (f none).map fun x => members ++ [(key, x)] := by
  induction members with
  | nil =>
    rw [Members.alter?]
    cases f none <;> rfl
  | cons member rest ih =>
    obtain ⟨k, x⟩ := member
    rw [List.map_cons, List.mem_cons, not_or] at h
    rw [Members.alter?, if_neg (Ne.symm h.1), ih h.2]
    cases f none <;> rfl

/-- A loop that adds one member after the other adds all, if their keys are distinct. -/
theorem foldlM_append {α : Type} {add : Members → α → Option Members} {member : α → String × Toml}
    {xs : List α} (hadd : ∀ x ∈ xs, ∀ members : Members, (member x).1 ∉ members.map Prod.fst →
      add members x = some (members ++ [member x])) :
    ∀ members : Members, ((members ++ xs.map member).map Prod.fst).Nodup →
      xs.foldlM add members = some (members ++ xs.map member) := by
  induction xs with
  | nil =>
    intro members _
    simp
  | cons x xs ih =>
    intro members hnodup
    obtain ⟨hx, hxs⟩ := List.forall_mem_cons.mp hadd
    have hnew : (member x).1 ∉ members.map Prod.fst := by
      rw [List.map_append, List.map_cons, List.map_cons] at hnodup
      exact fun hmem => (List.nodup_append.mp hnodup).2.2 _ hmem _ List.mem_cons_self rfl
    have happend : members ++ (x :: xs).map member = members ++ [member x] ++ xs.map member := by
      simp
    rw [happend] at hnodup ⊢
    rw [List.foldlM_cons, hx members hnew, Option.bind_eq_bind, Option.bind_some,
      ih hxs _ hnodup]

theorem putAll?_lines {lines : List Line} (h : (lines.map Line.name).Nodup) :
    putAll? (lines.map Line.entry) [] = some (lines.map Line.member) := by
  rw [putAll?, List.foldlM_map]
  have hadd (line : Line) (members : Members) (hnew : line.name ∉ members.map Prod.fst) :
      put? line.name line.value [] members = some (members ++ [line.member]) :=
    alter?_of_notMem hnew
  exact foldlM_append (fun line _ => hadd line) []
    (by simpa [Function.comp_def, Line.member] using h)

theorem Block.Readable.addTo? {block : Block} (h : block.Readable) {root : Members}
    (hnew : block.name ∉ root.map Prod.fst) :
    block.toSection.addTo? root = some (root ++ [block.member]) := by
  rw [Section.addTo?, Block.toSection, atPath?, alter?_of_notMem hnew]
  simp [putAll?_lines h.nodup, Block.member]

/-- **Blocks under distinct names are read back.** -/
theorem read?_blocks {blocks : List Block} (h : ∀ block ∈ blocks, block.Readable)
    (hnodup : (blocks.map Block.name).Nodup) :
    read? (blocks.flatMap Block.chars) = some (blocks.map Block.member) := by
  have hdocument : document? (blocks.flatMap Block.chars) =
      some ⟨[], blocks.map Block.toSection⟩ := by
    rw [document?]
    · exact lines?_blocks h _ (Nat.lt_succ_self _)
    · intro _ heq
      cases blocks with
      | nil => cases heq
      | cons block blocks => cases (List.cons.inj heq).1
  have htable : (blocks.map Block.toSection).foldlM (fun root s => s.addTo? root) [] =
      some (blocks.map Block.member) := by
    rw [List.foldlM_map]
    exact foldlM_append (fun block hblock _ => (h block hblock).addTo?) []
      (by simpa [Function.comp_def, Block.member] using hnodup)
  rw [read?, hdocument, Option.bind_eq_bind, Option.bind_some, Document.table?]
  exact htable

end Cooling.Toml
