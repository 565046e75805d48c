import Cooling.Toml.Scalar

/-!
# Reading TOML

Readers take a list of characters and return what they read with the rest, or nothing if the
text does not go on as it must.  `document?` reads the parts of a document as they are
written; `read?` also joins them to one table.

Loops over the parts of a text carry a bound on their number, the length of the text, which
they cannot reach: each part takes a character.
-/

namespace Cooling.Toml

/-! ## 1. Blanks, comments and the ends of lines -/

/-- Blanks within a line. -/
def isSpace (c : Char) : Bool := c == ' ' || c == '\t'

/-- The text from its first character that is no blank. -/
def skipSpace (s : List Char) : List Char := s.dropWhile isSpace

/-- Whether a character may stand in comments and in strings of one line. -/
def isText (c : Char) : Bool := c == '\t' || (0x20 ≤ c.toNat && c.toNat != 0x7f)

/-- The rest after the end of a line. -/
def newline? : List Char → Option (List Char)
  | '\n' :: rest => some rest
  | '\r' :: '\n' :: rest => some rest
  | _ => none

/-- The rest after a comment, if there is one. -/
def skipComment : List Char → List Char
  | '#' :: rest => rest.dropWhile isText
  | s => s

/-- The rest after blanks, a comment and the end of the line or of the text. -/
def lineEnd? (s : List Char) : Option (List Char) :=
  match skipComment (skipSpace s) with
  | [] => some []
  | s => newline? s

/-- The text after blanks, comments and ends of lines. -/
def skipLines : Nat → List Char → List Char
  | 0, s => s
  | bound + 1, s =>
    let s := skipSpace s
    match newline? (skipComment s) with
    | some rest => skipLines bound rest
    | none => skipComment s

/-! ## 2. Strings -/

/-- The value of a hexadecimal digit. -/
def hexDigit? (c : Char) : Option Nat := if isDigitOf 16 c then some (digitValue c) else none

/-- The character whose number is written in hexadecimal digits. -/
def charOfHex? (digits : List Char) : Option Char := do
  let n := (← digits.mapM hexDigit?).foldl (fun n d => n * 16 + d) 0
  if n.isValidChar then some (Char.ofNat n) else none

/-- The character that a backslash and a letter stand for. -/
def escaped? : Char → Option Char
  | '"' => some '"'
  | '\\' => some '\\'
  | 'b' => some '\x08'
  | 'f' => some '\x0c'
  | 'n' => some '\n'
  | 'r' => some '\r'
  | 't' => some '\t'
  | _ => none

/-- A character in front of what a reader of the rest of a string yields. -/
def prepend (c : Char) : Option (List Char × List Char) → Option (List Char × List Char) :=
  Option.map fun (cs, rest) => (c :: cs, rest)

/-- The rest of a string of one line, after its opening quote. -/
def basicRest : List Char → Option (List Char × List Char)
  | [] => none
  | '"' :: rest => some ([], rest)
  | '\\' :: 'u' :: a :: b :: c :: d :: rest => do
    let x ← charOfHex? [a, b, c, d]
    prepend x (basicRest rest)
  | '\\' :: 'U' :: a :: b :: c :: d :: e :: f :: g :: h :: rest => do
    let x ← charOfHex? [a, b, c, d, e, f, g, h]
    prepend x (basicRest rest)
  | '\\' :: c :: rest => do
    let x ← escaped? c
    prepend x (basicRest rest)
  | c :: rest => if isText c then prepend c (basicRest rest) else none

/-- The rest of a string without escapes, after its opening quote. -/
def literalRest : List Char → Option (List Char × List Char)
  | [] => none
  | '\'' :: rest => some ([], rest)
  | c :: rest => if isText c then prepend c (literalRest rest) else none

/-- Whether only blanks are left on a line. -/
def isLineRest (s : List Char) : Bool := (newline? (skipSpace s)).isSome

/-- The rest of a string of several lines, after its opening quotes.  Up to two quotes may
stand right before the three that close it.  A backslash at the end of a line takes away all
blanks and ends of lines after it; `skipping` says that some are being taken away. -/
def basicLinesRest (skipping : Bool) : List Char → Option (List Char × List Char)
  | [] => none
  | '"' :: '"' :: '"' :: '"' :: '"' :: rest => some (['"', '"'], rest)
  | '"' :: '"' :: '"' :: '"' :: rest => some (['"'], rest)
  | '"' :: '"' :: '"' :: rest => some ([], rest)
  | '\r' :: '\n' :: rest =>
    if skipping then basicLinesRest true rest else prepend '\n' (basicLinesRest false rest)
  | '\n' :: rest =>
    if skipping then basicLinesRest true rest else prepend '\n' (basicLinesRest false rest)
  | '\\' :: 'u' :: a :: b :: c :: d :: rest => do
    let x ← charOfHex? [a, b, c, d]
    prepend x (basicLinesRest false rest)
  | '\\' :: 'U' :: a :: b :: c :: d :: e :: f :: g :: h :: rest => do
    let x ← charOfHex? [a, b, c, d, e, f, g, h]
    prepend x (basicLinesRest false rest)
  | '\\' :: c :: rest =>
    if isLineRest (c :: rest) then basicLinesRest true (c :: rest)
    else do
      let x ← escaped? c
      prepend x (basicLinesRest false rest)
  | c :: rest =>
    if skipping && isSpace c then basicLinesRest true rest
    else if isText c then prepend c (basicLinesRest false rest)
    else none

/-- The rest of a string of several lines without escapes, after its opening quotes. -/
def literalLinesRest : List Char → Option (List Char × List Char)
  | [] => none
  | '\'' :: '\'' :: '\'' :: '\'' :: '\'' :: rest => some (['\'', '\''], rest)
  | '\'' :: '\'' :: '\'' :: '\'' :: rest => some (['\''], rest)
  | '\'' :: '\'' :: '\'' :: rest => some ([], rest)
  | '\r' :: '\n' :: rest => prepend '\n' (literalLinesRest rest)
  | '\n' :: rest => prepend '\n' (literalLinesRest rest)
  | c :: rest => if isText c then prepend c (literalLinesRest rest) else none

/-- The text after an end of a line that stands right at its start. -/
def skipFirstNewline (s : List Char) : List Char := (newline? s).getD s

/-- A string value of any of the four forms. -/
def string? (s : List Char) : Option (String × List Char) :=
  let found := match s with
    | '"' :: '"' :: '"' :: rest => basicLinesRest false (skipFirstNewline rest)
    | '\'' :: '\'' :: '\'' :: rest => literalLinesRest (skipFirstNewline rest)
    | '"' :: rest => basicRest rest
    | '\'' :: rest => literalRest rest
    | _ => none
  found.map fun (cs, rest) => (String.ofList cs, rest)

/-! ## 3. Keys -/

/-- Whether a character may stand in a key without quotes. -/
def isBare (c : Char) : Bool := c.isAlphanum || c == '_' || c == '-'

/-- One part of a key. -/
def keyPart? : List Char → Option (String × List Char)
  | '"' :: rest => (basicRest rest).map fun (cs, rest) => (String.ofList cs, rest)
  | '\'' :: rest => (literalRest rest).map fun (cs, rest) => (String.ofList cs, rest)
  | s =>
    let (cs, rest) := s.span isBare
    if cs.isEmpty then none else some (String.ofList cs, rest)

/-- How many parts a key may have, and how deep arrays and inline tables may be nested. -/
def maxDepth : Nat := 79

/-- A key of at most so many parts, with blanks around each: the parts before the last one,
the last one, and the rest. -/
def key? : Nat → List Char → Option ((List String × String) × List Char)
  | 0, _ => none
  | bound + 1, s => do
    let (part, rest) ← keyPart? (skipSpace s)
    match skipSpace rest with
    | '.' :: rest => do
      let ((path, last), rest) ← key? bound rest
      return ((part :: path, last), rest)
    | rest => return (([], part), rest)

/-! ## 4. Values -/

/-- Whether a character may stand in a value without quotes and brackets. -/
def isScalarChar (c : Char) : Bool :=
  c.isAlphanum || c == '+' || c == '-' || c == '.' || c == '_' || c == ':'

/-- A value without quotes and brackets.  A date and a time may have one blank between
them. -/
def bare? (s : List Char) : Option (Toml × List Char) :=
  let (run, rest) := s.span isScalarChar
  match rest with
  | ' ' :: more =>
    let (time, after) := more.span isScalarChar
    match date? run with
    | some [] => if isTime time then some (.moment, after) else some (.moment, rest)
    | _ => (scalar? run).map fun x => (x, rest)
  | rest => (scalar? run).map fun x => (x, rest)

/-- An entry, without the end of its line. -/
def entry? (value : List Char → Option (Toml × List Char)) (s : List Char) :
    Option (Entry × List Char) := do
  let ((path, key), rest) ← key? maxDepth s
  match rest with
  | '=' :: rest => do
    let (x, rest) ← value (skipSpace rest)
    return ((path, key, x), rest)
  | _ => none

/-- The items of an array up to its closing bracket; a comma may follow the last one. -/
def arrayItems? (value : List Char → Option (Toml × List Char)) :
    Nat → List Char → Option (List Toml × List Char)
  | 0, _ => none
  | bound + 1, s =>
    match skipLines s.length s with
    | ']' :: rest => some ([], rest)
    | s => do
      let (x, rest) ← value s
      match skipLines rest.length rest with
      | ',' :: rest => do
        let (xs, rest) ← arrayItems? value bound rest
        return (x :: xs, rest)
      | ']' :: rest => return ([x], rest)
      | _ => none

/-- The entries of an inline table up to its closing brace. -/
def inlineEntries? (value : List Char → Option (Toml × List Char)) :
    Nat → List Char → Option (List Entry × List Char)
  | 0, _ => none
  | bound + 1, s => do
    let (e, rest) ← entry? value s
    match skipSpace rest with
    | ',' :: rest => do
      let (es, rest) ← inlineEntries? value bound rest
      return (e :: es, rest)
    | '\x7d' :: rest => return ([e], rest)
    | _ => none

/-- A value in which arrays and inline tables are nested at most `depth` deep. -/
def value? : (depth : Nat) → List Char → Option (Toml × List Char)
  | _, '"' :: rest => (string? ('"' :: rest)).map fun (s, rest) => (.string s, rest)
  | _, '\'' :: rest => (string? ('\'' :: rest)).map fun (s, rest) => (.string s, rest)
  | depth + 1, '[' :: rest =>
    (arrayItems? (value? depth) (rest.length + 1) rest).map fun (xs, rest) => (.array xs, rest)
  | depth + 1, '\x7b' :: rest =>
    match skipSpace rest with
    | '\x7d' :: rest => some (.table .inline [], rest)
    | rest => do
      let (es, rest) ← inlineEntries? (value? depth) rest.length rest
      return (.table .inline (← putAll? es []), rest)
  | _, s => bare? s

/-! ## 5. Documents -/

/-- A header in single or double brackets, without the end of its line. -/
def header? : List Char → Option ((Bool × List String × String) × List Char)
  | '[' :: '[' :: rest => do
    let ((path, key), rest) ← key? maxDepth rest
    match rest with
    | ']' :: ']' :: rest => return ((true, path, key), rest)
    | _ => none
  | '[' :: rest => do
    let ((path, key), rest) ← key? maxDepth rest
    match rest with
    | ']' :: rest => return ((false, path, key), rest)
    | _ => none
  | _ => none

/-- The lines of a text: the entries before the first header, and the sections. -/
def lines? : Nat → List Char → Option Document
  | 0, _ => none
  | bound + 1, s =>
    match skipLines s.length s with
    | [] => some ⟨[], []⟩
    | '[' :: rest => do
      let ((isRow, path, key), rest) ← header? ('[' :: rest)
      let d ← lines? bound (← lineEnd? rest)
      return ⟨[], ⟨isRow, path, key, d.entries⟩ :: d.sections⟩
    | s => do
      let (e, rest) ← entry? (value? maxDepth) s
      let d ← lines? bound (← lineEnd? rest)
      return ⟨e :: d.entries, d.sections⟩

/-- A document, with or without a byte order mark in front. -/
def document? (s : List Char) : Option Document :=
  let s := match s with
    | '\ufeff' :: rest => rest
    | s => s
  lines? (s.length + 1) s

/-- The table that a text writes. -/
def read? (s : List Char) : Option Members := document? s >>= Document.table?

end Cooling.Toml
