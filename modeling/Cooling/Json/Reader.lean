import Cooling.Decimal.Basic
import Cooling.Json.Basic

/-!
# Reading JSON

Readers take a list of characters and return what they read with the rest, or nothing if the
text does not go on as it must.  `value depth` reads one value in which arrays and objects
are nested at most `depth` deep and looks at nothing after it; `read` wants a whole text.

The grammar is the strict one: blanks are the space, the tab and the two line ends, strings
hold no control characters and no half of a surrogate pair, and numbers beyond the finite
doubles are refused.
-/

namespace Cooling.Json

/-! ## 1. Blanks -/

/-- The characters that may stand between the parts of a text. -/
def isGap (c : Char) : Bool := c == ' ' || c == '\t' || c == '\n' || c == '\r'

/-- The text from its first character that is no blank. -/
def skipGap (s : List Char) : List Char := s.dropWhile isGap

/-! ## 2. Strings -/

/-- The value of a hexadecimal digit. -/
def hexDigit? (c : Char) : Option Nat :=
  if '0' ≤ c ∧ c ≤ '9' then some (c.toNat - '0'.toNat)
  else if 'a' ≤ c ∧ c ≤ 'f' then some (c.toNat - 'a'.toNat + 10)
  else if 'A' ≤ c ∧ c ≤ 'F' then some (c.toNat - 'A'.toNat + 10)
  else none

/-- The number that four hexadecimal digits write. -/
def hexWord? (a b c d : Char) : Option Nat := do
  return ((← hexDigit? a) * 16 + (← hexDigit? b)) * 256 + (← hexDigit? c) * 16 + (← hexDigit? d)

/-- The character that a backslash and a letter stand for. -/
def escaped? : Char → Option Char
  | '"' => some '"'
  | '\\' => some '\\'
  | '/' => some '/'
  | 'b' => some '\x08'
  | 'f' => some '\x0c'
  | 'n' => some '\n'
  | 'r' => some '\r'
  | 't' => some '\t'
  | _ => none

/-- The rest of a string, after its opening quote.  A character beyond sixteen bits is
escaped as a pair of words, the first from `D800` to `DBFF`, the second from `DC00` to
`DFFF`; such words mean nothing alone. -/
def stringRest : List Char → Option (List Char × List Char)
  | [] => none
  | '"' :: rest => some ([], rest)
  | '\\' :: 'u' :: a :: b :: c :: d :: rest =>
    match hexWord? a b c d with
    | none => none
    | some word =>
      if word < 0xd800 ∨ 0xe000 ≤ word then
        (stringRest rest).map fun (cs, rest) => (Char.ofNat word :: cs, rest)
      else match rest with
        | '\\' :: 'u' :: e :: f :: g :: h :: rest =>
          match hexWord? e f g h with
          | none => none
          | some low =>
            if word < 0xdc00 ∧ 0xdc00 ≤ low ∧ low < 0xe000 then
              (stringRest rest).map fun (cs, rest) =>
                (Char.ofNat (0x10000 + (word - 0xd800) * 0x400 + (low - 0xdc00)) :: cs, rest)
            else none
        | _ => none
  | '\\' :: c :: rest =>
    match escaped? c with
    | none => none
    | some c => (stringRest rest).map fun (cs, rest) => (c :: cs, rest)
  | c :: rest =>
    if c.toNat < 0x20 then none
    else (stringRest rest).map fun (cs, rest) => (c :: cs, rest)

/-! ## 3. Numbers -/

/-- The digits after a point, if there is a point; one at least must follow it. -/
def fraction? : List Char → Option (List Char × List Char)
  | '.' :: s =>
    let (digits, rest) := s.span Char.isDigit
    if digits.isEmpty then none else some (digits, rest)
  | s => some ([], s)

/-- The digits of an exponent after its letter, with an optional sign. -/
def exponentRest? (s : List Char) : Option (Int × List Char) :=
  let (negative, s) := match s with
    | '-' :: s => (true, s)
    | '+' :: s => (false, s)
    | s => (false, s)
  let (digits, rest) := s.span Char.isDigit
  if digits.isEmpty then none
  else
    let n : Int := Nat.ofDigitChars 10 digits 0
    some (if negative then -n else n, rest)

/-- The exponent of a number, if it has one. -/
def exponent? : List Char → Option (Option Int × List Char)
  | 'e' :: s => (exponentRest? s).map fun (n, rest) => (some n, rest)
  | 'E' :: s => (exponentRest? s).map fun (n, rest) => (some n, rest)
  | s => some (none, s)

/-- The number of a text of digits, an optional fraction and an optional exponent.  Without
either it is whole if 64 bits hold it, but `-0` is the double, which has that sign.  A double is
always the nearest one to what is written.  A reader that makes do with the best it can find fast
may be off in the last place, and may refuse a number close to the largest double, such as
`1.7976931348623158e308`. -/
def Number.ofParts? (negative : Bool) (digits fraction : List Char) (exponent : Option Int) :
    Option Number :=
  let n := Nat.ofDigitChars 10 (digits ++ fraction) 0
  let double := Number.ofBinary64?
    (Decimal.toBinary64 negative ⟨n, exponent.getD 0 - fraction.length⟩)
  if fraction.isEmpty && exponent.isNone && !(negative && n == 0) then
    (Number.ofInt? (if negative then -n else n)).or double
  else double

/-- A number behind its sign.  Its whole part has no leading zero. -/
def magnitude? (negative : Bool) (s : List Char) : Option (Number × List Char) := do
  let (digits, s) := s.span Char.isDigit
  guard (!digits.isEmpty && (digits.length == 1 || digits.head? != some '0'))
  let (fraction, s) ← fraction? s
  let (exponent, s) ← exponent? s
  let n ← Number.ofParts? negative digits fraction exponent
  return (n, s)

/-- A number. -/
def number? : List Char → Option (Number × List Char)
  | '-' :: s => magnitude? true s
  | s => magnitude? false s

/-! ## 4. Values -/

/-- A value that is no array and no object. -/
def scalar? : List Char → Option (Json × List Char)
  | 'n' :: 'u' :: 'l' :: 'l' :: rest => some (.null, rest)
  | 't' :: 'r' :: 'u' :: 'e' :: rest => some (.bool true, rest)
  | 'f' :: 'a' :: 'l' :: 's' :: 'e' :: rest => some (.bool false, rest)
  | '"' :: rest => (stringRest rest).map fun (cs, rest) => (.string (String.ofList cs), rest)
  | s => (number? s).map fun (n, rest) => (.number n, rest)

section Lists

variable {α : Type} (close : Char) (item : List Char → Option (α × List Char))

/-- One item at least, with commas between them, up to the closing character.  Each item and
comma takes a character, so the length of the text bounds their number. -/
def itemsUpTo : Nat → List Char → Option (List α × List Char)
  | 0, _ => none
  | bound + 1, s => do
    let (x, rest) ← item s
    match skipGap rest with
    | [] => none
    | c :: rest =>
      if c = close then some ([x], rest)
      else if c = ',' then (itemsUpTo bound rest).map fun (xs, rest) => (x :: xs, rest)
      else none

/-- The rest of a list, after its opening character. -/
def listRest (s : List Char) : Option (List α × List Char) :=
  match skipGap s with
  | [] => none
  | c :: rest => if c = close then some ([], rest) else itemsUpTo close item s.length s

end Lists

/-- A name, a colon and a value. -/
def member? (value : List Char → Option (Json × List Char)) (s : List Char) :
    Option ((String × Json) × List Char) :=
  match skipGap s with
  | '"' :: rest => do
    let (key, rest) ← stringRest rest
    match skipGap rest with
    | ':' :: rest => do
      let (j, rest) ← value rest
      some ((String.ofList key, j), rest)
    | _ => none
  | _ => none

/-- One value and the rest of the text, arrays and objects nested at most `depth` deep. -/
def value? : (depth : Nat) → List Char → Option (Json × List Char)
  | 0, s => scalar? (skipGap s)
  | depth + 1, s =>
    match skipGap s with
    | '[' :: rest => (listRest ']' (value? depth) rest).map fun (items, rest) => (.array items, rest)
    | '\x7b' :: rest =>
      (listRest '\x7d' (member? (value? depth)) rest).map fun (members, rest) =>
        (.object (Members.lastOfEach members), rest)
    | s => scalar? s

/-- How deep arrays and objects may be nested. -/
def maxDepth : Nat := 127

/-- The value that a whole text writes. -/
def read? (s : List Char) : Option Json :=
  match value? maxDepth s with
  | some (j, rest) => if (skipGap rest).isEmpty then some j else none
  | none => none

end Cooling.Json
