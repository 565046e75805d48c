import Cooling.Decimal.Basic
import Cooling.Toml.Basic

/-!
# Plain TOML values

Values that are written without quotes or brackets: truth values, numbers, dates and times.
Each is a run of letters, digits and the signs `+ - . _ :`, and is judged as a whole by
`scalar?`.  Whole numbers must fit 64 bits with a sign; a double may be too large only below
zero, where it becomes the infinity.
-/

namespace Cooling.Toml

/-! ## 1. Digits -/

/-- Digits, with single underscores between them left out. -/
def ungroup? (isDigit : Char → Bool) : List Char → Option (List Char)
  | [] => none
  | [c] => if isDigit c then some [c] else none
  | c :: '_' :: rest => if isDigit c then (ungroup? isDigit rest).map (c :: ·) else none
  | c :: rest => if isDigit c then (ungroup? isDigit rest).map (c :: ·) else none

/-- Decimal digits without a leading zero, or a zero. -/
def wholeDigits? (s : List Char) : Option (List Char) := do
  let digits ← ungroup? Char.isDigit s
  guard (digits.length == 1 || digits.head? != some '0')
  return digits

/-- A sign in front, if there is one, and the rest. -/
def sign : List Char → Bool × List Char
  | '-' :: rest => (true, rest)
  | '+' :: rest => (false, rest)
  | rest => (false, rest)

/-! ## 2. Numbers -/

/-- A whole number of 64 bits. -/
def int64? (n : Int) : Option Toml :=
  if -0x8000000000000000 ≤ n ∧ n ≤ 0x7fffffffffffffff then some (.integer n) else none

/-- The value of a digit in bases up to sixteen. -/
def digitValue (c : Char) : Nat :=
  if c.isDigit then c.toNat - '0'.toNat else c.toLower.toNat - 'a'.toNat + 10

/-- Whether a character is a digit of a base. -/
def isDigitOf (base : Nat) (c : Char) : Bool :=
  (c.isDigit || ('a' ≤ c.toLower && c.toLower ≤ 'f')) && digitValue c < base

/-- A whole number in a base other than ten. -/
def based? (base : Nat) (s : List Char) : Option Toml := do
  let digits ← ungroup? (isDigitOf base) s
  int64? (digits.foldl (fun n c => n * base + digitValue c) 0)

/-- A whole number. -/
def integer? : List Char → Option Toml
  | '0' :: 'x' :: rest => based? 16 rest
  | '0' :: 'o' :: rest => based? 8 rest
  | '0' :: 'b' :: rest => based? 2 rest
  | s => do
    let (negative, s) := sign s
    let n : Int := Nat.ofDigitChars 10 (← wholeDigits? s) 0
    int64? (if negative then -n else n)

/-- The double of the given parts, unless it is the positive infinity. -/
def double? (negative : Bool) (digits : List Char) (exponent : Int) : Option Toml :=
  let x := Decimal.toBinary64 negative ⟨Nat.ofDigitChars 10 digits 0, exponent⟩
  if x = .infinity false then none else some (.float x)

/-- A double: a whole part with a fraction, an exponent or both, or a special value. -/
def float? (s : List Char) : Option Toml := do
  let (negative, s) := sign s
  match s with
  | ['i', 'n', 'f'] => return .float (.infinity negative)
  | ['n', 'a', 'n'] => return .float .nan
  | _ =>
    let (whole, rest) := s.span fun c => c.isDigit || c == '_'
    let whole ← wholeDigits? whole
    let (fraction, rest) ← match rest with
      | '.' :: rest => do
        let (fraction, rest) := rest.span fun c => c.isDigit || c == '_'
        pure (← ungroup? Char.isDigit fraction, rest)
      | rest => pure ([], rest)
    let exponent : Int ← match rest with
      | [] => do
        guard (!fraction.isEmpty)
        pure 0
      | letter :: rest => do
        guard (letter == 'e' || letter == 'E')
        let (down, rest) := sign rest
        let n : Int := Nat.ofDigitChars 10 (← ungroup? Char.isDigit rest) 0
        pure (if down then -n else n)
    double? negative (whole ++ fraction) (exponent - fraction.length)

/-! ## 3. Dates and times -/

/-- The number that a fixed count of digits writes, and the rest. -/
def digits? (count : Nat) (s : List Char) : Option (Nat × List Char) :=
  let front := s.take count
  if front.length = count ∧ front.all Char.isDigit then
    some (Nat.ofDigitChars 10 front 0, s.drop count)
  else none

/-- The rest after a given character. -/
def after? (c : Char) : List Char → Option (List Char)
  | d :: rest => if c = d then some rest else none
  | [] => none

/-- The number of days of a month. -/
def daysOf (year month : Nat) : Nat :=
  match month with
  | 2 => if year % 4 = 0 ∧ (year % 100 ≠ 0 ∨ year % 400 = 0) then 29 else 28
  | 4 | 6 | 9 | 11 => 30
  | _ => 31

/-- A date of the calendar, and the rest. -/
def date? (s : List Char) : Option (List Char) := do
  let (year, s) ← digits? 4 s
  let (month, s) ← digits? 2 (← after? '-' s)
  let (day, s) ← digits? 2 (← after? '-' s)
  guard (1 ≤ month && month ≤ 12 && 1 ≤ day && day ≤ daysOf year month)
  return s

/-- Hours and minutes, and the rest. -/
def clock? (s : List Char) : Option (List Char) := do
  let (hour, s) ← digits? 2 s
  let (minute, s) ← digits? 2 (← after? ':' s)
  guard (hour ≤ 23 && minute ≤ 59)
  return s

/-- A time of day, and the rest.  A minute may have a leap second. -/
def time? (s : List Char) : Option (List Char) := do
  let (second, s) ← digits? 2 (← after? ':' (← clock? s))
  guard (second ≤ 60)
  match s with
  | '.' :: s =>
    let (fraction, s) := s.span Char.isDigit
    guard (!fraction.isEmpty)
    return s
  | s => return s

/-- Whether a text is the distance from universal time, or empty. -/
def isOffset : List Char → Bool
  | [] => true
  | ['Z'] => true
  | ['z'] => true
  | c :: rest => (c == '+' || c == '-') && clock? rest == some []

/-- Whether a text is a time of day, with or without an offset. -/
def isTime (s : List Char) : Bool :=
  match time? s with
  | some rest => isOffset rest
  | none => false

/-- A date alone, a time of day alone, or a date and a time with an optional offset. -/
def moment? (s : List Char) : Option Toml :=
  match date? s with
  | some [] => some .moment
  | some (c :: rest) =>
    if (c == 'T' || c == 't' || c == ' ') && isTime rest then some .moment else none
  | none => if time? s == some [] then some .moment else none

/-! ## 4. Any of them -/

/-- The value that a run of characters writes. -/
def scalar? (s : List Char) : Option Toml :=
  if s = "true".toList then some (.boolean true)
  else if s = "false".toList then some (.boolean false)
  else (moment? s).or ((float? s).or (integer? s))

end Cooling.Toml
