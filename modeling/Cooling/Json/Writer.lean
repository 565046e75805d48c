import Cooling.Decimal.Text
import Cooling.Json.Basic

/-!
# Writing JSON

The text of a value, without blanks.  Whole numbers are written by their digits and doubles
by their shortest decimal, which always has a point or an exponent; so a reader tells the two
apart again.
-/

namespace Cooling.Json

/-- A hexadecimal number of four digits. -/
def hexWord (n : Nat) : List Char :=
  let digits := Nat.toDigits 16 n
  List.replicate (4 - digits.length) '0' ++ digits

/-- One character inside a string. -/
def escape (c : Char) : List Char :=
  match c with
  | '"' => ['\\', '"']
  | '\\' => ['\\', '\\']
  | '\x08' => ['\\', 'b']
  | '\x0c' => ['\\', 'f']
  | '\n' => ['\\', 'n']
  | '\r' => ['\\', 'r']
  | '\t' => ['\\', 't']
  | c => if c.toNat < 0x20 then '\\' :: 'u' :: hexWord c.toNat else [c]

/-- The text of a string. -/
def stringText (s : String) : List Char := '"' :: s.toList.flatMap escape ++ ['"']

/-- The digits of a whole number, with a minus sign if it is negative. -/
def intText (n : Int) : List Char :=
  (if n < 0 then ['-'] else []) ++ Nat.toDigits 10 n.natAbs

/-- The text of a number. -/
def Number.text : Number → List Char
  | whole n _ => intText n
  | real x _ => x.text .data

mutual

/-- The text of a value. -/
def text : Json → List Char
  | null => ['n', 'u', 'l', 'l']
  | bool true => ['t', 'r', 'u', 'e']
  | bool false => ['f', 'a', 'l', 's', 'e']
  | number n => n.text
  | string s => stringText s
  | array items => '[' :: itemsText items ++ [']']
  | object members => '\x7b' :: membersText members ++ ['\x7d']

/-- The texts of the items of an array, with commas between them. -/
def itemsText : List Json → List Char
  | [] => []
  | [j] => j.text
  | j :: rest => j.text ++ ',' :: itemsText rest

/-- The texts of the members of an object, with commas between them. -/
def membersText : List (String × Json) → List Char
  | [] => []
  | [(key, j)] => stringText key ++ ':' :: j.text
  | (key, j) :: rest => stringText key ++ ':' :: j.text ++ ',' :: membersText rest

end

end Cooling.Json
