import Cooling.Json.Reader
import Cooling.Json.Writer

/-!
# Property values

What an object on the bus can hold in a property: a truth value, a whole number of 64 bits, a
double or a string.  This module has the numeric view and the partial order that go with it,
the forms in which a value is shown, and the reading and writing as JSON.

A JSON value is tried against the kinds in a fixed order, whole numbers before doubles; a
whole number past the signed 64 bits becomes the nearest double.
-/

namespace Cooling

/-- A property value. -/
inductive Property where
  | bool (b : Bool)
  | int (n : Int64)
  | float (x : Binary64)
  | string (s : String)
deriving DecidableEq

namespace Property

/-! ## 1. Kinds -/

/-- The kinds of property values. -/
inductive Kind where
  | bool
  | int
  | float
  | string
deriving DecidableEq, Repr

/-- How a kind is called in log records. -/
def Kind.name : Kind → String
  | bool => "bool"
  | int => "int"
  | float => "float"
  | string => "string"

/-- The kind of a value. -/
def kind : Property → Kind
  | bool _ => .bool
  | int _ => .int
  | float _ => .float
  | string _ => .string

/-- Whether a value is a number. -/
def isNumeric : Property → Bool
  | int _ => true
  | float _ => true
  | _ => false

/-- Whether two values can be set against each other: two numbers, or two of one kind. -/
def comparable (a b : Property) : Bool :=
  a.isNumeric && b.isNumeric || a.kind == b.kind

/-! ## 2. Numeric view, order and equality -/

/-- The value as a double, whole numbers rounded to the nearest. -/
def toBinary64? : Property → Option Binary64
  | int n => some (.ofInt n.toInt)
  | float x => some x
  | _ => none

/-- The order of two numbers: exact between whole numbers, otherwise that of the doubles.
There is none with a NaN or with a value that is no number. -/
def compare : Property → Property → Option Ordering
  | int m, int n => some (Ord.compare m.toInt n.toInt)
  | a, b => do Binary64.compare (← a.toBinary64?) (← b.toBinary64?)

/-- Equality of kind and value.  Doubles are equal as numbers, so a NaN is not equal to
itself and the two zeros are equal. -/
def same : Property → Property → Bool
  | bool a, bool b => a == b
  | int m, int n => m == n
  | float x, float y => x.sameNumber y
  | string s, string t => s == t
  | _, _ => false

/-! ## 3. Forms -/

/-- The value for people to read: strings as they are, doubles without an exponent. -/
def display : Property → String
  | bool b => if b then "true" else "false"
  | int n => String.ofList (Json.intText n.toInt)
  | float x => String.ofList (x.text .display)
  | string s => s

/-- A whole number that fits 64 bits as a JSON number. -/
def intNumber (n : Int64) : Json.Number :=
  .whole n.toInt ⟨n.le_toInt, Int.le_trans (Int.le_of_lt n.toInt_lt) (by decide)⟩

/-- The value as JSON.  A double that is not finite has no JSON form and becomes `null`. -/
def toJson : Property → Json
  | bool b => .bool b
  | int n => .number (intNumber n)
  | float x => ((Json.Number.ofBinary64? x).map Json.number).getD .null
  | string s => .string s

/-- The value that a JSON value stands for, if it is of one of the kinds. -/
def ofJson? : Json → Option Property
  | .bool b => some (.bool b)
  | .number (.whole n _) =>
    some (if n ≤ 0x7fffffffffffffff then .int (Int64.ofInt n) else .float (.ofInt n))
  | .number (.real x _) => some (.float x)
  | .string s => some (.string s)
  | _ => none

/-- Why a text is not a property value. -/
inductive ReadError where
  /-- The text is not JSON. -/
  | malformed
  /-- The text starts with a JSON value of none of the kinds. -/
  | noKind
deriving DecidableEq, Repr

/-- The report of a JSON value of none of the kinds, or of a text that is not JSON. -/
def ReadError.message : ReadError → String
  | malformed => "malformed JSON"
  | noKind => "data did not match any variant of untagged enum PropertyValue"

/-- Reads a value from JSON text.  The value is judged before the rest of the text: after one
of no kind the rest does not matter, after any other there must be none. -/
def read (s : List Char) : Except ReadError Property :=
  match Json.value? Json.maxDepth s with
  | none => .error .malformed
  | some (j, rest) =>
    match ofJson? j with
    | none => .error .noKind
    | some p => if (Json.skipGap rest).isEmpty then .ok p else .error .malformed

end Property
end Cooling
