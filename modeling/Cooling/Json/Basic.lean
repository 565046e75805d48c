import Cooling.Binary64.Basic

/-!
# JSON values

A JSON value as the program sees it.  A number is either a whole number of at most 64 bits,
signed or not, or a finite double; the two are told apart by how the number is written.  The
members of an object keep their order and are looked up by name.
-/

namespace Cooling

namespace Json

/-- A number: whole within 64 bits, or a finite double. -/
inductive Number where
  | whole (n : Int) (inRange : -0x8000000000000000 ≤ n ∧ n ≤ 0xffffffffffffffff)
  | real (x : Binary64) (isFinite : x.isFinite = true)
deriving DecidableEq

/-- A whole number, if 64 bits hold it. -/
def Number.ofInt? (n : Int) : Option Number :=
  if h : -0x8000000000000000 ≤ n ∧ n ≤ 0xffffffffffffffff then some (.whole n h) else none

/-- A double as a number, if it is finite. -/
def Number.ofBinary64? (x : Binary64) : Option Number :=
  if h : x.isFinite = true then some (.real x h) else none

end Json

/-- A JSON value. -/
inductive Json where
  | null
  | bool (b : Bool)
  | number (n : Json.Number)
  | string (s : String)
  | array (items : List Json)
  | object (members : List (String × Json))

namespace Json

/-- The members of an object, in order. -/
abbrev Members := List (String × Json)

/-- The value of the first member with a name. -/
def Members.get? (members : Members) (key : String) : Option Json :=
  List.lookup key members

/-- Of members with one name the last is kept. -/
def Members.lastOfEach : Members → Members
  | [] => []
  | (key, value) :: rest =>
    if rest.any (·.1 == key) then Members.lastOfEach rest
    else (key, value) :: Members.lastOfEach rest

/-! ## Views of a value as one kind -/

/-- The string that a value is. -/
def string? : Json → Option String
  | string s => some s
  | _ => none

/-- The items of the array that a value is. -/
def items? : Json → Option (List Json)
  | array items => some items
  | _ => none

/-- The members of the object that a value is. -/
def members? : Json → Option Members
  | object members => some members
  | _ => none

/-- The unsigned 64-bit number that a value is, if it is written as a whole number. -/
def unsigned? : Json → Option UInt64
  | number (.whole n _) => if 0 ≤ n then some (UInt64.ofNat n.toNat) else none
  | _ => none

/-- The member of an object, `none` also for a value of any other kind. -/
def get? (j : Json) (key : String) : Option Json :=
  j.members?.bind (·.get? key)

end Json
end Cooling
