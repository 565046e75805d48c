import Cooling.Binary64.Grid

/-!
# Doubles

An IEEE 754 double as the number it is: not a number, an infinity, or a signed whole number
of units of `2 ^ (-1074)` that lies on the grid of `Grid.lean`.  Zero has a sign.  Every
operation is its exact result, rounded once by `round`; nothing is ever computed with a
machine float, so each rule can be reasoned about with whole numbers.

`position` places a double on the number line, in units, with the infinities just past the
finite ones.  Order, equality and distance are read off it, and a NaN has no position.
-/

namespace Cooling

/-- A double precision number.  A finite one is `± units * 2 ^ (-1074)`. -/
inductive Binary64 where
  | nan
  | infinity (negative : Bool)
  | finite (negative : Bool) (units : Nat) (onGrid : Binary64.OnGrid units)
deriving DecidableEq

namespace Binary64

/-! ## 1. Sign, size and order -/

/-- A magnitude with its sign. -/
def signed (negative : Bool) (n : Nat) : Int := if negative then -(n : Int) else n

/-- The place on the number line, in units.  The infinities stand at `limit`, past every
finite double. -/
def position : Binary64 → Option Int
  | nan => none
  | infinity negative => some (signed negative limit)
  | finite negative units _ => some (signed negative units)

/-- Whether the number is neither a NaN nor an infinity. -/
def isFinite : Binary64 → Bool
  | finite .. => true
  | _ => false

/-- The order of two doubles; there is none with a NaN.  The two zeros are equal. -/
def compare (x y : Binary64) : Option Ordering := do
  return Ord.compare (← x.position) (← y.position)

/-- Whether `x` is below `y`: never so with a NaN. -/
def below (x y : Binary64) : Bool := x.compare y == some .lt

/-- Equality as numbers: a NaN equals nothing, and the two zeros are equal. -/
def sameNumber (x y : Binary64) : Bool := x.compare y == some .eq

/-! ## 2. Rounding -/

/-- The double nearest `± num / den` units, ties going to the even one, and an infinity when
that lies past the finite doubles. -/
def round (negative : Bool) (num den : Nat) : Binary64 :=
  if h : roundToGrid num den < limit then
    finite negative (roundToGrid num den) ⟨h, step_dvd_roundToGrid num den⟩
  else infinity negative

/-- The zero of a sign. -/
def zero (negative : Bool) : Binary64 := finite negative 0 onGrid_zero

/-- A number that is on the grid is its own rounding. -/
theorem round_self (negative : Bool) {n : Nat} (h : OnGrid n) :
    round negative n 1 = finite negative n h := by
  simp [round, roundToGrid_self h.2, h.1]

/-- The double nearest a whole number. -/
def ofInt (n : Int) : Binary64 := round (n < 0) (n.natAbs * one) 1

/-! ## 3. Arithmetic -/

/-- The difference of two doubles, rounded once.  Infinities of one sign have none.  An exact
zero is positive, except `-0 - 0`. -/
def sub : Binary64 → Binary64 → Binary64
  | nan, _ => nan
  | _, nan => nan
  | infinity s, infinity t => if s = t then nan else infinity s
  | infinity s, finite .. => infinity s
  | finite .., infinity t => infinity (!t)
  | finite s m _, finite t n _ =>
    let difference := signed s m - signed t n
    if difference = 0 then zero (s && !t)
    else round (difference < 0) difference.natAbs 1

/-- The product of two doubles, rounded once.  A zero times an infinity is none. -/
def mul : Binary64 → Binary64 → Binary64
  | nan, _ => nan
  | _, nan => nan
  | infinity s, infinity t => infinity (s != t)
  | infinity s, finite t n _ => if n = 0 then nan else infinity (s != t)
  | finite s m _, infinity t => if m = 0 then nan else infinity (s != t)
  | finite s m _, finite t n _ => round (s != t) (m * n) one

instance : Sub Binary64 := ⟨sub⟩
instance : Mul Binary64 := ⟨mul⟩

/-- The whole part as an unsigned word: a negative number or a NaN gives 0, and what does not
fit gives the largest word. -/
def toUInt64 : Binary64 → UInt64
  | nan => 0
  | infinity negative => if negative then 0 else UInt64.ofNat 0xffffffffffffffff
  | finite negative units _ =>
    if negative then 0 else UInt64.ofNat (min (units / one) 0xffffffffffffffff)

/-! ## 4. Interchange format -/

/-- The 64 bits of the interchange format, as a number; every NaN is written as the quiet one.
The step's exponent counts the powers of two that the significand is shifted by, and the
leading bit of a normal significand adds one to it. -/
def bits : Binary64 → Nat
  | nan => 0x7ff8 <<< 48
  | infinity negative => word negative (0x7ff <<< 52)
  | finite negative units _ =>
    word negative (stepExponent units <<< 52 + units >>> stepExponent units)
where
  /-- The sign in front of the other bits. -/
  word (negative : Bool) (magnitude : Nat) : Nat :=
    if negative then 1 <<< 63 + magnitude else magnitude

end Binary64
end Cooling
