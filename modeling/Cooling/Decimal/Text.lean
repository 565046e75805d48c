import Cooling.Decimal.Basic

/-!
# Writing doubles

The text of a double is its shortest decimal, laid out plainly (`0.00125`) or with an
exponent (`1.25e-3`).  A `Layout` says which, and what becomes of ties and whole numbers.

`digitsOf` splits a decimal into the characters of its digits, without trailing zeros, and
the power of ten of the last one; `plain` and `scientific` set a point into them.
-/

namespace Cooling

namespace Decimal

/-! ## 1. Digits and the point -/

/-- The digits without trailing zeros, and the power of ten of the last digit kept. -/
def digitsOf (d : Decimal) : List Char × Int :=
  let all := Nat.toDigits 10 d.digits
  let kept := (all.reverse.dropWhile (· == '0')).reverse
  (kept, d.exponent + (all.length - kept.length : Nat))

/-- Digits whose last one has the power `exponent`, written without an exponent.  A whole
number ends in `.0` if `fraction` is set. -/
def plain (fraction : Bool) (digits : List Char) (exponent : Int) : List Char :=
  if 0 ≤ exponent then
    digits ++ List.replicate exponent.toNat '0' ++ (if fraction then ['.', '0'] else [])
  else
    let places := (-exponent).toNat
    if places < digits.length then
      digits.take (digits.length - places) ++ '.' :: digits.drop (digits.length - places)
    else '0' :: '.' :: List.replicate (places - digits.length) '0' ++ digits

/-- Digits whose first one has the power `leading`, written with an exponent that always has
a sign. -/
def scientific (digits : List Char) (leading : Int) : List Char :=
  digits.take 1 ++ (if digits.length ≤ 1 then [] else '.' :: digits.drop 1) ++
    'e' :: (if leading < 0 then '-' else '+') :: Nat.toDigits 10 leading.natAbs

end Decimal

/-! ## 2. Layouts -/

/-- How doubles are written: the tie between two shortest decimals, the powers of ten of the
first digit that are written plainly, and whether a whole number keeps a `.0`. -/
structure Layout where
  tie : Decimal.Tie
  isPlain : Int → Bool
  fraction : Bool

namespace Layout

/-- For reading by people: no exponent at any size, whole numbers without a point. -/
def display : Layout := ⟨.up, fun _ => true, false⟩

/-- For data: plain from `1e-5` to below `1e16`, and always a point or an exponent, so that
the text is not taken for a whole number. -/
def data : Layout := ⟨.toEven, fun leading => -5 ≤ leading && leading < 16, true⟩

end Layout

namespace Binary64

/-- The magnitude of a finite double. -/
def magnitudeText (layout : Layout) (units : Nat) : List Char :=
  if units = 0 then Decimal.plain layout.fraction ['0'] 0
  else
    let (digits, exponent) := (Decimal.shortest layout.tie units).digitsOf
    let leading := exponent + digits.length - 1
    if layout.isPlain leading then Decimal.plain layout.fraction digits exponent
    else Decimal.scientific digits leading

/-- The text of a double. -/
def text (layout : Layout) : Binary64 → List Char
  | nan => "NaN".toList
  | infinity negative => (if negative then ['-'] else []) ++ "inf".toList
  | finite negative units _ => (if negative then ['-'] else []) ++ magnitudeText layout units

end Binary64
end Cooling
