import Cooling.Binary64.Basic

/-!
# Decimals and doubles

A decimal is a whole number of digits with a power of ten.  `toBinary64` reads one as the
nearest double.  `shortest` goes the other way: it finds, for a finite double, a decimal of
as few digits as can be that reads back as that double, and of those the nearest.

A double is a whole number over `2 ^ 1074`, hence a whole number over `10 ^ 1074` too
(`exact`).  A decimal of fewer digits lies on a coarser decimal grid; the two points of it
next to the exact value are tried, nearest first, from the coarsest grid on.  The finest
grid holds the exact value itself, so some point always reads back.
-/

namespace Cooling

/-- The number `digits * 10 ^ exponent`. -/
structure Decimal where
  digits : Nat
  exponent : Int
deriving DecidableEq, Repr

namespace Decimal

open Binary64 (one unitExponent)

/-! ## 1. Reading -/

/-- The double nearest a decimal of the given sign.  The two early answers keep the powers
small: from `10 ^ 309` on nothing is finite, and a decimal below half a unit is zero, which
is certain once `digits < 2 ^ (log2 digits + 1)` is outweighed by `8 ^ (-exponent)`. -/
def toBinary64 (negative : Bool) (d : Decimal) : Binary64 :=
  if d.digits = 0 then .zero negative
  else if 309 ≤ d.exponent then .infinity negative
  else if (d.digits.log2 + 1077 : Int) ≤ 3 * -d.exponent then .zero negative
  else match d.exponent with
    | .ofNat e => .round negative (d.digits * Nat.pow 10 e * one) 1
    | .negSucc e => .round negative (d.digits * one) (Nat.pow 10 (e + 1))

/-! ## 2. The shortest decimal -/

/-- Where to go from exactly between two points of a grid. -/
inductive Tie where
  | up
  | toEven
deriving DecidableEq, Repr

/-- A number of units as a decimal, every digit kept. -/
def exact (units : Nat) : Decimal := ⟨units * Nat.pow 5 unitExponent, -unitExponent⟩

/-- The two points next to `d` on the grid that drops its last `places` digits, the nearer
one first. -/
def neighbours (tie : Tie) (d : Decimal) (places : Nat) : List Decimal :=
  let cell := Nat.pow 10 places
  let floor : Decimal := ⟨d.digits / cell, d.exponent + places⟩
  let next : Decimal := ⟨d.digits / cell + 1, d.exponent + places⟩
  let rest := d.digits % cell
  if 2 * rest < cell then [floor, next]
  else if cell < 2 * rest then [next, floor]
  else match tie with
    | .up => [next, floor]
    | .toEven => if floor.digits % 2 = 0 then [floor, next] else [next, floor]

/-- A decimal of the fewest digits that reads back as the double of the given units; of two
with that many digits the nearer, and in a tie the one that `tie` says. -/
def shortest (tie : Tie) (units : Nat) : Decimal :=
  let whole := exact units
  let target := whole.toBinary64 false
  let places := (Nat.toDigits 10 whole.digits).length
  ((List.range places).reverse.findSome? fun dropped =>
    (neighbours tie whole dropped).find? fun d => d.toBinary64 false = target).getD whole

/-- What is found reads back as the exact decimal does. -/
theorem toBinary64_shortest (tie : Tie) (units : Nat) :
    (shortest tie units).toBinary64 false = (exact units).toBinary64 false := by
  unfold shortest
  dsimp only
  generalize hfound : List.findSome? _ _ = found
  cases found with
  | none => rfl
  | some d =>
    obtain ⟨_, _, hd⟩ := List.exists_of_findSome?_eq_some hfound
    simpa using List.find?_some hd

end Decimal
end Cooling
