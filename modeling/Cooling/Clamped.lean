/-!
# Arithmetic that stops at the ends of a word

Differences and products of words that stay at the least or the largest word instead of
wrapping around.
-/

namespace Cooling.Clamped

/-- The signed word nearest a whole number. -/
def ofInt (n : Int) : Int64 := Int64.ofInt (max (-0x8000000000000000) (min n 0x7fffffffffffffff))

/-- The unsigned word nearest a whole number. -/
def ofNat (n : Nat) : UInt64 := UInt64.ofNat (min n 0xffffffffffffffff)

/-- The difference, or the end of the word on its side. -/
def sub (a b : Int64) : Int64 := ofInt (a.toInt - b.toInt)

/-- The product, or the largest word. -/
def mul (a b : UInt64) : UInt64 := ofNat (a.toNat * b.toNat)

theorem toInt_ofInt (n : Int) : (ofInt n).toInt = max (-0x8000000000000000) (min n 0x7fffffffffffffff) := by
  rw [ofInt, Int64.toInt_ofInt_of_le (by omega) (by omega)]

theorem toNat_ofNat (n : Nat) : (ofNat n).toNat = min n 0xffffffffffffffff := by
  rw [ofNat, UInt64.toNat_ofNat', Nat.mod_eq_of_lt (by omega)]

theorem toInt_sub (a b : Int64) :
    (sub a b).toInt = max (-0x8000000000000000) (min (a.toInt - b.toInt) 0x7fffffffffffffff) := toInt_ofInt _

end Cooling.Clamped
