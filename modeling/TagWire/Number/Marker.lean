/-!
# Unary markers

The first byte of a group announces how long the group is: one set bit for
each further byte, and then a clear bit unless the byte is used up.
-/

namespace TagWire

namespace Marker

/-- The number of set bits before the first clear one. -/
def leadingOnes (byte : UInt8) : Nat :=
  ((List.range 8).takeWhile fun bit => byte.toNat.testBit (7 - bit)).length

/-- The least first byte of a group of the given length, from one to nine. -/
def lead (length : Nat) : Nat :=
  256 - Nat.pow 2 (9 - length)

/-- The number that a group of the given length spells besides its marker. -/
def weight (length : Nat) : Nat :=
  lead length * Nat.pow 256 (length - 1)

end Marker

end TagWire
