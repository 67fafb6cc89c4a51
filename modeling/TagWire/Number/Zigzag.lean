/-!
# Folded signed numbers

Signed words are folded onto unsigned ones so that a small magnitude of either
sign becomes a small number: `0, -1, 1, -2, 2` become `0, 1, 2, 3, 4`.
-/

namespace TagWire

namespace Zigzag

/-- Moves the sign to the lowest bit, and flips the other bits of a negative
number. -/
def encode (value : Int64) : UInt64 :=
  ((value <<< 1) ^^^ (value >>> 63)).toUInt64

/-- Takes the sign from the lowest bit. -/
def decode (value : UInt64) : Int64 :=
  ((value >>> 1) ^^^ (0 - (value &&& 1))).toInt64

end Zigzag

end TagWire
