/-!
# Big-endian numbers

A number of a given width is written with its most significant byte first.
Whatever does not fit into the width is dropped.
-/

namespace TagWire

namespace BigEndian

/-- The low `width` bytes of a number. -/
def encode : (width value : Nat) → List UInt8
  | 0, _ => []
  | width + 1, value =>
    UInt8.ofNat (value / Nat.pow 256 width) :: encode width value

/-- The number that the bytes spell. -/
def decode (bytes : List UInt8) : Nat :=
  bytes.foldl (fun value byte => value * 256 + byte.toNat) 0

end BigEndian

end TagWire
