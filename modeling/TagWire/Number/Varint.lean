import TagWire.Error
import TagWire.Number.BigEndian
import TagWire.Number.Marker
import TagWire.Number.Word

/-!
# Numbers of variable length

A word takes one to nine bytes.  The marker in the first byte announces the
length, and the bits behind it count from the first word that no shorter group
can hold.  The tiers are therefore disjoint, and a word has one form only.
The group of nine bytes has its whole first byte for a marker and a full word
behind it, so a group of nine can spell more than a word holds.
-/

namespace TagWire

namespace Varint

/-- The length of the longest group. -/
def maxLength : Nat := 9

/-- The least number whose group has more than `length` bytes, for lengths
below nine: a group of `length` bytes has seven bits for each of them. -/
def bound : (length : Nat) → Nat
  | 0 => 0
  | length + 1 => bound length + Nat.pow 128 (length + 1)

def length (value : UInt64) : Nat :=
  ((List.range' 1 8).find? fun length => value.toNat < bound length).getD
    maxLength

/-- The group of a word. -/
def encode (value : UInt64) : List UInt8 :=
  let length := length value
  BigEndian.encode length
    (Marker.weight length + (value.toNat - bound (length - 1)))

/-- Reads the group at the start of the bytes, and says how long it is. -/
def decode (bytes : List UInt8) : Except WireError (UInt64 × Nat) :=
  match bytes with
  | [] => .error (.unexpectedEnd 1 0)
  | first :: _ =>
    let length := Marker.leadingOnes first + 1
    let group := bytes.take length
    if group.length < length then
      .error (.unexpectedEnd length bytes.length)
    else
      let payload := BigEndian.decode group - Marker.weight length
      let value := bound (length - 1) + payload
      if value < Word.limit then .ok (UInt64.ofNat value, length)
      else .error .varintOverflow

end Varint

end TagWire
