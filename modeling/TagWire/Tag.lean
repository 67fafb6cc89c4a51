import TagWire.Error
import TagWire.Number.BigEndian
import TagWire.Number.Marker

/-!
# Tags

A tag names a field: a type code and an index.  It takes one to four bytes, of
which each gives seven bits; the tiers divide these bits between the code and
the index, and a tag is written in the least tier that has room for both.
-/

namespace TagWire

/-- The type code and the index of a field. -/
structure Tag where
  typeCode : UInt8
  index : UInt32
  deriving DecidableEq, Repr

namespace Tag

/-- How tags of one length divide their bits. -/
structure Tier where
  length : Nat
  typeBits : Nat
  indexBits : Nat
  deriving DecidableEq, Repr

def Tier.typeCount (tier : Tier) : Nat := Nat.pow 2 tier.typeBits

def Tier.indexCount (tier : Tier) : Nat := Nat.pow 2 tier.indexBits

/-- The tiers, shortest first. -/
def tiers : List Tier :=
  [⟨1, 4, 3⟩, ⟨2, 6, 8⟩, ⟨3, 8, 13⟩, ⟨4, 8, 20⟩]

/-- The largest index that a tag can carry. -/
def maxIndex : Nat := Nat.pow 2 20 - 1

/-- The length of the longest tag. -/
def maxLength : Nat := 4

/-- Whether the tier has the bits for a tag. -/
def Tier.fits (tier : Tier) (tag : Tag) : Bool :=
  tag.typeCode.toNat < tier.typeCount && tag.index.toNat < tier.indexCount

/-- The least tier with room for the tag. -/
def tier (tag : Tag) : Except WireError Tier :=
  match tiers.find? (·.fits tag) with
  | some tier => .ok tier
  | none => .error (.indexOutOfRange tag.index)

/-- The number of bytes the tag takes. -/
def encodedLength (tag : Tag) : Except WireError Nat :=
  tag.tier.map Tier.length

/-- The bytes of the tag. -/
def encode (tag : Tag) : Except WireError (List UInt8) :=
  tag.tier.map fun tier =>
    BigEndian.encode tier.length
      (Marker.weight tier.length +
        (tag.typeCode.toNat * tier.indexCount + tag.index.toNat))

/-- The bytes of the tag in a cell as wide as the longest tag, zero behind the
tag, and the number of bytes in use. -/
def encodeCell (tag : Tag) : Except WireError (List UInt8 × Nat) :=
  tag.encode.map fun bytes =>
    (bytes ++ List.replicate (maxLength - bytes.length) 0, bytes.length)

/-- Reads the tag at the start of the bytes, and says how long it is. -/
def decode (bytes : List UInt8) : Except WireError (Tag × Nat) :=
  match bytes with
  | [] => .error (.unexpectedEnd 1 0)
  | first :: _ =>
    match tiers[Marker.leadingOnes first]? with
    | none => .error (.malformedTag first)
    | some tier =>
      let group := bytes.take tier.length
      if group.length < tier.length then
        .error (.unexpectedEnd tier.length bytes.length)
      else
        let word := BigEndian.decode group - Marker.weight tier.length
        .ok ({
          typeCode := UInt8.ofNat (word / tier.indexCount)
          index := UInt32.ofNat (word % tier.indexCount)
        }, tier.length)

end Tag

end TagWire
