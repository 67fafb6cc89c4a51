import TagWire.Vector.Case

/-!
# Canonical cases

The cases that every implementation shares: the edges of every tier and a few
plain values.
-/

namespace TagWire

namespace Canonical

/-- The least and the greatest word of the tier of `length` bytes. -/
def tierEdges (length : Nat) : List (String × UInt64) :=
  [(s!"tier{length}_min", UInt64.ofNat (Varint.bound (length - 1))),
    (s!"tier{length}_max", UInt64.ofNat (Varint.bound length - 1))]

/-- Zero, one, the edges of the tiers below the last and the greatest word. -/
def words : List (String × UInt64) :=
  [("zero", 0), ("one", 1)] ++ (tierEdges 1).drop 1
    ++ (List.range' 2 7).flatMap tierEdges
    ++ [("u64_max", UInt64.ofNat (Word.limit - 1))]

def signedWords : List (String × Int64) :=
  [("zero", 0), ("one", 1), ("minus_one", -1),
    ("large_positive", 1234567890123456789),
    ("large_negative", -1234567890123456789),
    ("int64_max", Int64.maxValue),
    ("int64_min", Int64.minValue)]

def tags : List (String × Tag) :=
  [("tier1_zero", ⟨0x00, 0⟩), ("tier1_max", ⟨0x0F, 0x07⟩),
    ("tier2_min_type", ⟨0x10, 0⟩), ("tier2_max", ⟨0x3F, 0xFF⟩),
    ("tier3_min_type", ⟨0x40, 0x100⟩), ("tier3_max", ⟨0xFF, 0x1FFF⟩),
    ("tier4_min_index", ⟨0x01, 0x2000⟩), ("tier4_max", ⟨0xAA, 0xFFFFF⟩)]

def payloads : List (String × List UInt8) :=
  [("empty", []), ("small", [0x11, 0x22, 0x33]),
    ("medium", [
      0x00, 0x01, 0x7F, 0x80, 0xFF, 0x10, 0x20, 0x30,
      0x40, 0x50, 0x60, 0x70, 0x7A, 0x7B, 0x7C, 0x7D])]

def texts : List (String × String) :=
  [("empty", ""), ("hello_world", "hello world"),
    ("sentence", "dybuf fixture cross-language sample")]

/-- The canonical cases of a kind. -/
def cases : (kind : Kind) → Except WireError (List kind.Case)
  | .unsigned =>
    .ok (words.map fun (id, value) => NumberCase.ofUnsigned id value)
  | .signed =>
    .ok (signedWords.map fun (id, value) => NumberCase.ofSigned id value)
  | .tag => tags.mapM fun (id, tag) => TagCase.ofTag id tag
  | .bytes =>
    .ok (payloads.map fun (id, payload) => BytesCase.ofPayload id payload)
  | .text => .ok (texts.map fun (id, content) => TextCase.ofText id content)

end Canonical

end TagWire
