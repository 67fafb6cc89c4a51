import TagWire.Proofs.Number.Marker
import TagWire.Tag

/-!
# Tags read back

A tag has a form exactly if its index is within the widest tier, since every
type code has room there.  The first byte of a form tells its tier, so the form
reads back whatever follows it.
-/

namespace TagWire

namespace Tag

/-- The bytes of the tag in a tier. -/
def encodeIn (tier : Tier) (tag : Tag) : List UInt8 :=
  BigEndian.encode tier.length
    (Marker.weight tier.length +
      (tag.typeCode.toNat * tier.indexCount + tag.index.toNat))

theorem length_encodeIn (tier : Tier) (tag : Tag) :
    (encodeIn tier tag).length = tier.length :=
  BigEndian.length_encode _ _

theorem Tier.fits_iff {tier : Tier} {tag : Tag} :
    tier.fits tag = true ↔
      tag.typeCode.toNat < tier.typeCount ∧
        tag.index.toNat < tier.indexCount := by
  simp only [Tier.fits, Bool.and_eq_true, decide_eq_true_eq]

theorem tier_ok {tag : Tag} {tier : Tier} (found : tag.tier = .ok tier) :
    tier ∈ tiers ∧ tier.fits tag = true := by
  unfold Tag.tier at found
  cases least : tiers.find? (·.fits tag) with
  | none =>
      rw [least] at found
      cases found
  | some candidate =>
      rw [least] at found
      cases found
      exact ⟨List.mem_of_find?_eq_some least, by
        simpa using List.find?_some least⟩

/-- The widest tier takes every type code. -/
theorem widest_fits {tag : Tag} (indexed : tag.index.toNat ≤ maxIndex) :
    Tier.fits ⟨4, 8, 20⟩ tag = true := by
  have code : tag.typeCode.toNat < Nat.pow 2 8 := tag.typeCode.toNat_lt
  have index : tag.index.toNat < Nat.pow 2 20 := by
    have positive : 0 < Nat.pow 2 20 := by decide
    simp only [maxIndex] at indexed
    omega
  simp only [Tier.fits, Tier.typeCount, Tier.indexCount, code, index,
    decide_true, Bool.and_self]

theorem tier_of_index_le {tag : Tag} (indexed : tag.index.toNat ≤ maxIndex) :
    ∃ tier, tag.tier = .ok tier := by
  unfold Tag.tier
  cases least : tiers.find? (·.fits tag) with
  | none =>
      have misses := List.find?_eq_none.mp least ⟨4, 8, 20⟩ (by decide)
      exact (misses (widest_fits indexed)).elim
  | some tier => exact ⟨tier, rfl⟩

theorem tier_error {tag : Tag} {error : WireError}
    (failed : tag.tier = .error error) :
    error = .indexOutOfRange tag.index ∧ maxIndex < tag.index.toNat := by
  have beyond : maxIndex < tag.index.toNat := by
    by_cases indexed : tag.index.toNat ≤ maxIndex
    · obtain ⟨tier, found⟩ := tier_of_index_le indexed
      rw [found] at failed
      cases failed
    · exact Nat.lt_of_not_le indexed
  unfold Tag.tier at failed
  cases least : tiers.find? (·.fits tag) with
  | none =>
      rw [least] at failed
      cases failed
      exact ⟨rfl, beyond⟩
  | some tier =>
      rw [least] at failed
      cases failed

theorem encode_of_tier {tag : Tag} {tier : Tier}
    (found : tag.tier = .ok tier) : tag.encode = .ok (encodeIn tier tag) := by
  rw [encode, found]
  rfl

theorem encode_ok {tag : Tag} {bytes : List UInt8}
    (encoded : tag.encode = .ok bytes) :
    ∃ tier, tag.tier = .ok tier ∧ bytes = encodeIn tier tag := by
  cases found : tag.tier with
  | error error =>
      rw [encode, found] at encoded
      cases encoded
  | ok tier =>
      rw [encode_of_tier found] at encoded
      cases encoded
      exact ⟨tier, rfl, rfl⟩

theorem encode_error {tag : Tag} {error : WireError}
    (failed : tag.encode = .error error) :
    error = .indexOutOfRange tag.index ∧ maxIndex < tag.index.toNat := by
  cases found : tag.tier with
  | ok tier =>
      rw [encode_of_tier found] at failed
      cases failed
  | error early =>
      rw [encode, found] at failed
      cases failed
      exact tier_error found

theorem encode_of_index_le {tag : Tag}
    (indexed : tag.index.toNat ≤ maxIndex) :
    ∃ bytes, tag.encode = .ok bytes := by
  obtain ⟨tier, found⟩ := tier_of_index_le indexed
  exact ⟨_, encode_of_tier found⟩

/-- What the bits of a tier give is what its groups hold. -/
theorem Tier.room_eq {tier : Tier} (member : tier ∈ tiers) :
    0 < tier.length ∧ tier.length ≤ maxLength ∧
      tier.typeCount * tier.indexCount = Marker.room tier.length ∧
        tiers[tier.length - 1]? = some tier := by
  have table : ∀ tier ∈ tiers,
      0 < tier.length ∧ tier.length ≤ maxLength ∧
        tier.typeCount * tier.indexCount = Marker.room tier.length ∧
          tiers[tier.length - 1]? = some tier := by
    decide
  exact table tier member

theorem Tier.payload_lt {tier : Tier} {tag : Tag}
    (fits : tier.fits tag = true) :
    tag.typeCode.toNat * tier.indexCount + tag.index.toNat <
      tier.typeCount * tier.indexCount := by
  obtain ⟨code, index⟩ := Tier.fits_iff.mp fits
  calc
    tag.typeCode.toNat * tier.indexCount + tag.index.toNat
        < tag.typeCode.toNat * tier.indexCount + tier.indexCount :=
      Nat.add_lt_add_left index _
    _ = (tag.typeCode.toNat + 1) * tier.indexCount :=
      (Nat.succ_mul _ _).symm
    _ ≤ tier.typeCount * tier.indexCount := Nat.mul_le_mul_right _ code

/-- The two parts of a payload come apart again. -/
theorem Tier.payload_split {tier : Tier} {tag : Tag}
    (fits : tier.fits tag = true) :
    (tag.typeCode.toNat * tier.indexCount + tag.index.toNat) /
        tier.indexCount = tag.typeCode.toNat ∧
      (tag.typeCode.toNat * tier.indexCount + tag.index.toNat) %
        tier.indexCount = tag.index.toNat := by
  have small := (Tier.fits_iff.mp fits).2
  have positive : 0 < tier.indexCount :=
    Nat.lt_of_le_of_lt (Nat.zero_le _) small
  constructor
  · rw [Nat.add_comm, Nat.add_mul_div_right _ _ positive,
      Nat.div_eq_of_lt small, Nat.zero_add]
  · rw [Nat.add_comm, Nat.add_mul_mod_self_right, Nat.mod_eq_of_lt small]

theorem length_encode_le {tag : Tag} {bytes : List UInt8}
    (encoded : tag.encode = .ok bytes) : bytes.length ≤ maxLength := by
  obtain ⟨tier, found, rfl⟩ := encode_ok encoded
  rw [length_encodeIn]
  exact (Tier.room_eq (tier_ok found).1).2.1

/-- The form in any tier with room for the tag reads back. -/
theorem decode_encodeIn_append {tag : Tag} {tier : Tier}
    (member : tier ∈ tiers) (fits : tier.fits tag = true)
    (trailing : List UInt8) :
    decode (encodeIn tier tag ++ trailing) = .ok (tag, tier.length) := by
  obtain ⟨positive, bounded, room, announced⟩ := Tier.room_eq member
  have short : tier.length ≤ 9 := Nat.le_trans bounded (by decide)
  have payload := Tier.payload_lt fits
  rw [room] at payload
  obtain ⟨first, rest, shape, marker⟩ :=
    Marker.encode_eq_cons positive short payload
  have sized : (first :: rest).length = tier.length := by
    rw [← shape, BigEndian.length_encode]
  have taken : (first :: rest ++ trailing).take tier.length =
      first :: rest := by
    rw [← sized, List.take_left]
  have spelled : BigEndian.decode (first :: rest) -
      Marker.weight tier.length =
        tag.typeCode.toNat * tier.indexCount + tag.index.toNat := by
    rw [← shape, BigEndian.decode_encode_of_lt
      (Marker.weight_add_lt positive short payload),
      Nat.add_sub_cancel_left]
  obtain ⟨code, index⟩ := Tier.payload_split fits
  rw [List.cons_append] at taken
  rw [encodeIn, shape, List.cons_append]
  simp only [decode, marker, announced, taken, sized, spelled, code,
    index, Nat.lt_irrefl, if_false, UInt8.ofNat_toNat,
    UInt32.ofNat_toNat]

theorem decode_encode_append {tag : Tag} {bytes : List UInt8}
    (encoded : tag.encode = .ok bytes) (trailing : List UInt8) :
    decode (bytes ++ trailing) = .ok (tag, bytes.length) := by
  obtain ⟨tier, found, rfl⟩ := encode_ok encoded
  obtain ⟨member, fits⟩ := tier_ok found
  rw [decode_encodeIn_append member fits, length_encodeIn]

end Tag

end TagWire
