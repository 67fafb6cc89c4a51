import TagWire.Proofs.Tag.Packing

/-!
# A form in each tier with room

The tiers overlap, so a tag with small parts has a form in several of them.  It is
written in the least one, and read from any.  Bytes that read as a tag are
therefore its form in the tier that they announce, and are written back as they
were only if no shorter tier has room for the tag.
-/

namespace TagWire

namespace Tag

/-! ## Cells -/

theorem encodeCell_of_encode {tag : Tag} {form : List UInt8}
    (encoded : tag.encode = .ok form) :
    tag.encodeCell =
      .ok (form ++ List.replicate (maxLength - form.length) 0,
        form.length) := by
  rw [encodeCell, encoded]
  rfl

theorem encodeCell_error_iff {tag : Tag} {error : WireError} :
    tag.encodeCell = .error error ↔
      error = .indexOutOfRange tag.index ∧ maxIndex < tag.index.toNat := by
  constructor
  · intro failed
    cases encoded : tag.encode with
    | ok form =>
        rw [encodeCell_of_encode encoded] at failed
        cases failed
    | error early =>
        rw [encodeCell, encoded] at failed
        cases failed
        exact encode_error encoded
  · rintro ⟨rfl, beyond⟩
    cases encoded : tag.encode with
    | ok form =>
        have within := index_le_of_encode encoded
        omega
    | error early =>
        rw [encodeCell, encoded, (encode_error encoded).1]
        rfl

/-- The length of a tag is told without writing the tag, and refused as the tag
itself is. -/
theorem encodedLength_eq (tag : Tag) :
    tag.encodedLength = tag.encodeCell.map Prod.snd := by
  cases found : tag.tier with
  | error error =>
      simp only [encodedLength, encodeCell, encode, found, Except.map]
  | ok tier =>
      rw [encodeCell_of_encode (encode_of_tier found), encodedLength, found]
      simp only [Except.map, length_encodeIn]

/-! ## What is refused -/

/-- No tier has a marker with four ones. -/
def Unmarked (lead : UInt8) : Prop :=
  ∀ bit < 4, lead.toNat.testBit (7 - bit) = true

/-- The bytes end before the tag that they begin, which has the given length. -/
inductive Cut : List UInt8 → Nat → Prop where
  | before : Cut [] 1
  | inside {first : UInt8} {rest : List UInt8} {tier : Tier}
      (announced : tiers[Marker.leadingOnes first]? = some tier)
      (short : (first :: rest).length < tier.length) :
      Cut (first :: rest) tier.length

theorem decode_cons (first : UInt8) (rest : List UInt8) :
    decode (first :: rest) =
      decodeIn first tiers[Marker.leadingOnes first]? (first :: rest) := by
  rw [decode_eq_steps]
  rfl

theorem announced_eq_none_iff {first : UInt8} :
    tiers[Marker.leadingOnes first]? = none ↔ Unmarked first := by
  have four : tiers.length = 4 := rfl
  rw [List.getElem?_eq_none_iff, four]
  exact Marker.le_leadingOnes_iff (by decide) first

theorem decodeIn_some_error_iff {first : UInt8} {tier : Tier}
    {bytes : List UInt8} {error : WireError} :
    decodeIn first (some tier) bytes = .error error ↔
      bytes.length < tier.length ∧
        error = .unexpectedEnd tier.length bytes.length := by
  simp only [decodeIn, Decoder.run, List.length_take]
  by_cases short : bytes.length < tier.length
  · have cut : min tier.length bytes.length < tier.length := by omega
    simp only [cut, if_true, Except.map, Except.error.injEq, short, true_and]
    exact eq_comm
  · have whole : ¬min tier.length bytes.length < tier.length := by omega
    simp only [whole, if_false, Except.map, short, false_and, reduceCtorEq]

/-- Bytes are refused exactly if no tier has their marker, or if they end too
early. -/
theorem decode_error_iff {bytes : List UInt8} {error : WireError} :
    decode bytes = .error error ↔
      (∃ lead rest, bytes = lead :: rest ∧ Unmarked lead ∧
        error = .malformedTag lead) ∨
      ∃ needed, Cut bytes needed ∧
        error = .unexpectedEnd needed bytes.length := by
  constructor
  · intro failed
    cases bytes with
    | nil =>
        cases failed
        exact .inr ⟨1, .before, rfl⟩
    | cons first rest =>
        rw [decode_cons] at failed
        cases announced : tiers[Marker.leadingOnes first]? with
        | none =>
            rw [announced] at failed
            cases failed
            exact .inl ⟨first, rest, rfl, announced_eq_none_iff.mp announced,
              rfl⟩
        | some tier =>
            rw [announced] at failed
            obtain ⟨short, rfl⟩ := decodeIn_some_error_iff.mp failed
            exact .inr ⟨tier.length, .inside announced short, rfl⟩
  · rintro (⟨lead, rest, rfl, unmarked, rfl⟩ | ⟨needed, cut, rfl⟩)
    · rw [decode_cons, announced_eq_none_iff.mpr unmarked]
      rfl
    · cases cut with
      | before => rfl
      | inside announced short =>
          rw [decode_cons, announced]
          exact decodeIn_some_error_iff.mpr ⟨short, rfl⟩

/-! ## The least form -/

/-- A cell begins with the shortest of the forms that read as the tag, and is
zero behind it. -/
structure Holds (cell : List UInt8) (used : Nat) (tag : Tag) : Prop where
  length_eq : cell.length = maxLength
  used_le : used ≤ maxLength
  reads : ∀ trailing, decode (cell.take used ++ trailing) = .ok (tag, used)
  padding : ∀ byte ∈ cell.drop used, byte = 0
  least : ∀ bytes consumed, decode bytes = .ok (tag, consumed) →
    used ≤ consumed

theorem encode_least {tag : Tag} {form bytes : List UInt8} {consumed : Nat}
    (encoded : tag.encode = .ok form)
    (read : decode bytes = .ok (tag, consumed)) :
    form.length ≤ consumed := by
  obtain ⟨tier, member, rfl, fits, _⟩ := decode_ok read
  obtain ⟨group, again, shorter⟩ := encode_of_fits member fits
  rw [encoded] at again
  cases again
  exact shorter

theorem encodeCell_holds {tag : Tag} (indexed : tag.index.toNat ≤ maxIndex) :
    ∃ cell used, tag.encodeCell = .ok (cell, used) ∧ Holds cell used tag := by
  obtain ⟨form, encoded⟩ := encode_of_index_le indexed
  have short := length_encode_le encoded
  refine ⟨_, _, encodeCell_of_encode encoded, ?_⟩
  constructor
  · rw [List.length_append, List.length_replicate]
    exact Nat.add_sub_cancel' short
  · exact short
  · intro trailing
    rw [List.take_left]
    exact decode_encode_append encoded trailing
  · intro byte padding
    rw [List.drop_left] at padding
    exact List.eq_of_mem_replicate padding
  · intro bytes consumed read
    exact encode_least encoded read

/-- A tag is written, unless its index is beyond twenty bits, in the least tier
with room for it, and reads back whatever follows; and bytes are refused exactly
if they are marked for no tier or end too early.  So it is with the sums and
remainders, and so with the shifts and masks. -/
theorem forms_read_back_in_least_tier :
    (∀ tag : Tag, ∀ error, tag.encodeCell = .error error ↔
      error = .indexOutOfRange tag.index ∧ 1048575 < tag.index.toNat) ∧
    (∀ tag : Tag, tag.encodedLength = tag.encodeCell.map Prod.snd) ∧
    (∀ tag : Tag, tag.index.toNat ≤ 1048575 →
      ∃ cell used, tag.encodeCell = .ok (cell, used) ∧
        Holds cell used tag) ∧
    (∀ bytes error, decode bytes = .error error ↔
      (∃ lead rest, bytes = lead :: rest ∧ Unmarked lead ∧
        error = .malformedTag lead) ∨
      ∃ needed, Cut bytes needed ∧
        error = .unexpectedEnd needed bytes.length) ∧
    (∀ tag, encodePacked tag = encode tag) ∧
    ∀ bytes, decodePacked bytes = decode bytes := by
  refine ⟨?_, encodedLength_eq, ?_, ?_, encodePacked_eq, decodePacked_eq⟩
  · intro tag error
    exact encodeCell_error_iff
  · intro tag indexed
    exact encodeCell_holds indexed
  · intro bytes error
    exact decode_error_iff

/-! ## Forms that are not the least -/

theorem Tier.eq_of_length_eq {tier other : Tier} (member : tier ∈ tiers)
    (among : other ∈ tiers) (same : tier.length = other.length) :
    tier = other := by
  obtain ⟨_, _, _, place⟩ := Tier.room_eq member
  obtain ⟨_, _, _, otherPlace⟩ := Tier.room_eq among
  rw [same, otherPlace] at place
  exact (Option.some.inj place).symm

theorem decode_ok_iff {bytes : List UInt8} {tag : Tag} {length : Nat} :
    decode bytes = .ok (tag, length) ↔
      ∃ tier ∈ tiers, tier.length = length ∧ tier.fits tag = true ∧
        bytes.take length = encodeIn tier tag := by
  constructor
  · exact decode_ok
  · rintro ⟨tier, member, rfl, fits, form⟩
    have reads := decode_encodeIn_append member fits
      (bytes.drop tier.length)
    rwa [← form, List.take_append_drop] at reads

/-- The least tier with room for a tag is no longer than any other. -/
theorem tier_least {tag : Tag} {least tier : Tier}
    (found : tag.tier = .ok least) (member : tier ∈ tiers)
    (fits : tier.fits tag = true) : least.length ≤ tier.length := by
  obtain ⟨again, same, shorter⟩ := tier_of_fits member fits
  rw [found] at same
  cases same
  exact shorter

/-- Bytes read as a tag exactly if they begin with its form in some tier, which
is the one that they announce.  They are what the tag is written as exactly if no
shorter tier has room for it. -/
theorem read_back_exactly_if_tier_least (bytes : List UInt8) (tag : Tag)
    (length : Nat) :
    (decode bytes = .ok (tag, length) ↔
      ∃ tier ∈ tiers, tier.length = length ∧ tier.fits tag = true ∧
        bytes.take length = encodeIn tier tag) ∧
    (decode bytes = .ok (tag, length) →
      ∃ cell used, tag.encodeCell = .ok (cell, used) ∧ used ≤ length ∧
        (cell.take used = bytes.take length ↔
          ∀ tier ∈ tiers, tier.fits tag = true →
            length ≤ tier.length)) := by
  refine ⟨decode_ok_iff, ?_⟩
  intro read
  obtain ⟨tier, member, rfl, fits, form⟩ := decode_ok read
  obtain ⟨least, found, shorter⟩ := tier_of_fits member fits
  obtain ⟨leastMember, leastFits⟩ := tier_ok found
  refine ⟨_, _, encodeCell_of_encode (encode_of_tier found), ?_, ?_⟩
  · rwa [length_encodeIn]
  · rw [List.take_left, form]
    constructor
    · intro same other among room
      have sized := congrArg List.length same
      rw [length_encodeIn, length_encodeIn] at sized
      rw [← sized]
      exact tier_least found among room
    · intro announcedLeast
      have longer := announcedLeast least leastMember leastFits
      have same : least = tier := by
        apply Tier.eq_of_length_eq leastMember member
        exact Nat.le_antisymm shorter longer
      rw [same]

/-- Type one at index zero has a form in the second tier, and is written in the
first. -/
theorem tag_in_second_tier_not_read_back :
    decode [0x81, 0x00] = .ok (⟨1, 0⟩, 2) ∧
      encodeCell ⟨1, 0⟩ = .ok ([0x08, 0, 0, 0], 1) ∧
      ¬∀ bytes tag length, decode bytes = .ok (tag, length) →
        ∃ cell used, tag.encodeCell = .ok (cell, used) ∧
          cell.take used = bytes.take length := by
  have read : decode [0x81, 0x00] = .ok (⟨1, 0⟩, 2) := rfl
  have written : encodeCell ⟨1, 0⟩ = .ok ([0x08, 0, 0, 0], 1) := rfl
  refine ⟨read, written, ?_⟩
  intro canonical
  obtain ⟨cell, used, encoded, same⟩ := canonical _ _ _ read
  rw [written] at encoded
  cases encoded
  cases same

end Tag

end TagWire
