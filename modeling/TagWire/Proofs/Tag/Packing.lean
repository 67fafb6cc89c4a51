import TagWire.Proofs.Forms

/-!
# Tags as packed words

A tag can be seen as one word: the bits of the marker, then those of the type
code, then those of the index.  Packing shifts the parts into place, and
unpacking masks the marker off and shifts the parts back.  No bits meet, so this
comes to the sums and remainders by which tags are written and read.
-/

namespace TagWire

namespace Tag

/-- The marker, the type code and the index side by side. -/
def Tier.pack (tier : Tier) (tag : Tag) : UInt32 :=
  UInt32.ofNat (Marker.lead tier.length) <<<
      UInt32.ofNat (8 * (tier.length - 1)) |||
    tag.typeCode.toUInt32 <<< UInt32.ofNat tier.indexBits ||| tag.index

/-- Ones in the low bits of a word. -/
def lowMask (bits : Nat) : UInt32 :=
  (1 <<< UInt32.ofNat bits) - 1

/-- The type code and the index behind the marker. -/
def Tier.unpack (tier : Tier) (raw : UInt32) : Tag :=
  let word := raw &&& lowMask (7 * tier.length)
  { typeCode := (word >>> UInt32.ofNat tier.indexBits).toUInt8
    index := word &&& lowMask tier.indexBits }

/-- Writes a tag by packing it. -/
def encodePacked (tag : Tag) : Except WireError (List UInt8) :=
  tag.tier.map fun tier => BigEndian.encode tier.length (tier.pack tag).toNat

/-- Goes on behind the byte that announces the tier, and unpacks the tag. -/
def decodePackedIn (first : UInt8) : Option Tier → Decoder Tag
  | none => fun _ => .error (.malformedTag first)
  | some tier => fun bytes =>
      (Decoder.run tier.length bytes).map fun taken =>
        (tier.unpack (UInt32.ofNat (BigEndian.decode taken.1)), taken.2)

/-- Reads a tag by unpacking it. -/
def decodePacked : Decoder Tag := fun bytes =>
  Decoder.first bytes >>= fun first =>
    decodePackedIn first tiers[Marker.leadingOnes first]? bytes

theorem toNat_lowMask {bits : Nat} (narrow : bits < 32) (word : UInt32) :
    (word &&& lowMask bits).toNat = word.toNat % 2 ^ bits := by
  have table : ∀ bits < 32, (lowMask bits).toNat = 2 ^ bits - 1 := by decide
  rw [UInt32.toNat_and, table bits narrow, Nat.and_two_pow_sub_one_eq_mod]

/-- The two parts have the bits that the marker leaves, and the marker stands
above them. -/
theorem Tier.bits_eq {tier : Tier} (member : tier ∈ tiers) :
    tier.typeBits + tier.indexBits = 7 * tier.length ∧
      7 * tier.length < 32 ∧
      (UInt32.ofNat (Marker.lead tier.length) <<<
        UInt32.ofNat (8 * (tier.length - 1))).toNat =
          Marker.weight tier.length ∧
      2 ^ (7 * tier.length) ∣ Marker.weight tier.length := by
  have table : ∀ tier ∈ tiers,
      tier.typeBits + tier.indexBits = 7 * tier.length ∧
        7 * tier.length < 32 ∧
        (UInt32.ofNat (Marker.lead tier.length) <<<
          UInt32.ofNat (8 * (tier.length - 1))).toNat =
            Marker.weight tier.length ∧
        2 ^ (7 * tier.length) ∣ Marker.weight tier.length := by
    decide
  exact table tier member

/-- The payloads of a tier fill the bits behind the marker. -/
theorem Tier.count_eq {tier : Tier} (member : tier ∈ tiers) :
    tier.typeCount * tier.indexCount = 2 ^ (7 * tier.length) := by
  have divided := (Tier.bits_eq member).1
  rw [← divided, Nat.pow_add]
  rfl

/-- Numbers with no bits in common stand side by side. -/
theorem or_of_multiple {high low bits : Nat} (multiple : 2 ^ bits ∣ high)
    (small : low < 2 ^ bits) : high ||| low = high + low := by
  have whole : high = (high / 2 ^ bits) <<< bits := by
    rw [Nat.shiftLeft_eq, Nat.div_mul_cancel multiple]
  rw [whole, Nat.shiftLeft_add_eq_or_of_lt small]

theorem toNat_ofNat_mod {bits : Nat} (narrow : bits < 32) :
    (UInt32.ofNat bits).toNat % 32 = bits := by
  have counted : (UInt32.ofNat bits).toNat = bits :=
    UInt32.toNat_ofNat_of_lt' (Nat.lt_trans narrow (by decide))
  rw [counted, Nat.mod_eq_of_lt narrow]

theorem toNat_shiftLeft_of_lt {word : UInt32} {bits : Nat}
    (narrow : bits < 32) (fits : word.toNat * 2 ^ bits < 2 ^ 32) :
    (word <<< UInt32.ofNat bits).toNat = word.toNat * 2 ^ bits := by
  rw [UInt32.toNat_shiftLeft, toNat_ofNat_mod narrow, Nat.shiftLeft_eq,
    Nat.mod_eq_of_lt fits]

theorem Tier.toNat_pack {tier : Tier} {tag : Tag} (member : tier ∈ tiers)
    (fits : tier.fits tag = true) :
    (tier.pack tag).toNat = Marker.weight tier.length +
      (tag.typeCode.toNat * tier.indexCount + tag.index.toNat) := by
  obtain ⟨divided, narrow, marker, above⟩ := Tier.bits_eq member
  have payload := Tier.payload_lt fits
  rw [Tier.count_eq member] at payload
  have index : tag.index.toNat < 2 ^ tier.indexBits :=
    (Tier.fits_iff.mp fits).2
  have bounded : 2 ^ (7 * tier.length) < 2 ^ 32 :=
    Nat.pow_lt_pow_right (by decide) narrow
  have code : (tag.typeCode.toUInt32 <<<
      UInt32.ofNat tier.indexBits).toNat =
        tag.typeCode.toNat * tier.indexCount := by
    have extended : tag.typeCode.toUInt32.toNat = tag.typeCode.toNat :=
      UInt8.toNat_toUInt32 _
    rw [toNat_shiftLeft_of_lt (by omega), extended]
    · rfl
    · rw [extended]
      have within := Nat.lt_of_le_of_lt (Nat.le_add_right _ _) payload
      exact Nat.lt_trans within bounded
  have parts : tag.typeCode.toNat * tier.indexCount ||| tag.index.toNat =
      tag.typeCode.toNat * tier.indexCount + tag.index.toNat :=
    or_of_multiple (Nat.dvd_mul_left _ _) index
  rw [Tier.pack, UInt32.toNat_or, UInt32.toNat_or, marker, code,
    Nat.or_assoc, parts, or_of_multiple above payload]

theorem encodePacked_eq (tag : Tag) : encodePacked tag = encode tag := by
  unfold encodePacked encode
  cases found : tag.tier with
  | error error => rfl
  | ok tier =>
      obtain ⟨member, fits⟩ := tier_ok found
      simp only [Except.map, Tier.toNat_pack member fits]

/-- The marker of a group stands above the bits that the mask keeps. -/
theorem Tier.toNat_masked {tier : Tier} (member : tier ∈ tiers)
    {group : List UInt8} (sized : group.length = tier.length)
    (marked : Marker.weight tier.length ≤ BigEndian.decode group)
    (inRoom : BigEndian.decode group - Marker.weight tier.length <
      Marker.room tier.length) :
    (UInt32.ofNat (BigEndian.decode group) &&&
      lowMask (7 * tier.length)).toNat =
        BigEndian.decode group - Marker.weight tier.length := by
  obtain ⟨_, narrow, _, high, above⟩ := Tier.bits_eq member
  obtain ⟨_, short, room, _⟩ := Tier.room_eq member
  rw [← room, Tier.count_eq member] at inRoom
  have spelled := BigEndian.decode_lt group
  rw [sized] at spelled
  have raw : (UInt32.ofNat (BigEndian.decode group)).toNat =
      BigEndian.decode group := by
    apply UInt32.toNat_ofNat_of_lt'
    exact Nat.lt_of_lt_of_le spelled
      (Nat.pow_le_pow_right (by decide : 0 < 256) short)
  have split : BigEndian.decode group =
      BigEndian.decode group - Marker.weight tier.length +
        2 ^ (7 * tier.length) * high := by
    omega
  calc
    (UInt32.ofNat (BigEndian.decode group) &&&
      lowMask (7 * tier.length)).toNat
        = BigEndian.decode group % 2 ^ (7 * tier.length) := by
      rw [toNat_lowMask narrow, raw]
    _ = (BigEndian.decode group - Marker.weight tier.length +
          2 ^ (7 * tier.length) * high) % 2 ^ (7 * tier.length) :=
      congrArg (· % 2 ^ (7 * tier.length)) split
    _ = BigEndian.decode group - Marker.weight tier.length := by
      rw [Nat.add_mul_mod_self_left, Nat.mod_eq_of_lt inRoom]

theorem Tier.unpack_eq_spell {tier : Tier} (member : tier ∈ tiers)
    {group : List UInt8} (sized : group.length = tier.length)
    (marked : Marker.weight tier.length ≤ BigEndian.decode group)
    (inRoom : BigEndian.decode group - Marker.weight tier.length <
      Marker.room tier.length) :
    tier.unpack (UInt32.ofNat (BigEndian.decode group)) = spell tier group := by
  obtain ⟨divided, narrow, _⟩ := Tier.bits_eq member
  have narrowIndex : tier.indexBits < 32 := by omega
  have count : tier.indexCount = 2 ^ tier.indexBits := rfl
  have masked := Tier.toNat_masked member sized marked inRoom
  have code : ((UInt32.ofNat (BigEndian.decode group) &&&
      lowMask (7 * tier.length)) >>> UInt32.ofNat tier.indexBits).toUInt8 =
        (spell tier group).typeCode := by
    apply UInt8.toNat_inj.mp
    rw [UInt32.toNat_toUInt8, UInt32.toNat_shiftRight, masked,
      toNat_ofNat_mod narrowIndex, Nat.shiftRight_eq_div_pow, spell,
      UInt8.toNat_ofNat', count]
  have index : (UInt32.ofNat (BigEndian.decode group) &&&
      lowMask (7 * tier.length)) &&& lowMask tier.indexBits =
        (spell tier group).index := by
    have below := Nat.mod_lt
      (BigEndian.decode group - Marker.weight tier.length)
      (Nat.two_pow_pos tier.indexBits)
    have small := Nat.lt_trans below
      (Nat.pow_lt_pow_right (by decide) narrowIndex)
    apply UInt32.toNat_inj.mp
    rw [toNat_lowMask narrowIndex, masked, spell, count,
      UInt32.toNat_ofNat_of_lt' small]
  simp only [Tier.unpack, code, index]

theorem decodePacked_eq (bytes : List UInt8) :
    decodePacked bytes = decode bytes := by
  rw [decode_eq_steps]
  rcases Marker.cases_group bytes with
    rfl | ⟨first, rest, rfl, short⟩ |
      ⟨first, rest, trailing, rfl, complete⟩
  · rfl
  · simp only [decodePacked, Decoder.first, bind, Except.bind]
    cases announced : tiers[Marker.leadingOnes first]? with
    | none => rfl
    | some tier =>
        have sized := (Tier.length_of_announced announced).2
        have lacking : ((first :: rest).take tier.length).length <
            tier.length := by
          rw [List.length_take, List.length_cons]
          omega
        simp only [decodePackedIn, decodeIn, Decoder.run, lacking, if_true]
        rfl
  · simp only [decodePacked, Decoder.first, List.cons_append, bind,
      Except.bind]
    cases announced : tiers[Marker.leadingOnes first]? with
    | none => rfl
    | some tier =>
        obtain ⟨member, sized⟩ := Tier.length_of_announced announced
        have whole : (first :: rest).length = tier.length := by
          rw [List.length_cons, complete, sized]
        have group : (first :: (rest ++ trailing)).take tier.length =
            first :: rest := by
          rw [← List.cons_append, ← whole, List.take_left]
        obtain ⟨marked, fits⟩ := Marker.decode_group complete
        rw [← List.length_cons (a := first), whole] at marked fits
        simp only [decodePackedIn, decodeIn, Decoder.run, group, whole,
          Nat.lt_irrefl, if_false, Except.map,
          Tier.unpack_eq_spell member whole marked fits]

end Tag

end TagWire
