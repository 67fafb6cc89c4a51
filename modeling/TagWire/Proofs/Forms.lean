import TagWire.Proofs.Decoders
import TagWire.Proofs.Field

/-!
# What reads as a value is a form of it

Numbers and payloads have one form each: the bytes that a decoder takes are the
bytes that the answer is written as.  A record leaves three things open.  Its tag
may stand in any tier with room for it, the index of a field that stands for the
packet as a whole is read though none is written, and every byte but zero reads
as true.  A record that is written again is therefore never longer than it was.
-/

namespace TagWire

namespace Tag

theorem Tier.fits_of_index_le {tier : Tier} {tag other : Tag}
    (fits : tier.fits tag = true) (sameCode : other.typeCode = tag.typeCode)
    (smaller : other.index.toNat ≤ tag.index.toNat) :
    tier.fits other = true := by
  obtain ⟨code, index⟩ := Tier.fits_iff.mp fits
  rw [Tier.fits_iff, sameCode]
  exact ⟨code, Nat.lt_of_le_of_lt smaller index⟩

theorem index_le_of_fits {tag : Tag} {tier : Tier} (member : tier ∈ tiers)
    (fits : tier.fits tag = true) : tag.index.toNat ≤ maxIndex := by
  have table : ∀ tier ∈ tiers, tier.indexCount ≤ maxIndex + 1 := by decide
  have count := table tier member
  have index := (Tier.fits_iff.mp fits).2
  omega

theorem index_le_of_encode {tag : Tag} {bytes : List UInt8}
    (encoded : tag.encode = .ok bytes) : tag.index.toNat ≤ maxIndex := by
  obtain ⟨tier, found, _⟩ := encode_ok encoded
  obtain ⟨member, fits⟩ := tier_ok found
  exact index_le_of_fits member fits

theorem tier_of_fits {tag : Tag} {tier : Tier} (member : tier ∈ tiers)
    (fits : tier.fits tag = true) :
    ∃ least, tag.tier = .ok least ∧ least.length ≤ tier.length := by
  unfold Tag.tier
  cases found : tiers.find? (·.fits tag) with
  | none =>
      have misses := List.find?_eq_none.mp found tier member
      exact (misses fits).elim
  | some least =>
      refine ⟨least, rfl, ?_⟩
      obtain ⟨_, before, behind, split, missing⟩ :=
        List.find?_eq_some_iff_append.mp found
      have ordered : tiers.Pairwise fun shorter longer =>
          shorter.length ≤ longer.length := by decide
      rw [split] at member ordered
      rcases List.mem_append.mp member with early | late
      · have misses := missing tier early
        simp [fits] at misses
      · rcases List.mem_cons.mp late with rfl | later
        · exact Nat.le_refl _
        · have fromLeast := (List.pairwise_append.mp ordered).2.1
          exact (List.pairwise_cons.mp fromLeast).1 tier later

/-- No tier with room for a tag has a shorter form of it. -/
theorem encode_of_fits {tag : Tag} {tier : Tier} (member : tier ∈ tiers)
    (fits : tier.fits tag = true) :
    ∃ group, tag.encode = .ok group ∧ group.length ≤ tier.length := by
  obtain ⟨least, found, shorter⟩ := tier_of_fits member fits
  refine ⟨encodeIn least tag, encode_of_tier found, ?_⟩
  rwa [length_encodeIn]

theorem Tier.length_of_announced {first : UInt8} {tier : Tier}
    (announced : tiers[Marker.leadingOnes first]? = some tier) :
    tier ∈ tiers ∧ tier.length = Marker.leadingOnes first + 1 := by
  have member := List.mem_of_getElem? announced
  obtain ⟨positive, _, _, place⟩ := Tier.room_eq member
  have distinct : tiers.Nodup := by decide
  obtain ⟨early, _⟩ := List.getElem?_eq_some_iff.mp announced
  have same := (List.getElem?_inj early distinct).mp
    (announced.trans place.symm)
  exact ⟨member, by omega⟩

/-- A group with the marker of a tier is the form of what it spells. -/
theorem Tier.encodeIn_spell {tier : Tier} (member : tier ∈ tiers)
    {group : List UInt8} (sized : group.length = tier.length)
    (marked : Marker.weight tier.length ≤ BigEndian.decode group)
    (inRoom : BigEndian.decode group - Marker.weight tier.length <
      Marker.room tier.length) :
    tier.fits (spell tier group) = true ∧
      encodeIn tier (spell tier group) = group := by
  have table : ∀ tier ∈ tiers, 0 < tier.indexCount ∧
      tier.typeCount ≤ 256 ∧ tier.indexCount ≤ 2 ^ 20 := by decide
  obtain ⟨positive, codes, indices⟩ := table tier member
  obtain ⟨_, _, room, _⟩ := Tier.room_eq member
  rw [← room] at inRoom
  have restored := BigEndian.encode_decode group
  generalize wordEq : BigEndian.decode group = word at marked inRoom restored
  have code : (word - Marker.weight tier.length) / tier.indexCount <
      tier.typeCount := by
    rwa [Nat.div_lt_iff_lt_mul positive]
  have index : (word - Marker.weight tier.length) % tier.indexCount <
      tier.indexCount := Nat.mod_lt _ positive
  have codeSpelled : (spell tier group).typeCode.toNat =
      (word - Marker.weight tier.length) / tier.indexCount := by
    simp only [spell, wordEq]
    exact UInt8.toNat_ofNat_of_lt' (Nat.lt_of_lt_of_le code codes)
  have indexSpelled : (spell tier group).index.toNat =
      (word - Marker.weight tier.length) % tier.indexCount := by
    simp only [spell, wordEq]
    apply UInt32.toNat_ofNat_of_lt'
    exact Nat.lt_of_lt_of_le index (Nat.le_trans indices (by decide))
  constructor
  · rw [Tier.fits_iff, codeSpelled, indexSpelled]
    exact ⟨code, index⟩
  · rw [encodeIn, codeSpelled, indexSpelled, Nat.mul_comm,
      Nat.div_add_mod, Nat.add_sub_cancel' marked, ← sized]
    exact restored

theorem decode_ok {bytes : List UInt8} {tag : Tag} {length : Nat}
    (read : decode bytes = .ok (tag, length)) :
    ∃ tier ∈ tiers, tier.length = length ∧ tier.fits tag = true ∧
      bytes.take length = encodeIn tier tag := by
  cases bytes with
  | nil => cases read
  | cons first rest =>
      cases announced : tiers[Marker.leadingOnes first]? with
      | none =>
          simp only [decode, announced] at read
          cases read
      | some tier =>
          obtain ⟨member, sized⟩ := Tier.length_of_announced announced
          simp only [decode, announced] at read
          split at read
          · cases read
          · rename_i present
            cases read
            refine ⟨tier, member, rfl, ?_⟩
            have group : (first :: rest).take tier.length =
                first :: rest.take (Marker.leadingOnes first) := by
              rw [sized, List.take_succ_cons]
            rw [group] at present ⊢
            have complete : (rest.take (Marker.leadingOnes first)).length =
                Marker.leadingOnes first := by
              rw [List.length_cons] at present
              have most :=
                List.length_take_le (Marker.leadingOnes first) rest
              omega
            obtain ⟨marked, fits⟩ := Marker.decode_group complete
            rw [complete, ← sized] at marked fits
            have whole : (first :: rest.take (Marker.leadingOnes first)).length =
                tier.length := by
              rw [List.length_cons, complete, sized]
            obtain ⟨inTier, form⟩ :=
              Tier.encodeIn_spell member whole marked fits
            exact ⟨inTier, form.symm⟩

end Tag

namespace Payload

theorem Span.within_ok {start length : Nat} {bytes : List UInt8} {span : Span}
    (found : within start length bytes = .ok span) :
    (span.of bytes).length = length ∧
      bytes.take span.stop = bytes.take start ++ span.of bytes := by
  simp only [within] at found
  split at found
  · cases found
  · rename_i present
    cases found
    constructor
    · rw [List.length_take] at present
      simp only [of, List.length_take, List.length_drop]
      omega
    · rw [of, Nat.add_sub_cancel_left]
      exact List.take_add

theorem locate_ok {bytes : List UInt8} {span : Span}
    (located : locate bytes = .ok span) :
    bytes.take span.stop = frame (span.of bytes) := by
  simp only [locate, bind_ok_iff] at located
  obtain ⟨⟨length, start⟩, read, located⟩ := located
  simp only at located
  split at located
  · cases located
  · obtain ⟨size, cut⟩ := Span.within_ok located
    rw [frame, size, UInt64.ofNat_toNat, ← Varint.take_of_decode read]
    exact cut

theorem locateFixed_ok {width : Nat} {bytes : List UInt8} {span : Span}
    (located : locateFixed width bytes = .ok span) :
    frameFixed width (span.of bytes) = .ok (bytes.take span.stop) := by
  rw [locateFixed_eq_steps] at located
  simp only [bind_ok_iff] at located
  obtain ⟨⟨group, start⟩, taken, located⟩ := located
  obtain ⟨rfl, rfl, sized⟩ := Decoder.run_ok taken
  obtain ⟨size, cut⟩ := Span.within_ok located
  have counted := BigEndian.decode_lt (bytes.take start)
  have spelled := BigEndian.encode_decode (bytes.take start)
  rw [sized] at counted spelled
  have short : ¬fixedLimit start < BigEndian.decode (bytes.take start) := by
    rw [fixedLimit]
    omega
  rw [frameFixed, size, if_neg short, spelled, cut]

theorem openText_ok {payload : List UInt8} {text : String}
    (accepted : openText payload = .ok text) :
    Utf8.encode text = payload := by
  unfold openText at accepted
  cases decoded : Utf8.decode payload with
  | error fault =>
      rw [decoded] at accepted
      cases accepted
  | ok content =>
      rw [decoded] at accepted
      cases accepted
      exact Utf8.encode_of_decode decoded

theorem closedText_ok {payload : List UInt8} {text : String}
    (accepted : closedText payload = .ok text) :
    ofClosedText text = payload := by
  unfold closedText at accepted
  split at accepted
  · rename_i closed
    obtain ⟨front, rfl⟩ := List.getLast?_eq_some_iff.mp closed
    rw [List.dropLast_concat] at accepted
    rw [ofClosedText, openText_ok accepted]
  · cases accepted

end Payload

namespace Codec

/-- Whatever the codec reads is the form of the answer. -/
def Canonical {α : Type} (codec : Codec α) : Prop :=
  ∀ {bytes value length}, codec.decode bytes = .ok (value, length) →
    codec.encode value = .ok (bytes.take length)

theorem word_ok {α : Type} {width : Nat} {toNat : α → Nat} {ofNat : Nat → α}
    {bytes : List UInt8} {value : α} {length : Nat}
    (read : (word width toNat ofNat).decode bytes = .ok (value, length)) :
    length = width ∧ (bytes.take width).length = width ∧
      value = ofNat (BigEndian.decode (bytes.take width)) := by
  simp only [word, bind_ok_iff] at read
  obtain ⟨⟨group, _⟩, taken, same⟩ := read
  cases same
  obtain ⟨rfl, rfl, sized⟩ := Decoder.run_ok taken
  exact ⟨rfl, sized, rfl⟩

theorem word_canonical {α : Type} {width : Nat} {toNat : α → Nat}
    {ofNat : Nat → α}
    (restored : ∀ number < Nat.pow 256 width, toNat (ofNat number) = number) :
    Canonical (word width toNat ofNat) := by
  intro bytes value length read
  obtain ⟨rfl, sized, rfl⟩ := word_ok read
  have spelled := BigEndian.decode_lt (bytes.take length)
  have written := BigEndian.encode_decode (bytes.take length)
  rw [sized] at spelled written
  simp only [word, restored _ spelled, written]

theorem uint8_canonical : Canonical uint8 := by
  apply word_canonical
  intro number small
  exact UInt8.toNat_ofNat_of_lt' small

theorem uint16_canonical : Canonical uint16 := by
  apply word_canonical
  intro number small
  exact UInt16.toNat_ofNat_of_lt' small

theorem uint24_canonical : Canonical uint24 := by
  apply word_canonical
  intro number small
  apply UInt32.toNat_ofNat_of_lt'
  exact Nat.lt_trans small (by decide)

theorem int8_canonical : Canonical int8 := by
  apply word_canonical
  intro number small
  exact UInt8.toNat_ofNat_of_lt' small

theorem int16_canonical : Canonical int16 := by
  apply word_canonical
  intro number small
  exact UInt16.toNat_ofNat_of_lt' small

theorem int32_canonical : Canonical int32 := by
  apply word_canonical
  intro number small
  exact UInt32.toNat_ofNat_of_lt' small

theorem int64_canonical : Canonical int64 := by
  apply word_canonical
  intro number small
  exact UInt64.toNat_ofNat_of_lt' small

theorem binary32_canonical : Canonical binary32 := by
  apply word_canonical
  intro number small
  exact UInt32.toNat_ofNat_of_lt' small

theorem binary64_canonical : Canonical binary64 := by
  apply word_canonical
  intro number small
  exact UInt64.toNat_ofNat_of_lt' small

/-- Truth values are the one fixed width with more forms than one. -/
theorem bool_ok {bytes : List UInt8} {truth : Bool} {length : Nat}
    (read : bool.decode bytes = .ok (truth, length)) :
    ∃ byte, bytes.take length = [byte] ∧ truth = (byte != 0) := by
  obtain ⟨rfl, sized, rfl⟩ := word_ok read
  obtain ⟨byte, single⟩ := List.length_eq_one_iff.mp sized
  refine ⟨byte, single, ?_⟩
  rw [single, BigEndian.decode_cons]
  by_cases zero : byte = 0
  · subst zero
    rfl
  · have positive : byte.toNat ≠ 0 := fun same =>
      zero (UInt8.toNat_inj.mp same)
    rw [bne_iff_ne.mpr zero]
    simpa using positive

theorem varint_canonical : Canonical varint := by
  intro bytes number length read
  simp only [varint, Varint.take_of_decode read]

theorem signedVarint_canonical : Canonical signedVarint := by
  intro bytes number length read
  simp only [signedVarint, bind_ok_iff] at read
  obtain ⟨⟨folded, _⟩, unfolded, same⟩ := read
  cases same
  simp only [signedVarint, Zigzag.encode_decode,
    Varint.take_of_decode unfolded]

/-- A payload behind its length has one form if what its reader answers has one
payload. -/
theorem frame_canonical {α : Type} {payloadOf : α → List UInt8}
    {judge : List UInt8 → Except WireError α}
    (restored : ∀ {payload content}, judge payload = .ok content →
      payloadOf content = payload) :
    Canonical {
      encode := fun content => .ok (Payload.frame (payloadOf content))
      decode := Decoder.ofSpan Payload.locate judge } := by
  intro bytes content length read
  simp only [Decoder.ofSpan, bind_ok_iff] at read
  obtain ⟨span, located, found, judged, same⟩ := read
  cases same
  simp only [restored judged, Payload.locate_ok located]

theorem bytes_canonical : Canonical bytes :=
  frame_canonical fun accepted => (Except.ok.inj accepted).symm

theorem closedText_canonical : Canonical closedText :=
  frame_canonical Payload.closedText_ok

theorem openText_canonical : Canonical openText :=
  frame_canonical Payload.openText_ok

theorem frameFixed_canonical {α : Type} (width : Nat)
    {payloadOf : α → List UInt8} {judge : List UInt8 → Except WireError α}
    (restored : ∀ {payload content}, judge payload = .ok content →
      payloadOf content = payload) :
    Canonical {
      encode := fun content => Payload.frameFixed width (payloadOf content)
      decode := Decoder.ofSpan (Payload.locateFixed width) judge } := by
  intro bytes content length read
  simp only [Decoder.ofSpan, bind_ok_iff] at read
  obtain ⟨span, located, found, judged, same⟩ := read
  cases same
  simp only [restored judged, Payload.locateFixed_ok located]

theorem shortBytes_canonical (width : Nat) : Canonical (shortBytes width) :=
  frameFixed_canonical width fun accepted => (Except.ok.inj accepted).symm

theorem shortText_canonical (width : Nat) : Canonical (shortText width) :=
  frameFixed_canonical width Payload.openText_ok

end Codec

namespace Value

/-- The bytes are the form of the value, or one of the many bytes for true. -/
def Shows (value : Value) (body : List UInt8) : Prop :=
  value.encode = .ok body ∨
    (value = .bool true ∧ ∃ byte, byte ≠ 0 ∧ body = [byte])

theorem decodeWith_ok {α : Type} {codec : Codec α} {ofContent : α → Value}
    {bytes : List UInt8} {value : Value} {length : Nat}
    (read : decodeWith codec ofContent bytes = .ok (value, length)) :
    ∃ content, codec.decode bytes = .ok (content, length) ∧
      value = ofContent content := by
  unfold decodeWith at read
  cases decoded : codec.decode bytes with
  | error error =>
      rw [decoded] at read
      cases read
  | ok answer =>
      rw [decoded] at read
      cases read
      exact ⟨_, rfl, rfl⟩

theorem decode_ok {type : FieldType} {bytes : List UInt8} {value : Value}
    {length : Nat} (read : decode type bytes = .ok (value, length)) :
    value.type = type ∧ value.Shows (bytes.take length) := by
  cases type with
  | eof =>
      cases read
      exact ⟨rfl, .inl rfl⟩
  | version =>
      obtain ⟨number, decoded, rfl⟩ := decodeWith_ok read
      exact ⟨rfl, .inl (Codec.varint_canonical decoded)⟩
  | bool =>
      obtain ⟨truth, decoded, rfl⟩ := decodeWith_ok read
      obtain ⟨byte, single, rfl⟩ := Codec.bool_ok decoded
      refine ⟨rfl, ?_⟩
      rw [single]
      by_cases zero : byte = 0
      · subst zero
        exact .inl rfl
      · exact .inr ⟨by simp [zero], byte, zero, rfl⟩
  | int =>
      obtain ⟨number, decoded, rfl⟩ := decodeWith_ok read
      exact ⟨rfl, .inl (Codec.signedVarint_canonical decoded)⟩
  | uint =>
      obtain ⟨number, decoded, rfl⟩ := decodeWith_ok read
      exact ⟨rfl, .inl (Codec.varint_canonical decoded)⟩
  | float =>
      obtain ⟨bits, decoded, rfl⟩ := decodeWith_ok read
      exact ⟨rfl, .inl (Codec.binary32_canonical decoded)⟩
  | double =>
      obtain ⟨bits, decoded, rfl⟩ := decodeWith_ok read
      exact ⟨rfl, .inl (Codec.binary64_canonical decoded)⟩
  | text =>
      obtain ⟨content, decoded, rfl⟩ := decodeWith_ok read
      exact ⟨rfl, .inl (Codec.closedText_canonical decoded)⟩
  | bytes =>
      obtain ⟨content, decoded, rfl⟩ := decodeWith_ok read
      exact ⟨rfl, .inl (Codec.bytes_canonical decoded)⟩
  | array => cases read
  | map => cases read

end Value

namespace Field

/-- The tag that a field is read behind.  Unlike the one that is written it has
an index for every field. -/
def readTag (field : Field) : Tag :=
  { typeCode := field.value.type.code, index := field.index }

/-- The bytes are a record of the field: its tag in any tier with room for it,
and bytes that show its value. -/
def Shows (field : Field) (record : List UInt8) : Prop :=
  ∃ tier ∈ Tag.tiers, ∃ body, tier.fits field.readTag = true ∧
    field.value.Shows body ∧ record = Tag.encodeIn tier field.readTag ++ body

theorem typeOf_ok {tag : Tag} {type : FieldType}
    (known : typeOf tag = .ok type) : type.code = tag.typeCode := by
  unfold typeOf at known
  cases found : FieldType.ofCode? tag.typeCode with
  | none =>
      rw [found] at known
      cases known
  | some candidate =>
      rw [found] at known
      cases known
      simpa using List.find?_some found

theorem decode_ok {bytes : List UInt8} {field : Field} {length : Nat}
    (read : decode bytes = .ok (field, length)) :
    field.Shows (bytes.take length) := by
  obtain ⟨tag, tagLength, value, bodyLength, tagged, ⟨type, known, valued⟩,
    rfl, rfl⟩ := decode_parts read
  obtain ⟨tier, member, _, fits, group⟩ := Tag.decode_ok tagged
  obtain ⟨rfl, shows⟩ := Value.decode_ok valued
  have same : readTag { index := tag.index, value } = tag := by
    rw [readTag, typeOf_ok known]
  refine ⟨tier, member, _, ?_, shows, ?_⟩
  · rwa [same]
  · rw [same, ← group]
    exact List.take_add

theorem tag_index_le (field : Field) :
    field.tag.index.toNat ≤ field.readTag.index.toNat := by
  obtain ⟨index, value⟩ := field
  cases value <;> simp [tag, readTag, Value.type]

/-- Every record of a field has the field's form in place of it, and the form is
no longer. -/
theorem Shows.encode {field : Field} {record : List UInt8}
    (shows : field.Shows record) :
    field.tag.index.toNat ≤ Tag.maxIndex ∧
      ∃ form, field.encode = .ok form ∧ form.length ≤ record.length := by
  obtain ⟨tier, member, body, fits, valueShows, rfl⟩ := shows
  have fitsForm : tier.fits field.tag = true :=
    Tag.Tier.fits_of_index_le fits rfl field.tag_index_le
  obtain ⟨group, tagged, shorter⟩ := Tag.encode_of_fits member fitsForm
  constructor
  · exact Tag.index_le_of_fits member fitsForm
  · rw [List.length_append, Tag.length_encodeIn]
    rcases valueShows with valued | ⟨isTrue, byte, _, rfl⟩
    · refine ⟨group ++ body, encode_ok.mpr
        ⟨group, body, tagged, valued, rfl⟩, ?_⟩
      rw [List.length_append]
      omega
    · have valued : field.value.encode = .ok [1] := by
        rw [isTrue]
        rfl
      refine ⟨group ++ [1], encode_ok.mpr
        ⟨group, [1], tagged, valued, rfl⟩, ?_⟩
      simp only [List.length_append, List.length_singleton]
      omega

end Field

end TagWire
