import TagWire.Field
import TagWire.Proofs.Number.Varint
import TagWire.Proofs.Number.Zigzag
import TagWire.Proofs.Tag
import TagWire.Proofs.Text.Utf8

/-!
# Records read back

Every form that an item is written in is read whatever bytes follow it, and the
reader then stands right behind it.  This property passes from the parts of an
item to the item, and in the end to the record of a field.
-/

namespace TagWire

/-- The bytes are a form of the value, whatever follows them. -/
def Decoder.Reads {α : Type} (decode : Decoder α) (bytes : List UInt8)
    (value : α) : Prop :=
  ∀ trailing, decode (bytes ++ trailing) = .ok (value, bytes.length)

namespace Decoder

theorem run_reads (bytes : List UInt8) :
    Reads (run bytes.length) bytes bytes := by
  intro trailing
  simp only [run]
  rw [List.take_left, if_neg (Nat.lt_irrefl _)]

end Decoder

namespace Payload

theorem length_frame (payload : List UInt8) :
    (frame payload).length =
      Varint.length (UInt64.ofNat payload.length) + payload.length := by
  rw [frame, List.length_append, Varint.length_encode]

theorem Span.within_append {start : Nat} {before : List UInt8}
    (sized : before.length = start) (payload trailing : List UInt8) :
    Span.within start payload.length (before ++ payload ++ trailing) =
      .ok { start, stop := start + payload.length } := by
  have whole : start + payload.length = (before ++ payload).length := by
    rw [List.length_append, sized]
  rw [Span.within, if_neg]
  rw [whole, List.take_left]
  exact Nat.lt_irrefl _

theorem Span.of_append {start : Nat} {before : List UInt8}
    (sized : before.length = start) (payload trailing : List UInt8) :
    Span.of { start, stop := start + payload.length }
        (before ++ payload ++ trailing) = payload := by
  rw [Span.of, List.append_assoc, ← sized, List.drop_left,
    Nat.add_sub_cancel_left, List.take_left]

/-- A payload is found behind its own length, if the length is a word and the
end has an address. -/
theorem locate_frame {payload : List UInt8}
    (addressed : (frame payload).length < Word.limit)
    (trailing : List UInt8) :
    locate (frame payload ++ trailing) = .ok {
      start := Varint.length (UInt64.ofNat payload.length)
      stop := Varint.length (UInt64.ofNat payload.length) +
        payload.length } := by
  rw [length_frame] at addressed
  have counted : (UInt64.ofNat payload.length).toNat = payload.length :=
    UInt64.toNat_ofNat_of_lt'
      (Nat.lt_of_le_of_lt (Nat.le_add_left _ _) addressed)
  have found := Span.within_append
    (Varint.length_encode (UInt64.ofNat payload.length)) payload trailing
  simp only [locate, frame]
  rw [List.append_assoc, Varint.decode_encode_append]
  simp only [bind, Except.bind, counted]
  rw [if_neg (Nat.not_le_of_lt addressed), ← List.append_assoc]
  exact found

theorem openText_encode (text : String) :
    openText (Utf8.encode text) = .ok text := by
  rw [openText, Utf8.decode_encode]
  rfl

theorem closedText_ofClosedText (text : String) :
    closedText (ofClosedText text) = .ok text := by
  rw [closedText, if_pos (by simp [ofClosedText]), ofClosedText,
    List.dropLast_concat]
  exact openText_encode text

end Payload

/-- Where a payload is all there, its reader decides. -/
theorem Decoder.ofSpan_frame {α : Type}
    (read : List UInt8 → Except WireError α) {payload : List UInt8}
    (addressed : (Payload.frame payload).length < Word.limit)
    (trailing : List UInt8) :
    ofSpan Payload.locate read (Payload.frame payload ++ trailing) =
      (read payload).map fun value =>
        (value, (Payload.frame payload).length) := by
  have payloadAt := Payload.Span.of_append
    (Varint.length_encode (UInt64.ofNat payload.length)) payload trailing
  simp only [ofSpan, Payload.locate_frame addressed trailing, bind,
    Except.bind]
  rw [Payload.length_frame]
  simp only [Payload.frame, payloadAt]
  cases read payload <;> rfl

namespace Codec

open Decoder

theorem word_reads {α : Type} {width : Nat} {toNat : α → Nat}
    {ofNat : Nat → α} {value : α} (fits : toNat value < Nat.pow 256 width)
    (restored : ofNat (toNat value) = value) :
    Reads (word width toNat ofNat).decode
      (BigEndian.encode width (toNat value)) value := by
  intro trailing
  have taken := run_reads (BigEndian.encode width (toNat value)) trailing
  rw [BigEndian.length_encode] at taken ⊢
  simp only [word, taken, bind, Except.bind, pure, Except.pure,
    BigEndian.decode_encode_of_lt fits, restored]

theorem bool_reads (truth : Bool) :
    Reads bool.decode (BigEndian.encode 1 truth.toNat) truth :=
  word_reads (Nat.lt_of_le_of_lt (Bool.toNat_le truth) (by decide))
    (by cases truth <;> rfl)

theorem binary32_reads (bits : UInt32) :
    Reads binary32.decode (BigEndian.encode 4 bits.toNat) bits :=
  word_reads bits.toNat_lt UInt32.ofNat_toNat

theorem binary64_reads (bits : UInt64) :
    Reads binary64.decode (BigEndian.encode 8 bits.toNat) bits :=
  word_reads bits.toNat_lt UInt64.ofNat_toNat

theorem varint_reads (number : UInt64) :
    Reads varint.decode (Varint.encode number) number := by
  intro trailing
  rw [Varint.length_encode]
  exact Varint.decode_encode_append number trailing

theorem signedVarint_reads (number : Int64) :
    Reads signedVarint.decode (Varint.encode (Zigzag.encode number))
      number := by
  intro trailing
  rw [Varint.length_encode]
  simp only [signedVarint, Varint.decode_encode_append, bind, Except.bind,
    pure, Except.pure, Zigzag.decode_encode]

/-- A payload that its reader accepts makes a form of what the reader says. -/
theorem frame_reads {α : Type} {read : List UInt8 → Except WireError α}
    {payload : List UInt8} {content : α}
    (addressed : (Payload.frame payload).length < Word.limit)
    (accepted : read payload = .ok content) :
    Reads (ofSpan Payload.locate read) (Payload.frame payload) content := by
  intro trailing
  rw [ofSpan_frame read addressed trailing, accepted]
  rfl

theorem bytes_reads {content : List UInt8}
    (addressed : (Payload.frame content).length < Word.limit) :
    Reads bytes.decode (Payload.frame content) content :=
  frame_reads addressed rfl

theorem closedText_reads {content : String}
    (addressed : (Payload.frame (Payload.ofClosedText content)).length <
      Word.limit) :
    Reads closedText.decode (Payload.frame (Payload.ofClosedText content))
      content :=
  frame_reads addressed (Payload.closedText_ofClosedText content)

end Codec

namespace Value

open Decoder

theorem decodeWith_reads {α : Type} {codec : Codec α} {content : α}
    {body : List UInt8} (reads : Reads codec.decode body content)
    (ofContent : α → Value) :
    Reads (decodeWith codec ofContent) body (ofContent content) := by
  intro trailing
  simp only [decodeWith, reads trailing, Except.map]

/-- Every value has a form. -/
theorem encode_total (value : Value) : ∃ body, value.encode = .ok body := by
  cases value <;> exact ⟨_, rfl⟩

theorem decode_reads {value : Value} {body : List UInt8}
    (encoded : value.encode = .ok body)
    (addressed : body.length < Word.limit) :
    Reads (decode value.type) body value := by
  cases value with
  | eof =>
      cases encoded
      intro trailing
      rfl
  | version number =>
      cases encoded
      exact decodeWith_reads (Codec.varint_reads number) _
  | bool truth =>
      cases encoded
      exact decodeWith_reads (Codec.bool_reads truth) _
  | int number =>
      cases encoded
      exact decodeWith_reads (Codec.signedVarint_reads number) _
  | uint number =>
      cases encoded
      exact decodeWith_reads (Codec.varint_reads number) _
  | float bits =>
      cases encoded
      exact decodeWith_reads (Codec.binary32_reads bits) _
  | double bits =>
      cases encoded
      exact decodeWith_reads (Codec.binary64_reads bits) _
  | text content =>
      cases encoded
      exact decodeWith_reads (Codec.closedText_reads addressed) _
  | bytes content =>
      cases encoded
      exact decodeWith_reads (Codec.bytes_reads addressed) _

end Value

namespace Field

open Decoder

/-- The field as it reads back: one that stands for the packet as a whole has
no index. -/
def stripped (field : Field) : Field :=
  match field.value with
  | .eof | .version _ => { field with index := 0 }
  | _ => field

theorem stripped_eq (field : Field) :
    field.stripped = { index := field.tag.index, value := field.value } := by
  obtain ⟨index, value⟩ := field
  cases value <;> rfl

theorem stripped_value (field : Field) :
    field.stripped.value = field.value := by
  rw [stripped_eq]

/-- The record that ends a packet. -/
def ending : Field := { index := 0, value := .eof }

theorem typeOf_tag (field : Field) :
    typeOf field.tag = .ok field.value.type := by
  obtain ⟨index, value⟩ := field
  cases value <;> rfl

theorem encode_ok {field : Field} {record : List UInt8} :
    field.encode = .ok record ↔
      ∃ tag body, field.tag.encode = .ok tag ∧
        field.value.encode = .ok body ∧ record = tag ++ body := by
  simp only [encode, bind_ok_iff]
  constructor
  · rintro ⟨tag, tagged, body, valued, same⟩
    cases same
    exact ⟨tag, body, tagged, valued, rfl⟩
  · rintro ⟨tag, body, tagged, valued, rfl⟩
    exact ⟨tag, tagged, body, valued, rfl⟩

theorem decode_reads {field : Field} {record : List UInt8}
    (encoded : field.encode = .ok record)
    (addressed : record.length < Word.limit) :
    Reads decode record field.stripped := by
  obtain ⟨tag, body, tagged, valued, rfl⟩ := encode_ok.mp encoded
  rw [List.length_append] at addressed
  intro trailing
  have bodyRead := Value.decode_reads valued
    (Nat.lt_of_le_of_lt (Nat.le_add_left _ _) addressed) trailing
  simp only [decode, List.append_assoc,
    Tag.decode_encode_append tagged (body ++ trailing), bind, Except.bind,
    typeOf_tag, List.drop_left, bodyRead, pure, Except.pure,
    List.length_append, stripped_eq]

/-- The records of the fields, one behind the other. -/
inductive Written : List Field → List UInt8 → Prop where
  | nil : Written [] []
  | cons {field : Field} {fields : List Field} {record bytes : List UInt8} :
      field.encode = .ok record → Written fields bytes →
      Written (field :: fields) (record ++ bytes)

theorem Written.append {front behind : List Field}
    {frontBytes behindBytes : List UInt8}
    (frontWritten : Written front frontBytes)
    (behindWritten : Written behind behindBytes) :
    Written (front ++ behind) (frontBytes ++ behindBytes) := by
  induction frontWritten with
  | nil => exact behindWritten
  | cons encoded _ induction =>
      rw [List.cons_append, List.append_assoc]
      exact .cons encoded induction

theorem Written.singleton {field : Field} {record : List UInt8}
    (encoded : field.encode = .ok record) : Written [field] record := by
  have one := Written.cons encoded .nil
  rwa [List.append_nil] at one

theorem Written.unique {fields : List Field} {bytes other : List UInt8}
    (written : Written fields bytes) (again : Written fields other) :
    bytes = other := by
  induction written generalizing other with
  | nil =>
      cases again
      rfl
  | cons encoded _ induction =>
      cases again with
      | cons encodedAgain behind =>
          cases encoded.symm.trans encodedAgain
          rw [induction behind]

end Field

end TagWire
