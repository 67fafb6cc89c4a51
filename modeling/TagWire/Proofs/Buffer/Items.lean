import TagWire.Proofs.Decoders
import TagWire.Proofs.Field

/-!
# The items of a buffer

A buffer holds items of many kinds, and each kind has its own codec.  What is
said of all of them is said of the kind: its decoder may be run on bytes that
are still arriving, and every form that it writes reads back.
-/

namespace TagWire

/-- A payload within the limit is found behind its length. -/
theorem Payload.locateFixed_append {width : Nat} {payload : List UInt8}
    (fits : payload.length ≤ fixedLimit width)
    (trailing : List UInt8) :
    locateFixed width
        (BigEndian.encode width payload.length ++ payload ++ trailing) =
      .ok { start := width, stop := width + payload.length } := by
  have positive : 0 < Nat.pow 256 width := Nat.pow_pos (by decide)
  have counted : payload.length < Nat.pow 256 width := by
    rw [fixedLimit] at fits
    omega
  have sized := BigEndian.length_encode width payload.length
  have taken : (BigEndian.encode width payload.length ++ payload ++
      trailing).take width = BigEndian.encode width payload.length := by
    rw [List.append_assoc, List.take_left' sized]
  simp only [locateFixed, taken, sized, Nat.lt_irrefl, if_false,
    BigEndian.decode_encode_of_lt counted]
  exact Span.within_append sized payload trailing

namespace Codec

open Decoder

theorem openText_resumes : Resumes 0 Prod.snd openText.decode :=
  ofSpan_resumes Payload.locate_resumes Payload.openText_fault

theorem shortBytes_resumes (width : Nat) :
    Resumes 0 Prod.snd (shortBytes width).decode :=
  ofSpan_resumes (Payload.locateFixed_resumes width)
    fun refused => by cases refused

theorem shortText_resumes (width : Nat) :
    Resumes 0 Prod.snd (shortText width).decode :=
  ofSpan_resumes (Payload.locateFixed_resumes width) Payload.openText_fault

/-- A word that is too large for its width loses its high bits. -/
theorem word_reads_low {α : Type} (width : Nat) (toNat : α → Nat)
    (ofNat : Nat → α) (value : α) :
    Reads (word width toNat ofNat).decode
      (BigEndian.encode width (toNat value))
      (ofNat (toNat value % Nat.pow 256 width)) := by
  intro trailing
  have taken := run_reads (BigEndian.encode width (toNat value)) trailing
  rw [BigEndian.length_encode] at taken ⊢
  simp only [word, taken, bind, Except.bind, pure, Except.pure,
    BigEndian.decode_encode]

/-- What three bytes keep of a word. -/
def lowBits (word : UInt32) : UInt32 := word &&& 0xFFFFFF

theorem lowBits_eq (word : UInt32) :
    lowBits word = UInt32.ofNat (word.toNat % Nat.pow 256 3) := by
  have width : Nat.pow 256 3 = 2 ^ 24 := by decide
  have fits : word.toNat % 2 ^ 24 < 2 ^ 32 :=
    Nat.lt_of_le_of_lt (Nat.mod_le _ _) word.toNat_lt
  apply UInt32.toNat_inj.mp
  rw [width, UInt32.toNat_ofNat_of_lt' fits, lowBits, UInt32.toNat_and]
  exact Nat.and_two_pow_sub_one_eq_mod word.toNat 24

theorem uint24_reads (word : UInt32) :
    Reads uint24.decode (BigEndian.encode 3 word.toNat) (lowBits word) := by
  rw [lowBits_eq]
  exact word_reads_low 3 UInt32.toNat UInt32.ofNat word

theorem openText_reads {content : String}
    (addressed : (Payload.frame (Utf8.encode content)).length < Word.limit) :
    Reads openText.decode (Payload.frame (Utf8.encode content)) content :=
  frame_reads addressed (Payload.openText_encode content)

/-- A payload that its reader accepts makes a form behind a fixed prefix. -/
theorem frameFixed_reads {α : Type} {read : List UInt8 → Except WireError α}
    {width : Nat} {payload form : List UInt8} {content : α}
    (framed : Payload.frameFixed width payload = .ok form)
    (accepted : read payload = .ok content) :
    Reads (ofSpan (Payload.locateFixed width) read) form content := by
  intro trailing
  unfold Payload.frameFixed at framed
  split at framed
  · cases framed
  · rename_i fits
    cases framed
    have sized := BigEndian.length_encode width payload.length
    have located := Payload.locateFixed_append (Nat.le_of_not_lt fits) trailing
    have payloadAt := Payload.Span.of_append sized payload trailing
    simp only [ofSpan, located, bind, Except.bind, payloadAt, accepted, pure,
      Except.pure, List.length_append, sized]

end Codec

/-- What a buffer can append and take.  The width of a short payload's prefix is
in bytes. -/
inductive ItemKind
  | uint8
  | uint16
  | uint24
  | uint32
  | uint64
  | int8
  | int16
  | int32
  | int64
  | bool
  | binary32
  | binary64
  | varint
  | signedVarint
  | tag
  | bytes
  | shortBytes (width : Nat)
  | closedText
  | openText
  | shortText (width : Nat)
  deriving DecidableEq, Repr

namespace ItemKind

def Content : ItemKind → Type
  | uint8 => UInt8
  | uint16 => UInt16
  | uint24 | uint32 | binary32 => UInt32
  | uint64 | binary64 | varint => UInt64
  | int8 => Int8
  | int16 => Int16
  | int32 => Int32
  | int64 | signedVarint => Int64
  | bool => Bool
  | tag => Tag
  | bytes | shortBytes _ => List UInt8
  | closedText | openText | shortText _ => String

def codec : (kind : ItemKind) → Codec kind.Content
  | uint8 => Codec.uint8
  | uint16 => Codec.uint16
  | uint24 => Codec.uint24
  | uint32 => Codec.uint32
  | uint64 => Codec.uint64
  | int8 => Codec.int8
  | int16 => Codec.int16
  | int32 => Codec.int32
  | int64 => Codec.int64
  | bool => Codec.bool
  | binary32 => Codec.binary32
  | binary64 => Codec.binary64
  | varint => Codec.varint
  | signedVarint => Codec.signedVarint
  | tag => Codec.tag
  | bytes => Codec.bytes
  | shortBytes width => Codec.shortBytes width
  | closedText => Codec.closedText
  | openText => Codec.openText
  | shortText width => Codec.shortText width

theorem decode_resumes (kind : ItemKind) :
    Resumes 0 Prod.snd kind.codec.decode := by
  cases kind with
  | uint8 => exact Codec.word_resumes 1 _ _
  | uint16 => exact Codec.word_resumes 2 _ _
  | uint24 => exact Codec.word_resumes 3 _ _
  | uint32 => exact Codec.word_resumes 4 _ _
  | uint64 => exact Codec.word_resumes 8 _ _
  | int8 => exact Codec.word_resumes 1 _ _
  | int16 => exact Codec.word_resumes 2 _ _
  | int32 => exact Codec.word_resumes 4 _ _
  | int64 => exact Codec.word_resumes 8 _ _
  | bool => exact Codec.word_resumes 1 _ _
  | binary32 => exact Codec.word_resumes 4 _ _
  | binary64 => exact Codec.word_resumes 8 _ _
  | varint => exact Varint.decode_resumes
  | signedVarint => exact Codec.signedVarint_resumes
  | tag => exact Tag.decode_resumes
  | bytes => exact Codec.bytes_resumes
  | shortBytes width => exact Codec.shortBytes_resumes width
  | closedText => exact Codec.closedText_resumes
  | openText => exact Codec.openText_resumes
  | shortText width => exact Codec.shortText_resumes width

/-- A value as it reads back. -/
def stored : (kind : ItemKind) → kind.Content → kind.Content
  | uint24, content => Codec.lowBits content
  | _, content => content

/-- Every form of a kind is read whatever bytes follow it, if its end has an
address. -/
theorem encode_reads {kind : ItemKind} {content : kind.Content}
    {form : List UInt8} (encoded : kind.codec.encode content = .ok form)
    (addressed : form.length < Word.limit) :
    Decoder.Reads kind.codec.decode form (kind.stored content) := by
  cases kind with
  | uint8 =>
      cases encoded
      exact Codec.word_reads (UInt8.toNat_lt content) UInt8.ofNat_toNat
  | uint16 =>
      cases encoded
      exact Codec.word_reads (UInt16.toNat_lt content) UInt16.ofNat_toNat
  | uint24 =>
      cases encoded
      exact Codec.uint24_reads content
  | uint32 =>
      cases encoded
      exact Codec.binary32_reads content
  | uint64 =>
      cases encoded
      exact Codec.binary64_reads content
  | int8 =>
      cases encoded
      exact Codec.word_reads (UInt8.toNat_lt _)
        (by rw [UInt8.ofNat_toNat]; rfl)
  | int16 =>
      cases encoded
      exact Codec.word_reads (UInt16.toNat_lt _)
        (by rw [UInt16.ofNat_toNat]; rfl)
  | int32 =>
      cases encoded
      exact Codec.word_reads (UInt32.toNat_lt _)
        (by rw [UInt32.ofNat_toNat]; rfl)
  | int64 =>
      cases encoded
      exact Codec.word_reads (UInt64.toNat_lt _)
        (by rw [UInt64.ofNat_toNat]; rfl)
  | bool =>
      cases encoded
      exact Codec.bool_reads content
  | binary32 =>
      cases encoded
      exact Codec.binary32_reads content
  | binary64 =>
      cases encoded
      exact Codec.binary64_reads content
  | varint =>
      cases encoded
      exact Codec.varint_reads content
  | signedVarint =>
      cases encoded
      exact Codec.signedVarint_reads content
  | tag => exact Tag.decode_encode_append encoded
  | bytes =>
      cases encoded
      exact Codec.bytes_reads addressed
  | shortBytes width => exact Codec.frameFixed_reads encoded rfl
  | closedText =>
      cases encoded
      exact Codec.closedText_reads addressed
  | openText =>
      cases encoded
      exact Codec.openText_reads addressed
  | shortText width =>
      exact Codec.frameFixed_reads encoded (Payload.openText_encode content)

end ItemKind

/-- A value together with its kind. -/
structure Item where
  kind : ItemKind
  content : kind.Content

namespace Item

def encode (item : Item) : Except WireError (List UInt8) :=
  item.kind.codec.encode item.content

def stored (item : Item) : Item :=
  { kind := item.kind, content := item.kind.stored item.content }

/-- The item keeps to the limits of its kind: the index of a tag, and the length
of a payload behind a short prefix. -/
def Fits : Item → Prop
  | ⟨.tag, content⟩ => (content : Tag).index.toNat ≤ Tag.maxIndex
  | ⟨.shortBytes width, content⟩ =>
    (content : List UInt8).length ≤ Payload.fixedLimit width
  | ⟨.shortText width, content⟩ =>
    (Utf8.encode (content : String)).length ≤ Payload.fixedLimit width
  | _ => True

theorem encode_of_fits {item : Item} (fits : item.Fits) :
    ∃ form, item.encode = .ok form := by
  obtain ⟨kind, content⟩ := item
  cases kind with
  | tag => exact Tag.encode_of_index_le fits
  | shortBytes width => exact ⟨_, if_neg (Nat.not_lt_of_le fits)⟩
  | shortText width => exact ⟨_, if_neg (Nat.not_lt_of_le fits)⟩
  | _ => exact ⟨_, rfl⟩

theorem encode_of_long {width : Nat} {text : String}
    (long : Payload.fixedLimit width < (Utf8.encode text).length) :
    encode ⟨.shortText width, text⟩ =
      .error (.lengthTooLarge (Utf8.encode text).length
        (Payload.fixedLimit width)) :=
  if_pos long

end Item

end TagWire
