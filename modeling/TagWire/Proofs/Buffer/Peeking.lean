import TagWire.Proofs.Buffer.Bounds
import TagWire.Proofs.Forms

/-!
# Looking at an item and taking it

What stands at the cursor can be looked at, and it can be taken.  Both decode the
bytes behind the cursor, but not in the same steps: numbers of a fixed width are
looked at and passed over, other numbers and tags are decoded and passed over,
payloads are cut out of the bytes that were taken, and text is judged twice.

They come to the same value or to the same error.  The cursor moves over the form
of the value and nothing else, and what is lacking is counted from the cursor.
-/

namespace TagWire

/-! ## The forms of an item -/

namespace ItemKind

theorem decode_counts (kind : ItemKind) : CountsAll kind.codec.decode := by
  cases kind with
  | uint8 => exact CountsAll.word 1 _ _
  | uint16 => exact CountsAll.word 2 _ _
  | uint24 => exact CountsAll.word 3 _ _
  | uint32 => exact CountsAll.word 4 _ _
  | uint64 => exact CountsAll.word 8 _ _
  | int8 => exact CountsAll.word 1 _ _
  | int16 => exact CountsAll.word 2 _ _
  | int32 => exact CountsAll.word 4 _ _
  | int64 => exact CountsAll.word 8 _ _
  | bool => exact CountsAll.word 1 _ _
  | binary32 => exact CountsAll.word 4 _ _
  | binary64 => exact CountsAll.word 8 _ _
  | varint => exact CountsAll.varint
  | signedVarint => exact CountsAll.signedVarint
  | tag => exact CountsAll.tag
  | bytes => exact CountsAll.locate.ofSpan fun refused => by cases refused
  | shortBytes width =>
      exact (CountsAll.locateFixed width).ofSpan
        fun refused => by cases refused
  | closedText => exact CountsAll.locate.ofSpan Payload.closedText_fault
  | openText => exact CountsAll.locate.ofSpan Payload.openText_fault
  | shortText width =>
      exact (CountsAll.locateFixed width).ofSpan Payload.openText_fault

/-- The bytes are a form of the content.  It is the one that is written, but for
tags, which may stand in any tier with room for them, and for truth values, where
every byte but zero stands for true. -/
def Shows : (kind : ItemKind) → kind.Content → List UInt8 → Prop
  | tag, content, form =>
    ∃ tier ∈ Tag.tiers, tier.fits content = true ∧
      form = Tag.encodeIn tier content
  | bool, content, form => ∃ byte, form = [byte] ∧ content = (byte != 0)
  | kind, content, form => kind.codec.encode content = .ok form

theorem decode_shows {kind : ItemKind} {bytes : List UInt8}
    {content : kind.Content} {length : Nat}
    (read : kind.codec.decode bytes = .ok (content, length)) :
    kind.Shows content (bytes.take length) := by
  cases kind with
  | uint8 => exact Codec.uint8_canonical read
  | uint16 => exact Codec.uint16_canonical read
  | uint24 => exact Codec.uint24_canonical read
  | uint32 => exact Codec.binary32_canonical read
  | uint64 => exact Codec.binary64_canonical read
  | int8 => exact Codec.int8_canonical read
  | int16 => exact Codec.int16_canonical read
  | int32 => exact Codec.int32_canonical read
  | int64 => exact Codec.int64_canonical read
  | bool =>
      obtain ⟨byte, single, truth⟩ := Codec.bool_ok read
      exact ⟨byte, single, truth⟩
  | binary32 => exact Codec.binary32_canonical read
  | binary64 => exact Codec.binary64_canonical read
  | varint => exact Codec.varint_canonical read
  | signedVarint => exact Codec.signedVarint_canonical read
  | tag =>
      obtain ⟨tier, member, _, fits, form⟩ := Tag.decode_ok read
      exact ⟨tier, member, fits, form⟩
  | bytes => exact Codec.bytes_canonical read
  | shortBytes width => exact Codec.shortBytes_canonical width read
  | closedText => exact Codec.closedText_canonical read
  | openText => exact Codec.openText_canonical read
  | shortText width => exact Codec.shortText_canonical width read

end ItemKind

/-! ## The steps of each call -/

namespace Codec

/-- To read a changed word is to read the word and change it. -/
theorem word_decode_map {α β : Type} {width : Nat} {toNat : α → Nat}
    {ofNat : Nat → α} {unfolded : β → Nat} (change : α → β)
    (bytes : List UInt8) :
    (word width unfolded fun number => change (ofNat number)).decode bytes =
      ((word width toNat ofNat).decode bytes).map fun (value, length) =>
        (change value, length) := by
  simp only [word]
  cases Decoder.run width bytes <;> rfl

end Codec

namespace Buffer

variable {α β : Type}

/-- Looks at a word of a fixed width. -/
def peekWord (width : Nat) (ofNat : Nat → α) (buffer : Buffer) :
    Except WireError α :=
  (buffer.peekBytes width).map fun group => ofNat (BigEndian.decode group)

/-- Looks at a payload. -/
def peekPayload (locate : List UInt8 → Except WireError Payload.Span)
    (buffer : Buffer) : Except WireError (List UInt8) :=
  (locate buffer.unread).map fun span => span.of buffer.unread

/-- Looks at a payload and judges it. -/
def peekJudged (locate : List UInt8 → Except WireError Payload.Span)
    (judge : List UInt8 → Except WireError α) (buffer : Buffer) :
    Except WireError α :=
  buffer.peekPayload locate >>= judge

/-- Looks at a word of a fixed width, and then moves on by this width. -/
def takeWord (width : Nat) (ofNat : Nat → α) : BufferM α := fun buffer =>
  match buffer.peekWord width ofNat with
  | .error error => .error error buffer
  | .ok value =>
    match moveOn width buffer with
    | .error error after => .error error after
    | .ok () after => .ok value after

/-- Moves on by a number of bytes, and then cuts them out. -/
def moveAndCut (count : Nat) : BufferM (List UInt8) := fun buffer =>
  match moveOn count buffer with
  | .error error after => .error error after
  | .ok () after =>
    .ok ((after.content.drop buffer.position).take count) after

/-- The steps of looking at an item. -/
def peekInSteps : (kind : ItemKind) → Buffer → Except WireError kind.Content
  | .uint8 => peekWord 1 UInt8.ofNat
  | .uint16 => peekWord 2 UInt16.ofNat
  | .uint24 => peekWord 3 UInt32.ofNat
  | .uint32 => peekWord 4 UInt32.ofNat
  | .uint64 => peekWord 8 UInt64.ofNat
  | .int8 => fun buffer => (buffer.peekWord 1 UInt8.ofNat).map UInt8.toInt8
  | .int16 => fun buffer => (buffer.peekWord 2 UInt16.ofNat).map UInt16.toInt16
  | .int32 => fun buffer => (buffer.peekWord 4 UInt32.ofNat).map UInt32.toInt32
  | .int64 => fun buffer => (buffer.peekWord 8 UInt64.ofNat).map UInt64.toInt64
  | .bool => fun buffer => (buffer.peekWord 1 UInt8.ofNat).map (· != 0)
  | .binary32 => peekWord 4 UInt32.ofNat
  | .binary64 => peekWord 8 UInt64.ofNat
  | .varint => peekWith Varint.decode
  | .signedVarint => fun buffer =>
    (buffer.peekWith Varint.decode).map Zigzag.decode
  | .tag => peekWith Tag.decode
  | .bytes => peekPayload Payload.locate
  | .shortBytes width => peekPayload (Payload.locateFixed width)
  | .closedText => peekJudged Payload.locate Payload.closedText
  | .openText => peekJudged Payload.locate Payload.openText
  | .shortText width => peekJudged (Payload.locateFixed width) Payload.openText

/-- The steps of taking an item. -/
def nextInSteps : (kind : ItemKind) → BufferM kind.Content
  | .uint8 => takeWord 1 UInt8.ofNat
  | .uint16 => takeWord 2 UInt16.ofNat
  | .uint24 => takeWord 3 UInt32.ofNat
  | .uint32 => takeWord 4 UInt32.ofNat
  | .uint64 => takeWord 8 UInt64.ofNat
  | .int8 => do return UInt8.toInt8 (← takeWord 1 UInt8.ofNat)
  | .int16 => do return UInt16.toInt16 (← takeWord 2 UInt16.ofNat)
  | .int32 => do return UInt32.toInt32 (← takeWord 4 UInt32.ofNat)
  | .int64 => do return UInt64.toInt64 (← takeWord 8 UInt64.ofNat)
  | .bool => do return (← takeWord 1 UInt8.ofNat) != 0
  | .binary32 => takeWord 4 UInt32.ofNat
  | .binary64 => takeWord 8 UInt64.ofNat
  | .varint => lookAndMove Varint.decode
  | .signedVarint => do return Zigzag.decode (← lookAndMove Varint.decode)
  | .tag => lookAndMove Tag.decode
  | .bytes => takePayload Payload.locate
  | .shortBytes width => takePayload (Payload.locateFixed width)
  | .closedText => takeJudged Payload.locate Payload.closedText
  | .openText => takeJudged Payload.locate Payload.openText
  | .shortText width =>
    takeJudged (Payload.locateFixed width) Payload.openText

theorem peekWord_eq {width : Nat} {toNat : α → Nat} {ofNat : Nat → α} :
    peekWord width ofNat = peek (Codec.word width toNat ofNat) := by
  funext buffer
  simp only [peekWord, peekBytes, peek, peekWith, Codec.word]
  cases Decoder.run width buffer.unread <;> rfl

theorem takeWord_eq {width : Nat} {toNat : α → Nat} {ofNat : Nat → α} :
    takeWord width ofNat = next (Codec.word width toNat ofNat) := by
  funext buffer
  have looked : peekWord width ofNat = peek (Codec.word width toNat ofNat) :=
    peekWord_eq
  rw [next, takeWord, looked, peek, peekWith]
  cases read : (Codec.word width toNat ofNat).decode buffer.unread with
  | error error => simp only [Except.map, takeWith, read]
  | ok answer =>
      obtain ⟨value, length⟩ := answer
      have present := (Codec.word_resumes width toNat ofNat).consumed_le read
      obtain ⟨rfl, _⟩ := Codec.word_ok read
      simp only [Except.map, moveOn_of_le present, takeWith_of_decode read]

theorem moveAndCut_eq (count : Nat) : moveAndCut count = takeBytes count := by
  funext buffer
  by_cases present : count ≤ buffer.unread.length
  · rw [takeBytes_of_le present, moveAndCut, moveOn_of_le present]
    rfl
  · have short : buffer.remainder < count := by
      rw [← length_unread]
      exact Nat.lt_of_not_le present
    have cut : (buffer.unread.take count).length < count := by
      rw [List.length_take]
      omega
    simp only [moveAndCut, moveOn, short, if_true, takeBytes, takeWith,
      Decoder.run, cut, length_unread]

theorem peekPayload_eq {locate : List UInt8 → Except WireError Payload.Span} :
    peekPayload locate = peekWith (Decoder.ofSpan locate pure) := by
  funext buffer
  simp only [peekPayload, peekWith, Decoder.ofSpan]
  cases locate buffer.unread <;> rfl

theorem peekJudged_eq {locate : List UInt8 → Except WireError Payload.Span}
    {judge : List UInt8 → Except WireError α} :
    peekJudged locate judge = peekWith (Decoder.ofSpan locate judge) := by
  funext buffer
  cases located : locate buffer.unread with
  | error error =>
      simp only [peekJudged, peekPayload, peekWith, Decoder.ofSpan, located,
        bind, Except.bind, Except.map]
  | ok span =>
      rw [peekWith_ofSpan located]
      simp only [peekJudged, peekPayload, located, bind, Except.bind,
        Except.map]

section Mapped

variable {codec : Codec β} {decoder : Decoder α} {change : α → β}

theorem peek_of_map
    (mapped : ∀ bytes, codec.decode bytes =
      (decoder bytes).map fun (value, length) => (change value, length)) :
    (fun buffer => (peekWith decoder buffer).map change) = peek codec := by
  funext buffer
  simp only [peek, peekWith, mapped]
  cases decoder buffer.unread <;> rfl

theorem next_of_map
    (mapped : ∀ bytes, codec.decode bytes =
      (decoder bytes).map fun (value, length) => (change value, length)) :
    (do return change (← takeWith decoder)) = next codec := by
  rw [takeWith_bind_return, next, funext mapped]

theorem peekWord_map_eq {width : Nat} {unfolded : β → Nat} {ofNat : Nat → α}
    (toNat : α → Nat) (change : α → β) :
    (fun buffer => (peekWord width ofNat buffer).map change) =
      peek (Codec.word width unfolded fun number => change (ofNat number)) := by
  have word : peekWord width ofNat = peek (Codec.word width toNat ofNat) :=
    peekWord_eq
  rw [word]
  exact peek_of_map (Codec.word_decode_map change)

theorem takeWord_map_eq {width : Nat} {unfolded : β → Nat} {ofNat : Nat → α}
    (toNat : α → Nat) (change : α → β) :
    (do return change (← takeWord width ofNat)) =
      next (Codec.word width unfolded fun number => change (ofNat number)) := by
  have word : takeWord width ofNat = next (Codec.word width toNat ofNat) :=
    takeWord_eq
  rw [word]
  exact next_of_map (Codec.word_decode_map change)

end Mapped

theorem peekInSteps_eq (kind : ItemKind) :
    peekInSteps kind = peek kind.codec := by
  cases kind with
  | uint8 => exact peekWord_eq
  | uint16 => exact peekWord_eq
  | uint24 => exact peekWord_eq
  | uint32 => exact peekWord_eq
  | uint64 => exact peekWord_eq
  | int8 => exact peekWord_map_eq UInt8.toNat UInt8.toInt8
  | int16 => exact peekWord_map_eq UInt16.toNat UInt16.toInt16
  | int32 => exact peekWord_map_eq UInt32.toNat UInt32.toInt32
  | int64 => exact peekWord_map_eq UInt64.toNat UInt64.toInt64
  | bool =>
      have word : peekWord 1 UInt8.ofNat = peek Codec.uint8 := peekWord_eq
      rw [peekInSteps, word]
      exact peek_of_map bool_decode_eq
  | binary32 => exact peekWord_eq
  | binary64 => exact peekWord_eq
  | varint => rfl
  | signedVarint => exact peek_of_map signedVarint_decode_eq
  | tag => rfl
  | bytes => exact peekPayload_eq
  | shortBytes width => exact peekPayload_eq
  | closedText => exact peekJudged_eq
  | openText => exact peekJudged_eq
  | shortText width => exact peekJudged_eq

theorem nextInSteps_eq (kind : ItemKind) :
    nextInSteps kind = next kind.codec := by
  cases kind with
  | uint8 => exact takeWord_eq
  | uint16 => exact takeWord_eq
  | uint24 => exact takeWord_eq
  | uint32 => exact takeWord_eq
  | uint64 => exact takeWord_eq
  | int8 => exact takeWord_map_eq UInt8.toNat UInt8.toInt8
  | int16 => exact takeWord_map_eq UInt16.toNat UInt16.toInt16
  | int32 => exact takeWord_map_eq UInt32.toNat UInt32.toInt32
  | int64 => exact takeWord_map_eq UInt64.toNat UInt64.toInt64
  | bool =>
      have word : takeWord 1 UInt8.ofNat = next Codec.uint8 := takeWord_eq
      rw [nextInSteps, word]
      exact next_of_map bool_decode_eq
  | binary32 => exact takeWord_eq
  | binary64 => exact takeWord_eq
  | varint => exact lookAndMove_eq Varint.decode_resumes
  | signedVarint =>
      rw [nextInSteps, lookAndMove_eq Varint.decode_resumes]
      exact next_of_map signedVarint_decode_eq
  | tag => exact lookAndMove_eq Tag.decode_resumes
  | bytes => exact takePayload_eq Payload.locate_resumes
  | shortBytes width =>
      exact takePayload_eq (Payload.locateFixed_resumes width)
  | closedText => exact takeJudged_eq Payload.locate_resumes
  | openText => exact takeJudged_eq Payload.locate_resumes
  | shortText width => exact takeJudged_eq (Payload.locateFixed_resumes width)

/-! ## Agreement -/

/-- Looking and taking answer the same or refuse the same.  What is answered
shows in the bytes that the cursor moves over, and nothing else changes.  A lack
of bytes says how many there are and asks for more. -/
structure Paired (shows : α → List UInt8 → Prop)
    (look : Buffer → Except WireError α) (take : BufferM α)
    (buffer : Buffer) : Prop where
  answered : ∀ value, look buffer = .ok value →
    ∃ length, take buffer = .ok value (buffer.advance length) ∧
      length ≤ buffer.remainder ∧ shows value (buffer.unread.take length)
  refused : ∀ error, look buffer = .error error →
    take buffer = .error error buffer
  lacking : ∀ needed remainder,
    look buffer = .error (.unexpectedEnd needed remainder) →
      remainder = buffer.remainder ∧ remainder < needed

theorem peekWith_ok {decoder : Decoder α} {buffer : Buffer} {value : α}
    (looked : buffer.peekWith decoder = .ok value) :
    ∃ length, decoder buffer.unread = .ok (value, length) := by
  cases read : decoder buffer.unread with
  | error error =>
      rw [peekWith, read] at looked
      cases looked
  | ok answer =>
      rw [peekWith, read] at looked
      cases looked
      exact ⟨answer.2, rfl⟩

theorem peekWith_error {decoder : Decoder α} {buffer : Buffer}
    {error : WireError} (failed : buffer.peekWith decoder = .error error) :
    decoder buffer.unread = .error error := by
  cases read : decoder buffer.unread with
  | error early =>
      rw [peekWith, read] at failed
      cases failed
      rfl
  | ok answer =>
      rw [peekWith, read] at failed
      cases failed

theorem Paired.of_decoder {decoder : Decoder α}
    {shows : α → List UInt8 → Prop}
    (resumes : Resumes 0 Prod.snd decoder) (counts : CountsAll decoder)
    (shown : ∀ {bytes value length}, decoder bytes = .ok (value, length) →
      shows value (bytes.take length)) (buffer : Buffer) :
    Paired shows (peekWith decoder) (takeWith decoder) buffer := by
  constructor
  · intro value looked
    obtain ⟨length, read⟩ := peekWith_ok looked
    refine ⟨length, takeWith_of_decode read, ?_, shown read⟩
    rw [← length_unread]
    exact resumes.consumed_le read
  · intro error failed
    simp only [takeWith, peekWith_error failed]
  · intro needed remainder failed
    have lacking := peekWith_error failed
    constructor
    · rw [← length_unread]
      exact counts _ _ _ lacking
    · exact (resumes.incremental.lack lacking).1

theorem item_paired (kind : ItemKind) (buffer : Buffer) :
    Paired kind.Shows (peekInSteps kind) (nextInSteps kind) buffer := by
  rw [peekInSteps_eq, nextInSteps_eq]
  exact Paired.of_decoder kind.decode_resumes kind.decode_counts
    ItemKind.decode_shows buffer

theorem bytes_paired (count : Nat) (buffer : Buffer) :
    Paired (fun bytes group => bytes = group ∧ bytes.length = count)
      (peekBytes count) (moveAndCut count) buffer := by
  rw [moveAndCut_eq]
  apply Paired.of_decoder (Resumes.run (Nat.zero_le _)) (CountsAll.run count)
  intro bytes group length read
  obtain ⟨rfl, taken, sized⟩ := Decoder.run_ok read
  exact ⟨taken, sized⟩

/-- Looking at an item and taking it agree for items of every kind and for every
number of bytes, wherever the cursor is and whatever is in the memory, though
the calls go in different steps; and looking changes nothing. -/
theorem looking_and_taking_agree (buffer : Buffer) :
    (∀ kind : ItemKind,
      Paired kind.Shows (peekInSteps kind) (nextInSteps kind) buffer ∧
        peekInSteps kind buffer = peek kind.codec buffer ∧
        nextInSteps kind buffer = next kind.codec buffer ∧
        leaves (Call.peek kind).perform buffer = buffer) ∧
    ∀ count : Nat,
      Paired (fun bytes group => bytes = group ∧ bytes.length = count)
        (peekBytes count) (moveAndCut count) buffer ∧
        moveAndCut count buffer = takeBytes count buffer ∧
        leaves (Call.peekBytes count).perform buffer = buffer := by
  constructor
  · intro kind
    refine ⟨item_paired kind buffer, ?_, ?_, leaves_ask _ buffer⟩
    · rw [peekInSteps_eq]
    · rw [nextInSteps_eq]
  · intro count
    refine ⟨bytes_paired count buffer, ?_, leaves_ask _ buffer⟩
    rw [moveAndCut_eq]

end Buffer

end TagWire
