import TagWire.Buffer.Transfer
import TagWire.Proofs.Decoders
import TagWire.Proofs.Number.BigEndian

/-!
# What a read does to a buffer

A read leaves the buffer as it is, or answers and moves the cursor past the
bytes of the item.  Some reads look twice: they read an item to learn where it
ends, take its bytes, and read once more from these bytes alone.  A decoder that
depends on the consumed bytes only says the same thing both times, so the second
look never fails and the reads that look once answer alike.
-/

namespace TagWire

theorem Resumes.consumed_le {α : Type} {consumed : α → Nat}
    {decode : List UInt8 → Except WireError α}
    (resumes : Resumes 0 consumed decode) {bytes : List UInt8} {answer : α}
    (read : decode bytes = .ok answer) : consumed answer ≤ bytes.length :=
  (resumes.answered (Nat.zero_le _) read).2.1

/-- The consumed bytes are read alike when they stand alone. -/
theorem Resumes.decode_take {α : Type} {consumed : α → Nat}
    {decode : List UInt8 → Except WireError α}
    (resumes : Resumes 0 consumed decode) {bytes : List UInt8} {answer : α}
    (read : decode bytes = .ok answer) :
    decode (bytes.take (consumed answer)) = .ok answer := by
  apply (resumes.answered (Nat.zero_le _) read).2.2
  rw [List.take_take, Nat.min_self]

namespace Buffer

variable {α β : Type}

/-- The buffer with its cursor further on. -/
def advance (length : Nat) (buffer : Buffer) : Buffer :=
  { buffer with position := buffer.position + length }

theorem length_unread (buffer : Buffer) :
    buffer.unread.length = buffer.remainder := by
  rw [unread, List.length_drop, remainder, extent]

theorem unread_advance (length : Nat) (buffer : Buffer) :
    (buffer.advance length).unread = buffer.unread.drop length := by
  simp only [advance, unread, List.drop_drop]

theorem setPosition_of_le {position : Nat} {buffer : Buffer}
    (inside : position ≤ buffer.extent) :
    setPosition position buffer = .ok () (buffer.moveTo position) := by
  rw [setPosition, if_neg (Nat.not_lt_of_le inside)]

theorem takeWith_of_decode {decoder : Decoder α} {buffer : Buffer} {value : α}
    {length : Nat} (read : decoder buffer.unread = .ok (value, length)) :
    takeWith decoder buffer = .ok value (buffer.advance length) := by
  simp only [takeWith, read, advance]

theorem takeWith_ok {decoder : Decoder α} {buffer after : Buffer} {value : α}
    (taken : takeWith decoder buffer = .ok value after) :
    ∃ length, decoder buffer.unread = .ok (value, length) ∧
      after = buffer.advance length := by
  cases read : decoder buffer.unread with
  | error error =>
      simp only [takeWith, read] at taken
      cases taken
  | ok answer =>
      obtain ⟨found, length⟩ := answer
      rw [takeWith_of_decode read] at taken
      cases taken
      exact ⟨length, rfl, rfl⟩

theorem takeWith_error {decoder : Decoder α} {buffer after : Buffer}
    {error : WireError}
    (failed : takeWith decoder buffer = .error error after) :
    after = buffer ∧ decoder buffer.unread = .error error := by
  cases read : decoder buffer.unread with
  | error error =>
      simp only [takeWith, read] at failed
      cases failed
      exact ⟨rfl, rfl⟩
  | ok answer =>
      rw [takeWith_of_decode read] at failed
      cases failed

theorem takeWith_ok_iff {decoder : Decoder α} {buffer after : Buffer}
    {value : α} :
    takeWith decoder buffer = .ok value after ↔
      ∃ length, decoder buffer.unread = .ok (value, length) ∧
        after = buffer.advance length := by
  constructor
  · exact takeWith_ok
  · rintro ⟨length, read, rfl⟩
    exact takeWith_of_decode read

theorem takeWith_error_iff {decoder : Decoder α} {buffer after : Buffer}
    {error : WireError} :
    takeWith decoder buffer = .error error after ↔
      after = buffer ∧ decoder buffer.unread = .error error := by
  constructor
  · exact takeWith_error
  · rintro ⟨rfl, refused⟩
    simp only [takeWith, refused]

theorem takeWith_bind_return (decoder : Decoder α) (change : α → β) :
    (do return change (← takeWith decoder) : BufferM β) =
      takeWith fun bytes => (decoder bytes).map fun (value, length) =>
        (change value, length) := by
  funext buffer
  cases read : decoder buffer.unread with
  | error error =>
      simp only [bind, EStateM.bind, takeWith, read, Except.map]
  | ok answer =>
      simp only [bind, EStateM.bind, takeWith, read, Except.map]
      rfl

theorem takeBytes_of_le {count : Nat} {buffer : Buffer}
    (present : count ≤ buffer.unread.length) :
    takeBytes count buffer =
      .ok (buffer.unread.take count) (buffer.advance count) := by
  apply takeWith_of_decode
  rw [Decoder.run, if_neg]
  rw [List.length_take]
  omega

theorem takeBytes_ok {count : Nat} {buffer after : Buffer}
    {bytes : List UInt8} (taken : takeBytes count buffer = .ok bytes after) :
    count ≤ buffer.remainder ∧ after = buffer.advance count := by
  obtain ⟨length, read, rfl⟩ := takeWith_ok taken
  have within := (Resumes.run (Nat.zero_le count)).consumed_le read
  rw [length_unread] at within
  obtain ⟨rfl, _⟩ := Decoder.run_ok read
  exact ⟨within, rfl⟩

/-! ## Looking, and then moving

Most calls look at an item and then move past it, with a check of their own that
the bytes are there. -/

/-- Moves the cursor on, if there are that many bytes behind it. -/
def moveOn (length : Nat) : BufferM Unit := fun buffer =>
  if buffer.remainder < length then
    .error (.unexpectedEnd length buffer.remainder) buffer
  else
    .ok () (buffer.advance length)

theorem moveOn_of_le {length : Nat} {buffer : Buffer}
    (present : length ≤ buffer.unread.length) :
    moveOn length buffer = .ok () (buffer.advance length) := by
  rw [length_unread] at present
  exact if_neg (Nat.not_lt_of_le present)

/-- Looks at the item at the cursor, and then moves on by its length. -/
def lookAndMove (decoder : Decoder α) : BufferM α := fun buffer =>
  match decoder buffer.unread with
  | .error error => .error error buffer
  | .ok (value, length) =>
    match moveOn length buffer with
    | .error error after => .error error after
    | .ok () after => .ok value after

theorem lookAndMove_eq {decoder : Decoder α}
    (resumes : Resumes 0 Prod.snd decoder) :
    lookAndMove decoder = takeWith decoder := by
  funext buffer
  cases read : decoder buffer.unread with
  | error error => simp only [lookAndMove, takeWith, read]
  | ok answer =>
      obtain ⟨value, length⟩ := answer
      have present := resumes.consumed_le read
      simp only [lookAndMove, takeWith, read, moveOn_of_le present, advance]

/-! ## Looking twice

Some calls take the bytes of an item and cut it out of them, and text is judged
both before and after the cursor has moved. -/

/-- Takes the bytes of the next item, and reads the item from these bytes
alone. -/
def takeAlone (decoder : Decoder α) : BufferM α := fun buffer =>
  match decoder buffer.unread with
  | .error error => .error error buffer
  | .ok (_, length) =>
    match takeBytes length buffer with
    | .error error after => .error error after
    | .ok group after =>
      match decoder group with
      | .error error => .error error after
      | .ok (value, _) => .ok value after

theorem takeAlone_eq {decoder : Decoder α}
    (resumes : Resumes 0 Prod.snd decoder) :
    takeAlone decoder = takeWith decoder := by
  funext buffer
  cases read : decoder buffer.unread with
  | error error => simp only [takeAlone, takeWith, read]
  | ok answer =>
      have present := resumes.consumed_le read
      have again := resumes.decode_take read
      simp only [takeAlone, takeWith, read, takeBytes_of_le present, again,
        advance]

/-- Takes the payload at the cursor and the length before it. -/
def takePayload (locate : List UInt8 → Except WireError Payload.Span) :
    BufferM (List UInt8) := fun buffer =>
  match locate buffer.unread with
  | .error error => .error error buffer
  | .ok span =>
    match takeBytes span.stop buffer with
    | .error error after => .error error after
    | .ok group after => .ok (span.of group) after

/-- Takes a payload that has been judged before, and judges it again. -/
def takeJudged (locate : List UInt8 → Except WireError Payload.Span)
    (judge : List UInt8 → Except WireError α) : BufferM α := fun buffer =>
  match buffer.peekWith (Decoder.ofSpan locate judge) with
  | .error error => .error error buffer
  | .ok _ =>
    match takePayload locate buffer with
    | .error error after => .error error after
    | .ok payload after =>
      match judge payload with
      | .error error => .error error after
      | .ok value => .ok value after

section Judging

variable {locate : List UInt8 → Except WireError Payload.Span}
  {judge : List UInt8 → Except WireError α} {buffer : Buffer}
  {span : Payload.Span}

theorem peekWith_ofSpan (located : locate buffer.unread = .ok span) :
    buffer.peekWith (Decoder.ofSpan locate judge) =
      judge (span.of buffer.unread) := by
  simp only [peekWith, Decoder.ofSpan, located, bind, Except.bind]
  cases judge (span.of buffer.unread) <;> rfl

theorem takePayload_of_locate (resumes : Resumes 0 Payload.Span.stop locate)
    (located : locate buffer.unread = .ok span) :
    takePayload locate buffer =
      .ok (span.of buffer.unread) (buffer.advance span.stop) := by
  have present := resumes.consumed_le located
  simp only [takePayload, located, takeBytes_of_le present,
    Payload.Span.of_take_stop]

/-- What was sound before the cursor moved is sound afterwards. -/
theorem takePayload_of_peek (resumes : Resumes 0 Payload.Span.stop locate)
    {value : α}
    (sound : buffer.peekWith (Decoder.ofSpan locate judge) = .ok value) :
    ∃ payload after, takePayload locate buffer = .ok payload after ∧
      judge payload = .ok value := by
  cases located : locate buffer.unread with
  | error error =>
      simp only [peekWith, Decoder.ofSpan, located, bind, Except.bind] at sound
      cases sound
  | ok span =>
      rw [peekWith_ofSpan located] at sound
      exact ⟨_, _, takePayload_of_locate resumes located, sound⟩

theorem takeJudged_eq (resumes : Resumes 0 Payload.Span.stop locate) :
    takeJudged locate judge = takeWith (Decoder.ofSpan locate judge) := by
  funext buffer
  cases located : locate buffer.unread with
  | error error =>
      simp only [takeJudged, takeWith, peekWith, Decoder.ofSpan, located, bind,
        Except.bind, Except.map]
  | ok span =>
      have taken := takePayload_of_locate resumes located
      simp only [takeJudged, peekWith_ofSpan located, taken, takeWith,
        Decoder.ofSpan, located, bind, Except.bind]
      cases judge (span.of buffer.unread) <;> rfl

end Judging

theorem takePayload_eq {locate : List UInt8 → Except WireError Payload.Span}
    (resumes : Resumes 0 Payload.Span.stop locate) :
    takePayload locate = takeWith (Decoder.ofSpan locate pure) := by
  funext buffer
  cases located : locate buffer.unread with
  | error error =>
      simp only [takePayload, takeWith, Decoder.ofSpan, located, bind,
        Except.bind]
  | ok span =>
      simp only [takePayload_of_locate resumes located, takeWith,
        Decoder.ofSpan, located, bind, Except.bind, pure, Except.pure, advance]

/-! ## Words read through other words -/

/-- A truth value is a byte, and tells only whether the byte is zero. -/
theorem bool_decode_eq (bytes : List UInt8) :
    Codec.bool.decode bytes =
      (Codec.uint8.decode bytes).map fun (byte, length) =>
        (byte != 0, length) := by
  simp only [Codec.bool, Codec.uint8, Codec.word, Decoder.run]
  split
  · rfl
  · rename_i present
    have single : (bytes.take 1).length = 1 := by
      have most := List.length_take_le 1 bytes
      omega
    have small := BigEndian.decode_lt (bytes.take 1)
    rw [single] at small
    have same : (UInt8.ofNat (BigEndian.decode (bytes.take 1)) != 0) =
        (BigEndian.decode (bytes.take 1) != 0) := by
      rw [Bool.eq_iff_iff, bne_iff_ne, bne_iff_ne, ne_eq, ne_eq,
        ← UInt8.toNat_inj, UInt8.toNat_ofNat_of_lt' small]
      rfl
    simp only [bind, Except.bind, pure, Except.pure, Except.map, same]

/-- A signed word is an unsigned one that is unfolded. -/
theorem signedVarint_decode_eq (bytes : List UInt8) :
    Codec.signedVarint.decode bytes =
      (Varint.decode bytes).map fun (folded, length) =>
        (Zigzag.decode folded, length) := by
  simp only [Codec.signedVarint]
  cases Varint.decode bytes <;> rfl

end Buffer

end TagWire
