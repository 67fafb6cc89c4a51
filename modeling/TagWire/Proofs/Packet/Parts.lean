import TagWire.Proofs.Buffer.Reading

/-!
# Records read part by part

A record can be read in one piece, from a slice of bytes, or part by part from a
buffer: first the tag, then whatever item the announced type calls for.  The two
ways share no state.  The slice is cut again for each part, and lengths are added
up, while the buffer moves its cursor and looks at what is left behind it.

They come to the same field and the same place, and to the same error with the
same numbers in it.  What is lacking is counted from the start of a part in both.
-/

namespace TagWire

namespace Buffer

variable {α β : Type}

/-- What an action answers, and where it leaves the cursor. -/
def answers (action : BufferM α) (buffer : Buffer) :
    Except WireError (α × Nat) :=
  match action buffer with
  | .ok answer after => .ok (answer, after.position)
  | .error error _ => .error error

theorem answers_takeWith (decoder : Decoder α) (buffer : Buffer) :
    answers (takeWith decoder) buffer =
      (decoder buffer.unread).map fun (value, length) =>
        (value, buffer.position + length) := by
  cases read : decoder buffer.unread <;>
    simp only [answers, takeWith, read, Except.map]

theorem answers_takeWith_bind {decoder : Decoder α} (rest : α → BufferM β)
    (buffer : Buffer) :
    answers (takeWith decoder >>= rest) buffer =
      match decoder buffer.unread with
      | .ok (value, length) => answers (rest value) (buffer.advance length)
      | .error error => .error error := by
  cases read : decoder buffer.unread <;>
    simp only [answers, bind, EStateM.bind, takeWith, read, advance]

/-! ## The calls for each part -/

/-- The call that takes the value of a type. -/
def nextValue : FieldType → BufferM Value
  | .eof => return .eof
  | .version => do return .version (← next Codec.varint)
  | .bool => do return .bool (← next Codec.bool)
  | .int => do return .int (← next Codec.signedVarint)
  | .uint => do return .uint (← next Codec.varint)
  | .float => do return .float (← next Codec.binary32)
  | .double => do return .double (← next Codec.binary64)
  | .text => do return .text (← next Codec.closedText)
  | .bytes => do return .bytes (← next Codec.bytes)
  | .array => throw (.unsupportedFieldType .array)
  | .map => throw (.unsupportedFieldType .map)

/-- Takes a record by taking its tag, looking up the type, and taking a value of
this type. -/
def nextRecordBy (takeTag : BufferM Tag) (takeValue : FieldType → BufferM Value) :
    BufferM Field := do
  let tag ← takeTag
  match FieldType.ofCode? tag.typeCode with
  | none => throw (.unknownFieldType tag.typeCode)
  | some type =>
    let value ← takeValue type
    return { index := tag.index, value }

def nextRecord : BufferM Field := nextRecordBy (next Codec.tag) nextValue

theorem nextValue_eq (type : FieldType) :
    nextValue type = takeWith (Value.decode type) := by
  cases type with
  | eof | array | map => rfl
  | version => exact takeWith_bind_return Codec.varint.decode Value.version
  | bool => exact takeWith_bind_return Codec.bool.decode Value.bool
  | int => exact takeWith_bind_return Codec.signedVarint.decode Value.int
  | uint => exact takeWith_bind_return Codec.varint.decode Value.uint
  | float => exact takeWith_bind_return Codec.binary32.decode Value.float
  | double => exact takeWith_bind_return Codec.binary64.decode Value.double
  | text => exact takeWith_bind_return Codec.closedText.decode Value.text
  | bytes => exact takeWith_bind_return Codec.bytes.decode Value.bytes

theorem answers_bind_return (action : BufferM α) (change : α → β)
    (buffer : Buffer) :
    answers (do return change (← action)) buffer =
      (answers action buffer).map fun (answer, place) =>
        (change answer, place) := by
  cases done : action buffer with
  | error error after =>
      simp only [answers, bind, EStateM.bind, done]
      rfl
  | ok answer after =>
      simp only [answers, bind, EStateM.bind, done]
      rfl

/-- Wherever the cursor is, the parts come to what the slice behind it comes
to. -/
theorem answers_nextRecord (buffer : Buffer) :
    answers nextRecord buffer =
      (Field.decode buffer.unread).map fun (field, length) =>
        (field, buffer.position + length) := by
  rw [nextRecord, nextRecordBy, next, answers_takeWith_bind]
  simp only [Field.decode, bind, Except.bind, Codec.tag]
  cases Tag.decode buffer.unread with
  | error error => rfl
  | ok read =>
      obtain ⟨tag, tagLength⟩ := read
      simp only [Field.typeOf]
      cases FieldType.ofCode? tag.typeCode with
      | none => rfl
      | some type =>
          have valued := answers_bind_return (nextValue type)
            (fun value => ({ index := tag.index, value } : Field))
            (buffer.advance tagLength)
          rw [nextValue_eq, answers_takeWith, unread_advance] at valued
          simp only [nextValue_eq]
          refine valued.trans ?_
          cases Value.decode type (buffer.unread.drop tagLength) with
          | error error => rfl
          | ok body =>
              simp only [Except.map, pure, Except.pure, advance, Nat.add_assoc]

/-! ## The steps of each call

Most calls look at an item and then move past it, with a check of their own that
the bytes are there.  A payload is cut out of the bytes that were taken, and text
is judged twice. -/

/-- The steps of the call that takes the value of a type. -/
def nextValueInSteps : FieldType → BufferM Value
  | .eof => return .eof
  | .version => do return .version (← lookAndMove Varint.decode)
  | .bool => do return .bool ((← lookAndMove Codec.uint8.decode) != 0)
  | .int => do return .int (Zigzag.decode (← lookAndMove Varint.decode))
  | .uint => do return .uint (← lookAndMove Varint.decode)
  | .float => do return .float (← lookAndMove Codec.uint32.decode)
  | .double => do return .double (← lookAndMove Codec.uint64.decode)
  | .text => do
    return .text (← takeJudged Payload.locate Payload.closedText)
  | .bytes => do return .bytes (← takePayload Payload.locate)
  | .array => throw (.unsupportedFieldType .array)
  | .map => throw (.unsupportedFieldType .map)

def nextRecordInSteps : BufferM Field :=
  nextRecordBy (lookAndMove Tag.decode) nextValueInSteps

theorem nextValueInSteps_eq (type : FieldType) :
    nextValueInSteps type = nextValue type := by
  have varint : lookAndMove Varint.decode = next Codec.varint :=
    lookAndMove_eq Varint.decode_resumes
  cases type with
  | eof | array | map => rfl
  | version => simp only [nextValueInSteps, nextValue, varint]
  | uint => simp only [nextValueInSteps, nextValue, varint]
  | bool =>
      have byte : lookAndMove Codec.uint8.decode =
          takeWith Codec.uint8.decode :=
        lookAndMove_eq (Codec.word_resumes 1 _ _)
      have steps := takeWith_bind_return Codec.uint8.decode
        fun byte => Value.bool (byte != 0)
      rw [nextValue_eq, nextValueInSteps, byte, steps]
      congr 1
      funext bytes
      simp only [Value.decode, Value.decodeWith, bool_decode_eq]
      cases Codec.uint8.decode bytes <;> rfl
  | int =>
      have steps := takeWith_bind_return Varint.decode
        fun folded => Value.int (Zigzag.decode folded)
      rw [nextValue_eq, nextValueInSteps, lookAndMove_eq Varint.decode_resumes,
        steps]
      congr 1
      funext bytes
      simp only [Value.decode, Value.decodeWith, signedVarint_decode_eq]
      cases Varint.decode bytes <;> rfl
  | float =>
      have word : lookAndMove Codec.uint32.decode = next Codec.binary32 :=
        lookAndMove_eq (Codec.word_resumes 4 _ _)
      simp only [nextValueInSteps, nextValue, word]
  | double =>
      have word : lookAndMove Codec.uint64.decode = next Codec.binary64 :=
        lookAndMove_eq (Codec.word_resumes 8 _ _)
      simp only [nextValueInSteps, nextValue, word]
  | text =>
      have judged : takeJudged Payload.locate Payload.closedText =
          next Codec.closedText := takeJudged_eq Payload.locate_resumes
      simp only [nextValueInSteps, nextValue, judged]
  | bytes =>
      have payload : takePayload Payload.locate = next Codec.bytes :=
        takePayload_eq Payload.locate_resumes
      simp only [nextValueInSteps, nextValue, payload]

theorem nextRecordInSteps_eq : nextRecordInSteps = nextRecord := by
  have values : nextValueInSteps = nextValue := funext nextValueInSteps_eq
  rw [nextRecordInSteps, nextRecord, values,
    lookAndMove_eq Tag.decode_resumes]
  rfl

/-- Reading a record in one piece and taking it part by part from a view of the
bytes come to the same field and the same place, or to the same error, and so
does taking every part in the steps of its call. -/
theorem record_reads_part_by_part (bytes : List UInt8) :
    answers nextRecord (view bytes) = Field.decode bytes ∧
      answers nextRecordInSteps (view bytes) = Field.decode bytes := by
  have parts : answers nextRecord (view bytes) = Field.decode bytes := by
    have unread : (view bytes).unread = bytes := rfl
    rw [answers_nextRecord, unread]
    cases Field.decode bytes with
    | error error => rfl
    | ok read =>
        simp only [Except.map, view, atStart, Nat.zero_add]
  constructor
  · exact parts
  · rw [nextRecordInSteps_eq]
    exact parts

end Buffer

end TagWire
