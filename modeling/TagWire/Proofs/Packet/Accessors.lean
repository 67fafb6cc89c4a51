import TagWire.Proofs.Forms
import TagWire.Proofs.Packet.Walking

/-!
# Records taken by their type

What the next record is can be told in two ways: its tag announces a type, and
the record as a whole has a value, which is of a type.  A typed accessor goes by
the tag first and then takes the record, so it relies on the two to agree.

They do.  Both look up the same tag, and a value is never read as another type
than the one that its tag announced.  An accessor is therefore taking the next
record wherever the announced type is its own, and otherwise it refuses before
anything has moved.
-/

namespace TagWire

namespace Field

/-- Reads the tag of a record, as far as the type and the index. -/
def announce : Decoder (FieldType × UInt32) := fun bytes => do
  let (tag, length) ← Tag.decode bytes
  let type ← typeOf tag
  return ((type, tag.index), length)

/-- A record is what its tag announces and a value of the announced type. -/
theorem decode_eq_announce (bytes : List UInt8) :
    decode bytes = announce bytes >>= fun ((type, index), tagLength) =>
      (Value.decode type (bytes.drop tagLength)).map
        fun (value, bodyLength) =>
          ({ index, value }, tagLength + bodyLength) := by
  simp only [decode, announce, bind, Except.bind]
  cases Tag.decode bytes with
  | error error => rfl
  | ok read =>
      obtain ⟨tag, tagLength⟩ := read
      simp only
      cases typeOf tag with
      | error error => rfl
      | ok type =>
          simp only [pure, Except.pure]
          cases Value.decode type (bytes.drop tagLength) <;> rfl

theorem decode_of_unannounced {bytes : List UInt8} {error : WireError}
    (refused : announce bytes = .error error) :
    decode bytes = .error error := by
  rw [decode_eq_announce, refused]
  rfl

/-- The value of a record is of the type that its tag announces. -/
theorem announce_of_decode {bytes : List UInt8} {field : Field} {length : Nat}
    (read : decode bytes = .ok (field, length)) :
    ∃ tagLength, announce bytes =
      .ok ((field.value.type, field.index), tagLength) := by
  rw [decode_eq_announce, bind_ok_iff] at read
  obtain ⟨⟨⟨type, index⟩, tagLength⟩, announced, read⟩ := read
  cases valued : Value.decode type (bytes.drop tagLength) with
  | error error =>
      simp only [valued] at read
      cases read
  | ok answer =>
      simp only [valued] at read
      cases read
      obtain ⟨typed, _⟩ := Value.decode_ok valued
      exact ⟨tagLength, by rw [announced, typed]⟩

end Field

namespace Reader

theorem peekType_eq (reader : Reader) :
    reader.peekType = reader.buffer.peekWith Field.announce := by
  cases tagged : Tag.decode reader.buffer.unread with
  | error error =>
      simp only [peekType, Buffer.peek, Codec.tag, Buffer.peekWith,
        Field.announce, tagged, bind, Except.bind, Except.map]
  | ok read =>
      obtain ⟨tag, length⟩ := read
      simp only [peekType, Buffer.peek, Codec.tag, Buffer.peekWith,
        Field.announce, tagged, bind, Except.bind, Except.map]
      cases Field.typeOf tag <;> rfl

theorem nextField_of_unpeeked {reader : Reader} {error : WireError}
    (refused : reader.peekType = .error error) :
    nextField reader = .error error reader := by
  apply nextField_of_refused
  apply Field.decode_of_unannounced
  rw [peekType_eq, Buffer.peekWith] at refused
  cases announced : Field.announce reader.buffer.unread with
  | error early =>
      rw [announced] at refused
      cases refused
      rfl
  | ok answer =>
      rw [announced] at refused
      cases refused

theorem peekType_of_nextField {reader after : Reader} {field : Field}
    (taken : nextField reader = .ok field after) :
    reader.peekType = .ok (field.value.type, field.index) := by
  obtain ⟨length, read, _⟩ := nextField_ok taken
  obtain ⟨tagLength, announced⟩ := Field.announce_of_decode read
  rw [peekType_eq, Buffer.peekWith, announced]
  rfl

/-- Either the record of the announced type is taken, or it is refused. -/
theorem nextField_cases {reader : Reader} {type : FieldType} {index : UInt32}
    (peeked : reader.peekType = .ok (type, index)) :
    (∃ field after, nextField reader = .ok field after ∧
        field.value.type = type ∧ field.index = index) ∨
      ∃ error, nextField reader = .error error reader := by
  cases outcome : nextField reader with
  | ok field after =>
      left
      have announced := peekType_of_nextField outcome
      rw [peeked] at announced
      cases announced
      exact ⟨field, after, rfl, rfl, rfl⟩
  | error error after =>
      right
      obtain ⟨rfl, _⟩ := nextField_error outcome
      exact ⟨error, rfl⟩

section Expecting

variable {expected found : FieldType} {index : UInt32} {reader : Reader}

theorem nextOf_eq (expected : FieldType) (reader : Reader) :
    nextOf expected reader =
      match reader.peekType with
      | .error error => .error error reader
      | .ok (found, _) =>
        if found = expected then nextField reader
        else .error (.fieldTypeMismatch expected found) reader := by
  have unrolled : nextOf expected reader =
      (match reader.peekType with
        | .error error => throw error
        | .ok (found, _) =>
          if found = expected then nextField
          else throw (.fieldTypeMismatch expected found) : ReaderM Field)
        reader := rfl
  rw [unrolled]
  cases reader.peekType with
  | error error => rfl
  | ok announced =>
      by_cases same : announced.1 = expected
      · simp only [same, if_true]
      · simp only [same, if_false]
        rfl

theorem nextOf_of_unpeeked {error : WireError}
    (refused : reader.peekType = .error error) :
    nextOf expected reader = .error error reader := by
  rw [nextOf_eq, refused]

theorem nextOf_of_other (peeked : reader.peekType = .ok (found, index))
    (other : found ≠ expected) :
    nextOf expected reader =
      .error (.fieldTypeMismatch expected found) reader := by
  rw [nextOf_eq, peeked]
  exact if_neg other

theorem nextOf_of_same (peeked : reader.peekType = .ok (expected, index)) :
    nextOf expected reader = nextField reader := by
  rw [nextOf_eq, peeked]
  exact if_pos rfl

/-- Whatever the tag says, an expected type is found or nothing moves. -/
theorem nextOf_cases (expected : FieldType) (reader : Reader) :
    (∃ field after, nextOf expected reader = .ok field after ∧
        field.value.type = expected) ∨
      ∃ error, nextOf expected reader = .error error reader := by
  cases peeked : reader.peekType with
  | error error => exact .inr ⟨error, nextOf_of_unpeeked peeked⟩
  | ok announced =>
      obtain ⟨found, index⟩ := announced
      by_cases same : found = expected
      · subst same
        rw [nextOf_of_same peeked]
        rcases nextField_cases peeked with
          ⟨field, after, taken, typed, _⟩ | refused
        · exact .inl ⟨field, after, taken, typed⟩
        · exact .inr refused
      · exact .inr ⟨_, nextOf_of_other peeked same⟩

section Content

variable {α : Type} {content? : Value → Option α} {after : Reader}

theorem nextContent_of_nextOf {field : Field} {content : α}
    (taken : nextOf expected reader = .ok field after)
    (holds : content? field.value = some content) :
    nextContent expected content? reader = .ok (field.index, content) after := by
  simp only [nextContent, bind, EStateM.bind, taken, holds]
  rfl

theorem nextContent_of_refused {error : WireError}
    (refused : nextOf expected reader = .error error after) :
    nextContent expected content? reader = .error error after := by
  simp only [nextContent, bind, EStateM.bind, refused]

end Content

end Expecting

/-- The accessors of a reader: one for each type that has values. -/
inductive Accessor
  | version
  | eof
  | bool
  | int
  | uint
  | float
  | double
  | text
  | bytes
  deriving DecidableEq, Repr

namespace Accessor

def type : Accessor → FieldType
  | version => .version
  | eof => .eof
  | bool => .bool
  | int => .int
  | uint => .uint
  | float => .float
  | double => .double
  | text => .text
  | bytes => .bytes

/-- What an accessor answers.  Of the two types that stand for a packet as a
whole nobody asks the index. -/
def Answer : Accessor → Type
  | version => UInt64
  | eof => Unit
  | bool => UInt32 × Bool
  | int => UInt32 × Int64
  | uint => UInt32 × UInt64
  | float => UInt32 × UInt32
  | double => UInt32 × UInt64
  | text => UInt32 × String
  | bytes => UInt32 × List UInt8

/-- What an accessor is to answer about a field of its type. -/
def answer? : (accessor : Accessor) → Field → Option accessor.Answer
  | version, ⟨_, .version number⟩ => some number
  | eof, ⟨_, .eof⟩ => some ()
  | bool, ⟨index, .bool truth⟩ => some (index, truth)
  | int, ⟨index, .int number⟩ => some (index, number)
  | uint, ⟨index, .uint number⟩ => some (index, number)
  | float, ⟨index, .float bits⟩ => some (index, bits)
  | double, ⟨index, .double bits⟩ => some (index, bits)
  | text, ⟨index, .text content⟩ => some (index, content)
  | bytes, ⟨index, .bytes content⟩ => some (index, content)
  | _, _ => none

def take : (accessor : Accessor) → ReaderM accessor.Answer
  | version => nextVersion
  | eof => nextEof
  | bool => nextBool
  | int => nextInt
  | uint => nextUint
  | float => nextFloat
  | double => nextDouble
  | text => nextText
  | bytes => nextBytes

theorem answer?_of_type {accessor : Accessor} {field : Field}
    (typed : field.value.type = accessor.type) :
    ∃ answer, accessor.answer? field = some answer := by
  obtain ⟨index, value⟩ := field
  cases accessor <;> cases value <;> cases typed <;> exact ⟨_, rfl⟩

variable {accessor : Accessor} {reader after : Reader}

theorem take_of_nextOf {field : Field} {answer : accessor.Answer}
    (taken : nextOf accessor.type reader = .ok field after)
    (answers : accessor.answer? field = some answer) :
    accessor.take reader = .ok answer after := by
  obtain ⟨index, value⟩ := field
  cases accessor with
  | version =>
      cases value <;> cases answers
      have found : nextOf .version reader = .ok _ after := taken
      simp only [take, nextVersion, nextContent, bind, EStateM.bind, found]
      rfl
  | eof =>
      cases value <;> cases answers
      have found : nextOf .eof reader = .ok _ after := taken
      simp only [take, nextEof, bind, EStateM.bind, found]
      rfl
  | bool | int | uint | float | double | text | bytes =>
      cases value <;> cases answers
      simp only [take, nextBool, nextInt, nextUint, nextFloat, nextDouble,
        nextText, nextBytes]
      apply nextContent_of_nextOf taken
      rfl

theorem take_of_refused {error : WireError}
    (refused : nextOf accessor.type reader = .error error after) :
    accessor.take reader = .error error after := by
  cases accessor with
  | version =>
      have stopped : nextOf .version reader = .error error after := refused
      simp only [take, nextVersion, bind, EStateM.bind,
        nextContent_of_refused stopped]
      rfl
  | eof =>
      have stopped : nextOf .eof reader = .error error after := refused
      simp only [take, nextEof, bind, EStateM.bind, stopped]
      rfl
  | bool | int | uint | float | double | text | bytes =>
      simp only [take, nextBool, nextInt, nextUint, nextFloat, nextDouble,
        nextText, nextBytes]
      exact nextContent_of_refused refused

end Accessor

/-- How an accessor stands to the type that is announced and to the record that
can be taken. -/
structure Agrees (accessor : Accessor) (reader : Reader) : Prop where
  /-- Without a type there is neither an answer nor a record. -/
  unannounced : ∀ error, reader.peekType = .error error →
    accessor.take reader = .error error reader ∧
      nextField reader = .error error reader
  /-- A record of another type is refused, reserved types among them. -/
  mismatched : ∀ found index, reader.peekType = .ok (found, index) →
    found ≠ accessor.type →
      accessor.take reader =
        .error (.fieldTypeMismatch accessor.type found) reader
  /-- A record of the type is taken, or refused, as any record would be. -/
  matched : ∀ index, reader.peekType = .ok (accessor.type, index) →
    (∃ field after answer, nextField reader = .ok field after ∧
        field.index = index ∧ accessor.answer? field = some answer ∧
        accessor.take reader = .ok answer after) ∨
      ∃ error, nextField reader = .error error reader ∧
        accessor.take reader = .error error reader
  /-- What is taken was announced. -/
  announced : ∀ field after, nextField reader = .ok field after →
    reader.peekType = .ok (field.value.type, field.index)
  /-- A refusal moves nothing. -/
  unmoved : ∀ error after,
    accessor.take reader = .error error after ∨
        nextField reader = .error error after →
      after = reader
  /-- Behind a record that has been taken there is nothing left to refuse. -/
  answers : ∀ field after, nextOf accessor.type reader = .ok field after →
    ∃ answer, accessor.answer? field = some answer

/-- Whatever the bytes and wherever the cursor, every accessor agrees with the
announced type and with taking the record whatever its type. -/
theorem typed_accessors_agree (accessor : Accessor) (reader : Reader) :
    Agrees accessor reader where
  unannounced := by
    intro error refused
    constructor
    · exact Accessor.take_of_refused (nextOf_of_unpeeked refused)
    · exact nextField_of_unpeeked refused
  mismatched := by
    intro found index peeked other
    apply Accessor.take_of_refused
    exact nextOf_of_other peeked other
  matched := by
    intro index peeked
    have same := nextOf_of_same peeked
    rcases nextField_cases peeked with
      ⟨field, after, taken, typed, indexed⟩ | ⟨error, refused⟩
    · obtain ⟨answer, answers⟩ := Accessor.answer?_of_type typed
      exact .inl ⟨field, after, answer, taken, indexed, answers,
        Accessor.take_of_nextOf (same.trans taken) answers⟩
    · exact .inr ⟨error, refused,
        Accessor.take_of_refused (same.trans refused)⟩
  announced := by
    intro field after taken
    exact peekType_of_nextField taken
  unmoved := by
    intro error after failed
    rcases failed with refused | refused
    · rcases nextOf_cases accessor.type reader with
        ⟨field, moved, taken, typed⟩ | ⟨early, stopped⟩
      · obtain ⟨answer, answers⟩ := Accessor.answer?_of_type typed
        rw [Accessor.take_of_nextOf taken answers] at refused
        cases refused
      · rw [Accessor.take_of_refused stopped] at refused
        cases refused
        rfl
    · exact (nextField_error refused).1
  answers := by
    intro field after taken
    rcases nextOf_cases accessor.type reader with
      ⟨found, moved, again, typed⟩ | ⟨error, refused⟩
    · rw [taken] at again
      cases again
      exact Accessor.answer?_of_type typed
    · rw [taken] at refused
      cases refused

end Reader

end TagWire
