import TagWire.Packet.Reader
import TagWire.Proofs.Field

/-!
# Reading written records

Records that stand one behind the other are read back one by one, and nothing
behind the last of them is looked at.  Taking a whole packet at once and taking
its records one at a time lead to the same fields and the same place.
-/

namespace TagWire

namespace Packet

theorem decode_end {bytes : List UInt8} {field : Field} {length : Nat}
    (read : Field.decode bytes = .ok (field, length))
    (ends : field.value = .eof) :
    decode bytes = .ok ([field], length) := by
  rw [decode]
  split
  · rename_i failed
    rw [read] at failed
    cases failed
  · rename_i again
    rw [read] at again
    cases again
    rw [if_pos ends]

theorem decode_more {bytes : List UInt8} {field : Field} {length : Nat}
    (read : Field.decode bytes = .ok (field, length))
    (goesOn : field.value ≠ .eof) :
    decode bytes = (decode (bytes.drop length)).map fun (fields, rest) =>
      (field :: fields, length + rest) := by
  rw [decode]
  split
  · rename_i failed
    rw [read] at failed
    cases failed
  · rename_i again
    rw [read] at again
    cases again
    rw [if_neg goesOn]

end Packet

theorem Packet.decode_written {fields : List Field} {packet : List UInt8}
    (written : Field.Written (fields ++ [Field.ending]) packet)
    (plain : ∀ field ∈ fields, field.value ≠ .eof)
    (addressed : packet.length < Word.limit) (trailing : List UInt8) :
    Packet.decode (packet ++ trailing) =
      .ok (fields.map Field.stripped ++ [Field.ending], packet.length) := by
  induction fields generalizing packet with
  | nil =>
      cases written with
      | @cons _ _ record _ encoded nothing =>
          cases nothing
          rw [List.append_nil] at addressed ⊢
          exact decode_end (Field.decode_reads encoded addressed trailing) rfl
  | cons field fields induction =>
      cases written with
      | @cons _ _ record bytes encoded behind =>
          rw [List.length_append] at addressed
          have read := Field.decode_reads encoded
            (Nat.lt_of_le_of_lt (Nat.le_add_right _ _) addressed)
            (bytes ++ trailing)
          have goesOn : field.stripped.value ≠ .eof := by
            rw [field.stripped_value]
            exact plain field List.mem_cons_self
          have rest := induction behind
            (fun other member => plain other (List.mem_cons_of_mem _ member))
            (Nat.lt_of_le_of_lt (Nat.le_add_left _ _) addressed)
          rw [List.append_assoc, decode_more read goesOn, List.drop_left, rest,
            List.length_append]
          rfl

namespace Reader

/-- Takes a number of records one at a time. -/
def nextFields : Nat → ReaderM (List Field)
  | 0 => pure []
  | count + 1 => do
    let field ← nextField
    let fields ← nextFields count
    return field :: fields

/-- The reader with its cursor further on. -/
def skip (length : Nat) (reader : Reader) : Reader :=
  { buffer :=
      { reader.buffer with position := reader.buffer.position + length } }

theorem unread_skip (length : Nat) (reader : Reader) :
    (reader.skip length).buffer.unread = reader.buffer.unread.drop length := by
  simp only [skip, Buffer.unread]
  rw [List.drop_drop]

theorem skip_front {reader : Reader} {front behind : List UInt8}
    (atStart : reader.buffer.position = 0)
    (content : reader.buffer.content = front ++ behind) :
    (reader.skip front.length).buffer.position = front.length ∧
      (reader.skip front.length).buffer.remainder = behind.length := by
  simp only [skip, Buffer.remainder, Buffer.extent, atStart, content,
    List.length_append, Nat.zero_add, Nat.add_sub_cancel_left, and_self]

theorem fields_of_decode {reader : Reader} {fields : List Field}
    {length : Nat}
    (decoded : Packet.decode reader.buffer.unread = .ok (fields, length)) :
    Reader.fields reader = .ok fields (reader.skip length) := by
  simp only [Reader.fields, decoded]
  rfl

theorem nextField_of_decode {reader : Reader} {field : Field} {length : Nat}
    (decoded : Field.decode reader.buffer.unread = .ok (field, length)) :
    nextField reader = .ok field (reader.skip length) := by
  simp only [nextField, onBuffer, Buffer.takeWith, decoded]
  rfl

theorem nextFields_succ {reader after : Reader} {field : Field}
    (first : nextField reader = .ok field after) (count : Nat) :
    nextFields (count + 1) reader =
      match nextFields count after with
      | .ok fields last => .ok (field :: fields) last
      | .error error last => .error error last := by
  simp only [nextFields, bind, EStateM.bind, first]
  cases nextFields count after <;> rfl

theorem nextFields_written {fields : List Field} {bytes trailing : List UInt8}
    {reader : Reader} (written : Field.Written fields bytes)
    (addressed : bytes.length < Word.limit)
    (stands : reader.buffer.unread = bytes ++ trailing) :
    nextFields fields.length reader =
      .ok (fields.map Field.stripped) (reader.skip bytes.length) := by
  induction written generalizing reader with
  | nil => rfl
  | @cons field fields record bytes encoded behind induction =>
      rw [List.length_append] at addressed
      rw [List.append_assoc] at stands
      have read := Field.decode_reads encoded
        (Nat.lt_of_le_of_lt (Nat.le_add_right _ _) addressed)
        (bytes ++ trailing)
      rw [← stands] at read
      have standsBehind :
          (reader.skip record.length).buffer.unread = bytes ++ trailing := by
        rw [unread_skip, stands, List.drop_left]
      have rest := induction
        (Nat.lt_of_le_of_lt (Nat.le_add_left _ _) addressed) standsBehind
      rw [List.length_cons, nextFields_succ (nextField_of_decode read), rest]
      simp only [skip, List.map_cons, List.length_append, Nat.add_assoc]

/-- The bytes of a packet are read to their end, whatever follows them. -/
theorem fields_written {fields : List Field} {packet trailing : List UInt8}
    {reader : Reader}
    (written : Field.Written (fields ++ [Field.ending]) packet)
    (plain : ∀ field ∈ fields, field.value ≠ .eof)
    (addressed : packet.length < Word.limit)
    (stands : reader.buffer.unread = packet ++ trailing) :
    Reader.fields reader =
      .ok (fields.map Field.stripped ++ [Field.ending])
        (reader.skip packet.length) := by
  apply fields_of_decode
  rw [stands]
  exact Packet.decode_written written plain addressed trailing

end Reader

end TagWire
