import TagWire.Packet.Writer
import TagWire.Proofs.Buffer.Writing
import TagWire.Proofs.Field

/-!
# What a writer's bytes are

An append either refuses and leaves the packet as it is, or puts the whole
record of its field behind the packet.  A tag whose value finds no room does not
show, since the cursor goes back before it.  So through any run of calls the
bytes of a writer are those of the fields that were taken, and the counter and
the end of the packet follow from the same fields.
-/

namespace TagWire

namespace Writer

open Buffer

theorem writeRecord_eq (field : Field) (buffer : Buffer) :
    writeRecord field buffer =
      match writeEncoded field.tag.encode buffer with
      | .ok () after => writeEncoded field.value.encode after
      | .error error after => .error error after := by
  simp only [writeRecord, bind, EStateM.bind]
  cases writeEncoded field.tag.encode buffer <;> rfl

theorem writeRecord_ok {field : Field} {buffer after : Buffer}
    (inside : buffer.position ≤ buffer.extent)
    (wrote : writeRecord field buffer = .ok () after) :
    ∃ record, field.encode = .ok record ∧ Wrote record buffer after := by
  rw [writeRecord_eq] at wrote
  cases tagged : writeEncoded field.tag.encode buffer with
  | error error unchanged =>
      rw [tagged] at wrote
      cases wrote
  | ok answer middle =>
      rw [tagged] at wrote
      obtain ⟨tag, tagEncoded, tagWrite⟩ := writeEncoded_ok tagged
      obtain ⟨body, bodyEncoded, bodyWrite⟩ := writeEncoded_ok wrote
      have tagWrote := write_ok inside tagWrite
      have bodyWrote := write_ok tagWrote.inside bodyWrite
      exact ⟨tag ++ body, Field.encode_ok.mpr
        ⟨tag, body, tagEncoded, bodyEncoded, rfl⟩, tagWrote.trans bodyWrote⟩

/-- Why a record was not written: its tag has no form, or there is no room. -/
def Refusal (field : Field) (growable : Bool) (error : WireError) : Prop :=
  (field.tag.encode = .error error) ∨
    (∃ requested, error = .allocationFailed requested) ∨
    (growable = false ∧
      (error = .readOnly ∨
        ∃ needed remainder, error = .capacityExhausted needed remainder))

theorem Refusal.of_reserve {field : Field} {needed : Nat}
    {buffer after : Buffer} {error : WireError}
    (failed : reserve needed buffer = .error error after) :
    Refusal field buffer.holding.isGrowable error := by
  rcases (reserve_error failed).2 with
    allocation | ⟨readOnly, viewed⟩ | ⟨exhausted, fixed⟩
  · exact .inr (.inl allocation)
  · exact .inr (.inr ⟨by rw [viewed]; rfl, .inl readOnly⟩)
  · exact .inr (.inr ⟨fixed, .inr ⟨_, _, exhausted⟩⟩)

/-- A record that was not written has left its tag in the memory, or nothing. -/
theorem writeRecord_error {field : Field} {buffer after : Buffer}
    {error : WireError} (inside : buffer.position ≤ buffer.extent)
    (failed : writeRecord field buffer = .error error after) :
    (∃ residue spare, (residue = [] ∨ field.tag.encode = .ok residue) ∧
        Overlaid residue spare buffer after) ∧
      Refusal field buffer.holding.isGrowable error := by
  rw [writeRecord_eq] at failed
  cases tagged : writeEncoded field.tag.encode buffer with
  | error tagError unchanged =>
      rw [tagged] at failed
      cases failed
      obtain ⟨rfl, reason⟩ := writeEncoded_error tagged
      refine ⟨⟨[], 0, .inl rfl, .refl inside⟩, ?_⟩
      rcases reason with unencoded | ⟨bytes, _, refused⟩
      · exact .inl unencoded
      · exact .of_reserve refused
  | ok answer middle =>
      rw [tagged] at failed
      obtain ⟨tag, encoded, tagWrite⟩ := writeEncoded_ok tagged
      obtain ⟨spare, overlaid⟩ := write_overlaid inside tagWrite
      -- The value was refused before any of it was written, so the memory is as
      -- the tag left it.
      obtain ⟨rfl, reason⟩ := writeEncoded_error failed
      refine ⟨⟨tag, spare, .inr encoded, overlaid⟩, ?_⟩
      obtain ⟨body, valued⟩ := field.value.encode_total
      rw [valued] at reason
      rcases reason with impossible | ⟨bytes, _, refused⟩
      · cases impossible
      · rw [← overlaid.growable_eq]
        exact .of_reserve refused

/-- The packet is longer by the record of a field. -/
structure Took (field : Field) (record : List UInt8)
    (writer after : Writer) : Prop where
  encoded : field.encode = .ok record
  bytes_eq : after.bytes = writer.bytes ++ record
  position_eq : after.buffer.position = writer.buffer.position + record.length
  count_eq : after.fieldCount = writer.fieldCount + 1
  finished_iff : after.finished = true ↔ field.value = .eof
  growable_eq : after.buffer.holding.isGrowable =
    writer.buffer.holding.isGrowable
  addressed : after.buffer.position < addressLimit
  inside : after.buffer.position ≤ after.buffer.extent

/-- The packet is as it was. -/
structure Kept (writer after : Writer) : Prop where
  bytes_eq : after.bytes = writer.bytes
  position_eq : after.buffer.position = writer.buffer.position
  count_eq : after.fieldCount = writer.fieldCount
  finished_eq : after.finished = writer.finished
  growable_eq : after.buffer.holding.isGrowable =
    writer.buffer.holding.isGrowable
  inside : after.buffer.position ≤ after.buffer.extent

theorem append_finished {writer : Writer} (closed : writer.finished = true)
    (field : Field) :
    append field writer = .error .packetFinished writer := by
  rw [append, if_pos closed]

theorem append_opened {writer : Writer} (opened : writer.finished = false)
    (field : Field) :
    append field writer =
      match writeRecord field writer.buffer with
      | .ok () buffer =>
        .ok () {
          buffer
          fieldCount := writer.fieldCount + 1
          finished := field.value.type == .eof }
      | .error error buffer =>
        .error error
          { writer with buffer := buffer.moveTo writer.buffer.position } := by
  cases wrote : writeRecord field writer.buffer <;>
    simp [append, opened, wrote]

theorem type_eq_eof_iff (value : Value) :
    (value.type == .eof) = true ↔ value = .eof := by
  cases value <;> simp [Value.type]

theorem append_ok {field : Field} {writer after : Writer}
    (inside : writer.buffer.position ≤ writer.buffer.extent)
    (appended : append field writer = .ok () after) :
    writer.finished = false ∧ ∃ record, Took field record writer after := by
  cases closed : writer.finished with
  | true =>
      rw [append_finished closed] at appended
      cases appended
  | false =>
      rw [append_opened closed] at appended
      cases wrote : writeRecord field writer.buffer with
      | error error unchanged =>
          rw [wrote] at appended
          cases appended
      | ok answer buffer =>
          rw [wrote] at appended
          cases appended
          obtain ⟨record, encoded, effect⟩ := writeRecord_ok inside wrote
          exact ⟨rfl, record, {
            encoded := encoded
            bytes_eq := effect.written_eq
            position_eq := effect.position_eq
            count_eq := rfl
            finished_iff := type_eq_eof_iff field.value
            growable_eq := effect.growable_eq
            addressed := effect.addressed
            inside := effect.inside }⟩

theorem append_error_cases {field : Field} {writer after : Writer}
    {error : WireError} (failed : append field writer = .error error after) :
    (writer.finished = true ∧ error = .packetFinished ∧ after = writer) ∨
      (writer.finished = false ∧ ∃ buffer,
        writeRecord field writer.buffer = .error error buffer ∧
          after =
            { writer with buffer := buffer.moveTo writer.buffer.position }) := by
  cases closed : writer.finished with
  | true =>
      rw [append_finished closed] at failed
      cases failed
      exact .inl ⟨rfl, rfl, rfl⟩
  | false =>
      rw [append_opened closed] at failed
      cases wrote : writeRecord field writer.buffer with
      | ok answer buffer =>
          rw [wrote] at failed
          cases failed
      | error refusal buffer =>
          rw [wrote] at failed
          cases failed
          exact .inr ⟨rfl, buffer, rfl, by rw [closed]⟩

theorem append_error {field : Field} {writer after : Writer}
    {error : WireError}
    (inside : writer.buffer.position ≤ writer.buffer.extent)
    (failed : append field writer = .error error after) :
    Kept writer after ∧
      ((writer.finished = true ∧ error = .packetFinished) ∨
        (writer.finished = false ∧
          Refusal field writer.buffer.holding.isGrowable error)) := by
  rcases append_error_cases failed with
    ⟨closed, rfl, rfl⟩ | ⟨opened, buffer, wrote, rfl⟩
  · exact ⟨⟨rfl, rfl, rfl, rfl, rfl, inside⟩, .inl ⟨closed, rfl⟩⟩
  · obtain ⟨⟨residue, spare, _, overlaid⟩, reason⟩ :=
      writeRecord_error inside wrote
    have room := Nat.le_trans (Nat.le_add_right _ _) overlaid.inside
    exact ⟨⟨overlaid.front inside, rfl, rfl, rfl, overlaid.growable_eq, room⟩,
      .inr ⟨opened, reason⟩⟩

theorem finish_eq (writer : Writer) :
    finish writer =
      match append Field.ending writer with
      | .ok () after => .ok after.bytes after
      | .error error after => .error error after := by
  simp only [finish, appendEof, Field.ending, bind, EStateM.bind]
  cases append { index := 0, value := .eof } writer <;> rfl

theorem Refusal.ne_packetFinished {field : Field} {growable : Bool}
    {error : WireError} (refusal : Refusal field growable error) :
    error ≠ .packetFinished := by
  rintro rfl
  rcases refusal with tagged | ⟨_, allocation⟩ | ⟨_, readOnly | ⟨_, _, exhausted⟩⟩
  · cases (Tag.encode_error tagged).1
  · cases allocation
  · cases readOnly
  · cases exhausted

end Writer

end TagWire
