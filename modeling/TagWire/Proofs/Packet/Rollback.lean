import TagWire.Proofs.Session

/-!
# What a refused record leaves behind

A record is written in two pieces, and each of them makes room for all of its
bytes before it touches the memory.  So when a record is refused, either nothing
has been written or the whole tag has, and the cursor goes back before it.  Old
bytes may stand where the tag is left, since a cursor that has been set back is
written over.
-/

namespace TagWire

namespace Writer

open Buffer

theorem append_overlaid {field : Field} {writer after : Writer}
    {error : WireError}
    (inside : writer.buffer.position ≤ writer.buffer.extent)
    (failed : append field writer = .error error after) :
    ∃ residue spare, (residue = [] ∨ field.tag.encode = .ok residue) ∧
      Overlaid residue spare writer.buffer after.buffer := by
  rcases append_error_cases failed with
    ⟨_, _, rfl⟩ | ⟨_, buffer, wrote, rfl⟩
  · exact ⟨[], 0, .inl rfl, .refl inside⟩
  · obtain ⟨⟨residue, spare, form, overlaid⟩, _⟩ :=
      writeRecord_error inside wrote
    exact ⟨residue, spare, form, overlaid.moveTo _⟩

/-- Only a call that adds a field can fail. -/
theorem Call.field?_of_error {call : Call} {writer after : Writer}
    {error : WireError} (failed : call.perform writer = .error error after) :
    ∃ field, call.field? = some field := by
  cases call with
  | append field => exact ⟨field, rfl⟩
  | appendEof => exact ⟨_, rfl⟩
  | finish => exact ⟨_, rfl⟩
  | clear => cases failed

/-- A call that fails on a writer over any memory that has come to be leaves the
packet and the cursor as they were.  In the memory it leaves the whole tag of its
field behind the cursor, or nothing, and no other byte changes.  Only memory that
can grow may be longer, by zero bytes. -/
theorem failed_call_leaves_at_most_tag {origin : Buffer}
    {writer after : Writer} {call : Call} {error : WireError}
    (built : Built origin)
    (reached : Session.Reached origin (.writer writer))
    (failed : call.perform writer = .error error after) :
    after.fieldCount = writer.fieldCount ∧
      after.finished = writer.finished ∧
      after.bytes = writer.bytes ∧
      after.buffer.position = writer.buffer.position ∧
      ∃ field residue spare, call.field? = some field ∧
        (residue = [] ∨ field.tag.encode = .ok residue) ∧
        Overlaid residue spare writer.buffer after.buffer ∧
        ∀ place < writer.buffer.extent,
          (place < writer.buffer.position ∨
            writer.buffer.position + residue.length ≤ place) →
          after.buffer.content[place]? = writer.buffer.content[place]? := by
  have inside : writer.buffer.position ≤ writer.buffer.extent :=
    (reached.memory_sound built).1.inside
  obtain ⟨field, adds⟩ := Call.field?_of_error failed
  rw [Call.perform_of_field? adds] at failed
  obtain ⟨kept, _⟩ := append_error inside failed
  obtain ⟨residue, spare, form, overlaid⟩ := append_overlaid inside failed
  refine ⟨kept.count_eq, kept.finished_eq, kept.bytes_eq, kept.position_eq,
    field, residue, spare, adds, form, overlaid, ?_⟩
  intro place present outside
  exact overlaid.untouched inside present outside

/-- The tag of a number takes the first of two bytes, and the number has no room
behind it. -/
theorem failed_call_leaves_at_most_tag_in_little_memory :
    let writer := borrowed [7, 7]
    let after := leaves (append ⟨1, .uint 300⟩) writer
    Session.Reached (Buffer.borrowed [7, 7]) (.writer writer) ∧
      after.buffer.content = [25, 7] ∧
      after.fieldCount = 0 ∧ after.finished = false ∧ after.bytes = [] ∧
      after.buffer.position = 0 := by
  intro writer after
  have built : Built (Buffer.borrowed [7, 7]) := .borrowed (by decide)
  have reached : Session.Reached (Buffer.borrowed [7, 7]) (.writer writer) :=
    Session.Reached.start.step (.openWriter _)
  have failed : (Call.append ⟨1, .uint 300⟩).perform writer =
      .error (.capacityExhausted 2 1) after := rfl
  obtain ⟨count, finished, bytes, position, _⟩ :=
    failed_call_leaves_at_most_tag built reached failed
  exact ⟨reached, by decide, count, finished, bytes, position⟩

end Writer

end TagWire
