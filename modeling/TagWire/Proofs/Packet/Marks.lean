import TagWire.Proofs.Packet.Accessors
import TagWire.Proofs.Session

/-!
# What becomes of a mark

A packet that cannot go on puts the cursor back by the move that callers make
too, and this move takes a mark that lies behind the new place along.  So a mark
that lies at the cursor or before it outlasts every call of a packet, while a
mark further on is lost to a record that cannot be written and to a packet that
has no end.  Nothing is lost to a call that undoes nothing: to one on a closed
packet, and to one that reads a single record.
-/

namespace TagWire

open Buffer

/-- What a failed call does to a buffer: the cursor stays, and `reset` leads to
where it led before exactly under a condition, and otherwise to the cursor. -/
structure MarkKeptIff (kept : Prop) (buffer after : Buffer) : Prop where
  position_eq : after.position = buffer.position
  reset_iff : after.reset.position = buffer.reset.position ↔ kept
  reset_of_not : ¬kept → after.reset.position = buffer.position

namespace MarkKeptIff

theorem refl (buffer : Buffer) {kept : Prop} (holds : kept) :
    MarkKeptIff kept buffer buffer where
  position_eq := rfl
  reset_iff := iff_of_true rfl holds
  reset_of_not := fun lost => (lost holds).elim

/-- The cursor was moved away, and back to where it was. -/
theorem of_moveTo {buffer moved : Buffer} (marked : moved.mark = buffer.mark)
    {kept : Prop} (iff : kept ↔ buffer.mark ≤ buffer.position) :
    MarkKeptIff kept buffer (moved.moveTo buffer.position) where
  position_eq := rfl
  reset_iff := by
    simp only [reset, moveTo, marked, iff]
    omega
  reset_of_not := by
    simp only [reset, moveTo, marked, iff]
    omega

end MarkKeptIff

/-- The mark lies at the cursor or before it, and lies there still. -/
structure MarkPassed (buffer after : Buffer) : Prop where
  mark_eq : after.mark = buffer.mark
  passed : after.mark ≤ after.position

theorem MarkPassed.trans {buffer middle after : Buffer}
    (first : MarkPassed buffer middle) (second : MarkPassed middle after) :
    MarkPassed buffer after where
  mark_eq := second.mark_eq.trans first.mark_eq
  passed := second.passed

/-! ## Writing -/

namespace Writer

theorem write_mark {bytes : List UInt8} {buffer after : Buffer}
    (wrote : write bytes buffer = .ok () after) :
    after.mark = buffer.mark ∧ buffer.position ≤ after.position := by
  obtain ⟨roomy, made, rfl⟩ := write_ok_cases wrote
  have reserved := reserve_ok made
  refine ⟨reserved.mark_eq, ?_⟩
  rw [← reserved.position_eq]
  exact Nat.le_add_right _ _

theorem writeEncoded_mark (outcome : Except WireError (List UInt8))
    (buffer : Buffer) :
    (leaves (writeEncoded outcome) buffer).mark = buffer.mark ∧
      buffer.position ≤ (leaves (writeEncoded outcome) buffer).position := by
  cases wrote : writeEncoded outcome buffer with
  | ok answer after =>
      obtain ⟨bytes, _, whole⟩ := writeEncoded_ok wrote
      rw [leaves_ok wrote]
      exact write_mark whole
  | error error after =>
      obtain ⟨rfl, _⟩ := writeEncoded_error wrote
      rw [leaves_error wrote]
      exact ⟨rfl, Nat.le_refl _⟩

/-- Neither the tag nor the value touches the mark. -/
theorem writeRecord_mark (field : Field) (buffer : Buffer) :
    (leaves (writeRecord field) buffer).mark = buffer.mark ∧
      buffer.position ≤ (leaves (writeRecord field) buffer).position := by
  have tag := writeEncoded_mark field.tag.encode buffer
  cases tagged : writeEncoded field.tag.encode buffer with
  | error error after =>
      rw [leaves_error tagged] at tag
      rw [writeRecord, leaves_bind_error tagged]
      exact tag
  | ok answer middle =>
      rw [leaves_ok tagged] at tag
      have value := writeEncoded_mark field.value.encode middle
      rw [writeRecord, leaves_bind tagged]
      exact ⟨value.1.trans tag.1, Nat.le_trans tag.2 value.2⟩

theorem append_error_mark {field : Field} {writer after : Writer}
    {error : WireError} (failed : append field writer = .error error after) :
    MarkKeptIff
      (writer.finished = true ∨ writer.buffer.mark ≤ writer.buffer.position)
      writer.buffer after.buffer := by
  rcases append_error_cases failed with
    ⟨closed, _, rfl⟩ | ⟨opened, buffer, wrote, rfl⟩
  · exact .refl _ (.inl closed)
  · have marked := (writeRecord_mark field writer.buffer).1
    rw [leaves_error wrote] at marked
    exact .of_moveTo marked (by simp [opened])

theorem Call.perform_finish : finish.perform = Writer.append Field.ending :=
  @perform_of_field? finish _ rfl

/-- A call that adds no field cannot fail. -/
theorem Call.error_mark {call : Call} {writer after : Writer}
    {error : WireError} (failed : call.perform writer = .error error after) :
    MarkKeptIff
      (writer.finished = true ∨ writer.buffer.mark ≤ writer.buffer.position)
      writer.buffer after.buffer := by
  cases call with
  | append field => exact append_error_mark failed
  | appendEof => exact append_error_mark failed
  | finish =>
      rw [perform_finish] at failed
      exact append_error_mark failed
  | clear => cases failed

theorem append_passed (field : Field) {writer : Writer}
    (passed : writer.buffer.mark ≤ writer.buffer.position) :
    MarkPassed writer.buffer (leaves (append field) writer).buffer := by
  cases appended : append field writer with
  | error error after =>
      have fate := append_error_mark appended
      rw [leaves_error appended]
      have same : after.buffer.mark = writer.buffer.mark :=
        fate.reset_iff.mpr (.inr passed)
      exact ⟨same, by rw [same, fate.position_eq]; exact passed⟩
  | ok answer after =>
      cases closed : writer.finished with
      | true =>
          rw [append_finished closed] at appended
          cases appended
      | false =>
          rw [leaves_ok appended]
          have record := writeRecord_mark field writer.buffer
          rw [append_opened closed] at appended
          cases wrote : writeRecord field writer.buffer with
          | error error middle =>
              rw [wrote] at appended
              cases appended
          | ok answer middle =>
              rw [wrote] at appended
              rw [leaves_ok wrote] at record
              cases appended
              exact ⟨record.1,
                Nat.le_trans (Nat.le_of_eq record.1)
                  (Nat.le_trans passed record.2)⟩

theorem Call.leaves_passed {call : Call} (appends : call ≠ .clear)
    {writer : Writer}
    (passed : writer.buffer.mark ≤ writer.buffer.position) :
    MarkPassed writer.buffer (leaves call.perform writer).buffer := by
  cases call with
  | append field => exact append_passed field passed
  | appendEof => exact append_passed _ passed
  | finish =>
      rw [perform_finish]
      exact append_passed _ passed
  | clear => exact (appends rfl).elim

/-- Clearing a packet takes the mark to the start; nothing else takes along a
mark that the cursor has reached. -/
theorem run_passed {calls : List Call} (appends : Call.clear ∉ calls)
    {writer : Writer}
    (passed : writer.buffer.mark ≤ writer.buffer.position) :
    MarkPassed writer.buffer (run calls writer).2.buffer := by
  induction calls generalizing writer with
  | nil => exact ⟨rfl, passed⟩
  | cons call calls induction =>
      rw [List.mem_cons, not_or] at appends
      have first := call.leaves_passed (Ne.symm appends.1) passed
      have left : (call.answer writer).2 = leaves call.perform writer := by
        simp only [Call.answer, leaves]
        cases call.perform writer <;> rfl
      rw [← left] at first
      exact first.trans (induction appends.2 first.passed)

end Writer

/-! ## Reading -/

namespace Reader

theorem nextField_of_nextOf {expected : FieldType} {reader after : Reader}
    {field : Field} (taken : nextOf expected reader = .ok field after) :
    nextField reader = .ok field after := by
  rw [nextOf_eq] at taken
  split at taken
  · cases taken
  · split at taken
    · exact taken
    · cases taken

/-- An accessor moves past a record, or does nothing. -/
theorem Accessor.take_cases (accessor : Accessor) (reader : Reader) :
    (∃ answer length,
        accessor.take reader = .ok answer (reader.skip length)) ∨
      ∃ error, accessor.take reader = .error error reader := by
  rcases nextOf_cases accessor.type reader with
    ⟨field, after, taken, typed⟩ | ⟨error, refused⟩
  · obtain ⟨answer, answers⟩ := answer?_of_type typed
    obtain ⟨length, _, rfl⟩ := nextField_ok (nextField_of_nextOf taken)
    exact .inl ⟨answer, length, take_of_nextOf taken answers⟩
  · exact .inr ⟨error, take_of_refused refused⟩

/-- What a call can do to a reader: it moves on, or it fails and does nothing, or
the packet has no end and the cursor comes back from the search for it. -/
inductive Outcome (call : Call) (reader : Reader) : Prop where
  | moved (length : Nat) :
      call.perform reader = .ok () (reader.skip length) → Outcome call reader
  | refused (error : WireError) : call ≠ .fields →
      call.perform reader = .error error reader → Outcome call reader
  | endless (error : WireError) : call = .fields →
      call.perform reader = .error error
        { buffer := reader.buffer.moveTo reader.buffer.position } →
      Outcome call reader

theorem outcome_of_take (accessor : Accessor) {call : Call} {reader : Reader}
    (single : call ≠ .fields)
    (takes : call.perform = silently accessor.take) : Outcome call reader := by
  rcases accessor.take_cases reader with
    ⟨answer, length, taken⟩ | ⟨error, refused⟩
  · refine .moved length ?_
    simp only [takes, silently, taken]
  · refine .refused error single ?_
    simp only [takes, silently, refused]

theorem Call.outcome (call : Call) (reader : Reader) : Outcome call reader := by
  cases call with
  | peekType =>
      cases peeked : reader.peekType with
      | ok found =>
          refine .moved 0 ?_
          simp only [perform, ask, peeked]
          rfl
      | error error =>
          refine .refused error (by decide) ?_
          simp only [perform, ask, peeked]
  | nextField =>
      cases taken : Reader.nextField reader with
      | ok field after =>
          obtain ⟨length, _, rfl⟩ := nextField_ok taken
          refine .moved length ?_
          simp only [perform, silently, taken]
      | error error after =>
          obtain ⟨rfl, _⟩ := nextField_error taken
          refine .refused error (by decide) ?_
          simp only [perform, silently, taken]
  | nextVersion => exact outcome_of_take .version (by decide) rfl
  | nextEof =>
      refine outcome_of_take .eof (by decide) ?_
      funext reader
      simp only [perform, silently, Accessor.take]
      cases Reader.nextEof reader <;> rfl
  | nextBool => exact outcome_of_take .bool (by decide) rfl
  | nextInt => exact outcome_of_take .int (by decide) rfl
  | nextUint => exact outcome_of_take .uint (by decide) rfl
  | nextFloat => exact outcome_of_take .float (by decide) rfl
  | nextDouble => exact outcome_of_take .double (by decide) rfl
  | nextText => exact outcome_of_take .text (by decide) rfl
  | nextBytes => exact outcome_of_take .bytes (by decide) rfl
  | fields =>
      cases decoded : Packet.decode reader.buffer.unread with
      | ok packet =>
          refine .moved packet.2 ?_
          simp only [perform, silently, fields_of_decode decoded]
      | error error =>
          refine .endless error rfl ?_
          simp only [perform, silently, fields_of_error decoded]

theorem Call.error_mark {call : Call} {reader after : Reader}
    {error : WireError} (failed : call.perform reader = .error error after) :
    MarkKeptIff
      (call ≠ .fields ∨ reader.buffer.mark ≤ reader.buffer.position)
      reader.buffer after.buffer := by
  cases call.outcome reader with
  | moved length done =>
      rw [done] at failed
      cases failed
  | refused early single refused =>
      rw [refused] at failed
      cases failed
      exact .refl _ (.inl single)
  | endless early whole refused =>
      rw [refused] at failed
      cases failed
      exact .of_moveTo rfl (by simp [whole])

theorem Call.leaves_passed (call : Call) {reader : Reader}
    (passed : reader.buffer.mark ≤ reader.buffer.position) :
    MarkPassed reader.buffer (leaves call.perform reader).buffer := by
  cases call.outcome reader with
  | moved length done =>
      rw [leaves_ok done]
      exact ⟨rfl, Nat.le_trans passed (Nat.le_add_right _ _)⟩
  | refused error single refused =>
      rw [leaves_error refused]
      exact ⟨rfl, passed⟩
  | endless error whole refused =>
      rw [leaves_error refused]
      exact ⟨Nat.min_eq_left passed, Nat.min_le_right _ _⟩

/-- Makes calls one after the other, whatever comes of them. -/
def run (calls : List Call) (reader : Reader) : Reader :=
  calls.foldl (fun before call => leaves call.perform before) reader

theorem run_passed (calls : List Call) {reader : Reader}
    (passed : reader.buffer.mark ≤ reader.buffer.position) :
    MarkPassed reader.buffer (run calls reader).buffer := by
  induction calls generalizing reader with
  | nil => exact ⟨rfl, passed⟩
  | cons call calls induction =>
      have first := call.leaves_passed passed
      exact first.trans (induction first.passed)

end Reader

/-! ## Both -/

/-- After a failed call of a packet the cursor is where it was, and `reset` leads
to where it led before exactly if the mark does not lie behind the cursor, or if
the call was one on a closed packet or one for a single record; otherwise it
leads to the cursor.  A mark that does not lie behind the cursor outlasts all
calls but clearing, however many of them fail. -/
theorem failed_packet_call_keeps_mark_iff (writer : Writer) (reader : Reader) :
    (∀ (call : Writer.Call) (after : Writer) (error : WireError),
      call.perform writer = .error error after →
        MarkKeptIff
          (writer.finished = true ∨
            writer.buffer.mark ≤ writer.buffer.position)
          writer.buffer after.buffer) ∧
    (∀ (call : Reader.Call) (after : Reader) (error : WireError),
      call.perform reader = .error error after →
        MarkKeptIff
          (call ≠ .fields ∨ reader.buffer.mark ≤ reader.buffer.position)
          reader.buffer after.buffer) ∧
    (writer.buffer.mark ≤ writer.buffer.position →
      ∀ calls : List Writer.Call, .clear ∉ calls →
        (Writer.run calls writer).2.buffer.reset.position =
          writer.buffer.reset.position) ∧
    (reader.buffer.mark ≤ reader.buffer.position →
      ∀ calls : List Reader.Call,
        (Reader.run calls reader).buffer.reset.position =
          reader.buffer.reset.position) :=
  ⟨fun _ _ _ => Writer.Call.error_mark, fun _ _ _ => Reader.Call.error_mark,
    fun passed _ appends => (Writer.run_passed appends passed).mark_eq,
    fun passed calls => (Reader.run_passed calls passed).mark_eq⟩

/-- The cursor has gone back to the start from a mark at the end of the memory.
A payload that finds no room takes the mark along, and so does the search for an
end that is not there. -/
theorem failed_packet_call_loses_mark_ahead :
    let lent := ((Buffer.borrowed [8, 1]).moveTo 2).setMark.rewind
    let writer := Writer.ofBuffer lent
    let reader := Reader.ofBuffer lent
    let wrote := leaves (Writer.append ⟨0, .bytes [1, 2, 3]⟩) writer
    let read := leaves Reader.fields reader
    lent.reset.position = 2 ∧
      Writer.append ⟨0, .bytes [1, 2, 3]⟩ writer =
        .error (.capacityExhausted 4 1) wrote ∧
      wrote.buffer.reset.position = 0 ∧
      Reader.fields reader = .error (.unexpectedEnd 1 0) read ∧
      read.buffer.reset.position = 0 := by
  intro lent writer reader wrote read
  have record : Field.decode reader.buffer.unread =
      .ok (⟨0, .bool true⟩, 2) := by decide
  have nothing : Field.decode (reader.buffer.unread.drop 2) =
      .error (.unexpectedEnd 1 0) := by decide
  have endless : Packet.decode reader.buffer.unread =
      .error (.unexpectedEnd 1 0) := by
    rw [Packet.decode_more record nofun, Packet.decode_of_error nothing]
    rfl
  have refused := Reader.fields_of_error endless
  have back : read = _ := leaves_error refused
  rw [back]
  exact ⟨rfl, rfl, rfl, refused, rfl⟩

end TagWire
