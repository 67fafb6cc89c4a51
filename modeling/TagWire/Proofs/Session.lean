import TagWire.Proofs.Buffer.Bounds
import TagWire.Proofs.Packet.History
import TagWire.Proofs.Packet.Walking

/-!
# One memory through many hands

Memory is used as a buffer, then handed to a writer or a reader of packets, and
back.  Each of them answers calls of its own, and a call that fails leaves the
memory in use.  Through any such session the memory stays sound, and the way it
is held is settled when it is built.  Two moves cut it down to what is written,
one of the buffer and one of the writer, and no other makes it shorter.
-/

namespace TagWire

open Buffer

namespace Writer

theorem writeRecord_preserves (field : Field) :
    Preserves id (writeRecord field) := by
  apply Preserves.bind
  · exact writeEncoded_preserves field.tag.encode
  · intro _
    exact writeEncoded_preserves field.value.encode

theorem writeRecord_continues {field : Field} {buffer middle : Buffer}
    {error : WireError} (sound : Sound buffer)
    (failed : writeRecord field buffer = .error error middle) :
    Continues buffer middle := by
  have continues := writeRecord_preserves field buffer sound
  rw [leaves_error failed] at continues
  exact continues

theorem append_preserves (field : Field) :
    Preserves Writer.buffer (append field) := by
  intro writer sound
  cases closed : writer.finished with
  | true =>
      rw [leaves_error (append_finished closed field)]
      exact sound.continues_refl
  | false =>
      cases wrote : writeRecord field writer.buffer with
      | ok answer buffer =>
          have continues := writeRecord_preserves field writer.buffer sound
          rw [leaves_ok wrote] at continues
          simpa [leaves, append, closed, wrote] using continues
      | error error middle =>
          -- The cursor goes back to where the record began, and the memory is
          -- no shorter than it was then.
          have continues := writeRecord_continues sound wrote
          have inside := Nat.le_trans sound.inside continues.extent_le
          have back := continues.trans (continues.sound.moveTo inside)
          simpa [leaves, append, closed, wrote] using back

theorem Call.preserves (call : Call) :
    Preserves Writer.buffer call.perform := by
  cases adds : call.field? with
  | some field =>
      rw [Call.perform_of_field? adds]
      exact append_preserves field
  | none =>
      cases call with
      | clear =>
          intro writer sound
          exact sound.continues_of_same rfl rfl (Nat.zero_le _) (Nat.zero_le _)
      | append field => cases adds
      | appendEof => cases adds
      | finish => cases adds

end Writer

namespace Reader

/-- What a caller can ask of a reader. -/
inductive Call
  | peekType
  | nextField
  | nextVersion
  | nextEof
  | nextBool
  | nextInt
  | nextUint
  | nextFloat
  | nextDouble
  | nextText
  | nextBytes
  | fields
  deriving DecidableEq, Repr

/-- Makes the call.  The records that it answers are dropped. -/
def Call.perform : Call → ReaderM Unit
  | peekType => ask Reader.peekType
  | nextField => silently Reader.nextField
  | nextVersion => silently Reader.nextVersion
  | nextEof => Reader.nextEof
  | nextBool => silently Reader.nextBool
  | nextInt => silently Reader.nextInt
  | nextUint => silently Reader.nextUint
  | nextFloat => silently Reader.nextFloat
  | nextDouble => silently Reader.nextDouble
  | nextText => silently Reader.nextText
  | nextBytes => silently Reader.nextBytes
  | fields => silently Reader.fields

/-- Actions that are put together of good ones are good. -/
structure Composes
    (good : ∀ {α : Type}, EStateM WireError Reader α → Prop) : Prop where
  pure : ∀ {α : Type} (answer : α), good (pure answer : ReaderM α)
  throw : ∀ {α : Type} (error : WireError), good (throw error : ReaderM α)
  state : good (get : ReaderM Reader)
  bind : ∀ {α β : Type} {action : ReaderM α} {rest : α → ReaderM β},
    good action → (∀ answer, good (rest answer)) → good (action >>= rest)
  silently : ∀ {α : Type} {action : ReaderM α},
    good action → good (silently action)
  ask : ∀ {α : Type} (question : Reader → Except WireError α),
    good (ask question)

section Parts

variable {good : ∀ {α : Type}, EStateM WireError Reader α → Prop}

theorem nextOf_of_parts (composes : Composes good)
    (nextField : good nextField) (expected : FieldType) :
    good (nextOf expected) := by
  apply composes.bind
  · exact composes.state
  · intro reader
    cases reader.peekType with
    | error error => exact composes.throw error
    | ok found =>
        by_cases same : found.1 = expected
        · simp only [same, if_true]
          exact nextField
        · simp only [same, if_false]
          exact composes.throw _

theorem nextContent_of_parts (composes : Composes good)
    (nextField : good nextField) {α : Type} (expected : FieldType)
    (content? : Value → Option α) : good (nextContent expected content?) := by
  apply composes.bind
  · exact nextOf_of_parts composes nextField expected
  · intro field
    cases content? field.value with
    | none => exact composes.throw _
    | some content => exact composes.pure _

/-- Every call is put together of looking, taking a record and taking a
packet. -/
theorem Call.perform_of_parts (call : Call) (composes : Composes good)
    (nextField : good Reader.nextField) (fields : good Reader.fields) :
    good call.perform := by
  cases call with
  | peekType => exact composes.ask _
  | nextField => exact composes.silently nextField
  | nextVersion =>
      apply composes.silently
      apply composes.bind
      · exact nextContent_of_parts composes nextField _ _
      · intro _
        exact composes.pure _
  | nextEof =>
      apply composes.bind
      · exact nextOf_of_parts composes nextField .eof
      · intro _
        exact composes.pure _
  | nextBool | nextInt | nextUint | nextFloat | nextDouble | nextText
  | nextBytes =>
      exact composes.silently (nextContent_of_parts composes nextField _ _)
  | fields => exact composes.silently fields

end Parts

theorem leaves_onBuffer {α : Type} (action : BufferM α) (reader : Reader) :
    (leaves (onBuffer action) reader).buffer = leaves action reader.buffer := by
  simp only [leaves, onBuffer]
  cases action reader.buffer <;> rfl

theorem onBuffer_preserves {α : Type} {action : BufferM α}
    (preserves : Preserves id action) :
    Preserves Reader.buffer (onBuffer action) := by
  intro reader sound
  rw [leaves_onBuffer]
  exact preserves reader.buffer sound

theorem preserves_composes :
    Composes fun action => Preserves Reader.buffer action where
  pure := .pure
  throw := .throw
  state := .state
  bind := .bind
  silently := .silently
  ask := .ask

theorem nextField_preserves : Preserves Reader.buffer nextField :=
  onBuffer_preserves (takeWith_preserves Field.decode_resumes)

theorem fields_preserves : Preserves Reader.buffer Reader.fields := by
  intro reader sound
  cases decoded : Packet.decode reader.buffer.unread with
  | error error =>
      rw [leaves_error (fields_of_error decoded)]
      exact sound.moveTo sound.inside
  | ok packet =>
      obtain ⟨fields, length⟩ := packet
      have present := Packet.decode_length_le decoded
      rw [length_unread] at present
      rw [leaves_ok (fields_of_decode decoded)]
      exact sound.advance present

theorem Call.preserves (call : Call) :
    Preserves Reader.buffer call.perform :=
  call.perform_of_parts preserves_composes nextField_preserves fields_preserves

end Reader

/-- Where the packets rely on the cursor without a check: the window of the
records that have been found, a record in a window, and the way back when a
record cannot be written or there is no end record. -/
structure RecordsInRange (buffer : Buffer) : Prop where
  window : ∀ after, Reader.skipToEnd (Reader.ofBuffer buffer) = .ok () after →
    buffer.position ≤ after.buffer.position ∧
      after.buffer.position ≤ after.buffer.extent
  record : ∀ window field length,
    Field.decode window = .ok (field, length) → length ≤ window.length
  readerGoesBack : ∀ error stopped,
    Reader.skipToEnd (Reader.ofBuffer buffer) = .error error stopped →
      setPosition buffer.position stopped.buffer =
        .ok () (buffer.moveTo buffer.position)
  writerGoesBack : ∀ field error middle,
    Writer.writeRecord field buffer = .error error middle →
      setPosition buffer.position middle =
        .ok () (middle.moveTo buffer.position)

theorem Buffer.Sound.recordsInRange {buffer : Buffer} (sound : Sound buffer) :
    RecordsInRange buffer := by
  constructor
  · intro after skipped
    obtain ⟨_, length, _, present, rfl⟩ := Reader.skipToEnd_ok skipped
    exact ⟨Nat.le_add_right _ _, (sound.advance present).sound.inside⟩
  · intro window field length read
    exact (Field.decode_length_bounds read).2
  · intro error stopped failed
    exact Reader.setPosition_of_skipToEnd sound.inside failed
  · intro field error middle failed
    have continues := Writer.writeRecord_continues sound failed
    exact setPosition_of_le (Nat.le_trans sound.inside continues.extent_le)

/-- What memory is used as. -/
inductive Session
  | buffer (buffer : Buffer)
  | writer (writer : Writer)
  | reader (reader : Reader)

namespace Session

def memory : Session → Buffer
  | .buffer held => held
  | .writer held => held.buffer
  | .reader held => held.buffer

/-- One call, whatever comes of it, or one change of hands. -/
inductive Step : Session → Session → Prop where
  | call (call : Buffer.Call) (before : Buffer) :
      Step (buffer before) (buffer (leaves call.perform before))
  | openWriter (before : Buffer) :
      Step (buffer before) (writer (Writer.ofBuffer before))
  | openReader (before : Buffer) :
      Step (buffer before) (reader (Reader.ofBuffer before))
  | write (call : Writer.Call) (before : Writer) :
      Step (writer before) (writer (leaves call.perform before))
  | leaveWriter (before : Writer) :
      Step (writer before) (buffer before.buffer)
  | handOver (before : Writer) :
      Step (writer before) (reader before.intoReader)
  | read (call : Reader.Call) (before : Reader) :
      Step (reader before) (reader (leaves call.perform before))
  | leaveReader (before : Reader) :
      Step (reader before) (buffer before.buffer)

/-- What memory can come to that was built as a buffer. -/
inductive Reached (origin : Buffer) : Session → Prop where
  | start : Reached origin (buffer origin)
  | step {session next : Session} :
      Reached origin session → Step session next → Reached origin next

/-! ## Moves -/

/-- One call or one change of hands. -/
inductive Move
  | call (call : Buffer.Call)
  | openWriter
  | openReader
  | write (call : Writer.Call)
  | handOver
  | read (call : Reader.Call)
  | leave

namespace Move

/-- Makes the move.  A move that is not open to the session changes nothing. -/
def make : Move → Session → Session
  | call asked, .buffer held => .buffer (leaves asked.perform held)
  | openWriter, .buffer held => .writer (Writer.ofBuffer held)
  | openReader, .buffer held => .reader (Reader.ofBuffer held)
  | write asked, .writer held => .writer (leaves asked.perform held)
  | handOver, .writer held => .reader held.intoReader
  | leave, .writer held => .buffer held.buffer
  | read asked, .reader held => .reader (leaves asked.perform held)
  | leave, .reader held => .buffer held.buffer
  | _, session => session

/-- The move cuts the extent down to the written bytes. -/
inductive Cuts : Move → Session → Prop where
  | intoWritten (held : Buffer) : Cuts (call .intoWritten) (.buffer held)
  | handOver (held : Writer) : Cuts handOver (.writer held)

end Move

/-- A move is a step, or it was not open to the session. -/
theorem Move.make_cases (move : Move) (session : Session) :
    Step session (move.make session) ∨ move.make session = session := by
  cases session with
  | buffer held =>
      cases move with
      | call asked => exact .inl (.call asked held)
      | openWriter => exact .inl (.openWriter held)
      | openReader => exact .inl (.openReader held)
      | _ => exact .inr rfl
  | writer held =>
      cases move with
      | write asked => exact .inl (.write asked held)
      | handOver => exact .inl (.handOver held)
      | leave => exact .inl (.leaveWriter held)
      | _ => exact .inr rfl
  | reader held =>
      cases move with
      | read asked => exact .inl (.read asked held)
      | leave => exact .inl (.leaveReader held)
      | _ => exact .inr rfl

theorem Step.exists_move {session next : Session} (step : Step session next) :
    ∃ move : Move, move.make session = next := by
  cases step with
  | call asked held => exact ⟨.call asked, rfl⟩
  | openWriter held => exact ⟨.openWriter, rfl⟩
  | openReader held => exact ⟨.openReader, rfl⟩
  | write asked held => exact ⟨.write asked, rfl⟩
  | leaveWriter held => exact ⟨.leave, rfl⟩
  | handOver held => exact ⟨.handOver, rfl⟩
  | read asked held => exact ⟨.read asked, rfl⟩
  | leaveReader held => exact ⟨.leave, rfl⟩

/-! ## Bounds -/

theorem Move.make_of_cuts {move : Move} {session : Session}
    (cuts : move.Cuts session) :
    (move.make session).memory = session.memory.intoWritten := by
  cases cuts with
  | intoWritten held => rfl
  | handOver held => rfl

/-- Every move that does not cut the memory goes on with it. -/
theorem Move.make_continues {move : Move} {session : Session}
    (keeps : ¬move.Cuts session) (sound : Sound session.memory) :
    Continues session.memory (move.make session).memory := by
  have unmoved : Continues session.memory session.memory :=
    sound.continues_refl
  cases session with
  | buffer held =>
      cases move with
      | call asked =>
          refine asked.continues ?_ sound
          rintro rfl
          exact keeps (.intoWritten held)
      | _ => exact unmoved
  | writer held =>
      cases move with
      | write asked => exact asked.preserves held sound
      | handOver => exact (keeps (.handOver held)).elim
      | _ => exact unmoved
  | reader held =>
      cases move with
      | read asked => exact asked.preserves held sound
      | _ => exact unmoved

theorem Move.make_sound (move : Move) {session : Session}
    (sound : Sound session.memory) :
    Sound (move.make session).memory ∧
      (move.make session).memory.holding.name =
        session.memory.holding.name := by
  by_cases cuts : move.Cuts session
  · obtain ⟨shorter, name, _⟩ := sound.intoWritten
    rw [make_of_cuts cuts]
    exact ⟨shorter, name⟩
  · have continues := make_continues cuts sound
    exact ⟨continues.sound, continues.name_eq⟩

theorem Reached.memory_sound {origin : Buffer} {session : Session}
    (built : Built origin) (reached : Reached origin session) :
    Sound session.memory ∧
      session.memory.holding.name = origin.holding.name := by
  induction reached with
  | start => exact ⟨built.sound, rfl⟩
  | step _ step induction =>
      obtain ⟨sound, name⟩ := induction
      obtain ⟨move, rfl⟩ := step.exists_move
      obtain ⟨soundAfter, nameAfter⟩ := move.make_sound sound
      exact ⟨soundAfter, nameAfter.trans name⟩

/-- In every session cursor and mark lie in the extent and the extent lies in
what is set aside, all of it unless the memory can grow.  The memory is held as
it was built.  Every step is a move.  The moves that cut the memory leave its
written bytes as the extent, and every other move leaves the extent as it is or
lengthens memory that can grow.  Whatever the next operation subtracts, cuts out
or sets back is in range. -/
theorem reached_memory_in_bounds {origin : Buffer} {session : Session}
    (built : Built origin) (reached : Reached origin session) :
    Sound session.memory ∧
      session.memory.holding.name = origin.holding.name ∧
      (∀ next, Step session next → ∃ move : Move, move.make session = next) ∧
      (∀ move : Move, move.Cuts session →
        (move.make session).memory = session.memory.intoWritten ∧
          (move.make session).memory.extent = session.memory.position) ∧
      (∀ move : Move, ¬move.Cuts session →
        (move.make session).memory.extent = session.memory.extent ∨
          (session.memory.holding.isGrowable = true ∧
            session.memory.extent < (move.make session).memory.extent)) ∧
      InRange session.memory ∧ RecordsInRange session.memory := by
  obtain ⟨sound, name⟩ := reached.memory_sound built
  refine ⟨sound, name, fun next step => step.exists_move, ?_, ?_,
    sound.inRange, sound.recordsInRange⟩
  · intro move cuts
    have cut := Move.make_of_cuts cuts
    refine ⟨cut, ?_⟩
    rw [cut]
    exact sound.intoWritten.2.2
  · intro move keeps
    exact (Move.make_continues keeps sound).extent_cases

/-- A record fills two of the caller's three bytes.  Handed to a reader these are
all that there is, and no other move changes how much there is. -/
theorem reached_memory_in_bounds_after_hand_over :
    let held := leaves (Writer.append ⟨1, .bool true⟩)
      (Writer.borrowed [0, 0, 0])
    Reached (Buffer.borrowed [0, 0, 0]) (reader held.intoReader) ∧
      held.intoReader.buffer.content = [9, 1] ∧
      Sound held.intoReader.buffer ∧
      held.intoReader.buffer.holding.name = "Borrowed" ∧
      (Move.make .handOver (writer held)).memory.extent = 2 ∧
      ∀ move : Move, ¬move.Cuts (writer held) →
        (move.make (writer held)).memory.extent = 3 := by
  intro held
  have built : Built (Buffer.borrowed [0, 0, 0]) := .borrowed (by decide)
  have opened := Reached.start.step (.openWriter (Buffer.borrowed [0, 0, 0]))
  have appended : Reached _ (writer held) :=
    opened.step (.write (.append ⟨1, .bool true⟩) _)
  have reached := appended.step (.handOver held)
  obtain ⟨sound, name, _⟩ := reached_memory_in_bounds built reached
  obtain ⟨_, _, _, cuts, keeps, _⟩ := reached_memory_in_bounds built appended
  refine ⟨reached, by decide, sound, name, ?_, ?_⟩
  · exact (cuts .handOver (.handOver held)).2
  · intro move other
    rcases keeps move other with same | ⟨grows, _⟩
    · exact same
    · exact nomatch grows

end Session

end TagWire
