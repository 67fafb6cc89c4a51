import TagWire.Proofs.Buffer.Slots
import TagWire.Proofs.Session

/-!
# What happens to lent memory

A caller lends memory to a session of many moves: calls of a buffer, of a writer
and of a reader, and changes of hands.  Each move collects the slots that its
writes get.  Over the whole session the memory keeps its length and every byte
that lies in no slot, also where a record was rolled back, and what has been cut
off is never written again.
-/

namespace TagWire

open Buffer

namespace Writer

/-- The slots for the tag and for the value, which is written behind the tag if
that could be. -/
def slotsForRecord (field : Field) (buffer : Buffer) : List Slot :=
  slotForEncoded field.tag.encode buffer ++
    match writeEncoded field.tag.encode buffer with
    | .ok () middle => slotForEncoded field.value.encode middle
    | .error _ _ => []

/-- The slots that the call gets. -/
def Call.slots (call : Call) (writer : Writer) : List Slot :=
  match call.field? with
  | some field =>
    if writer.finished then [] else slotsForRecord field writer.buffer
  | none => []

theorem writeRecord_touched {buffer : Buffer} (lent : Lent buffer)
    (inside : buffer.position ≤ buffer.extent) (field : Field) :
    Touched (slotsForRecord field buffer) buffer
      (leaves (writeRecord field) buffer) := by
  have front := lent.writeEncoded_touched inside field.tag.encode
  cases tagged : writeEncoded field.tag.encode buffer with
  | error error after =>
      rw [leaves_error tagged] at front
      rw [slotsForRecord, tagged, List.append_nil, writeRecord,
        leaves_bind_error tagged]
      exact front
  | ok answer middle =>
      rw [leaves_ok tagged] at front
      obtain ⟨bytes, _, wrote⟩ := writeEncoded_ok tagged
      obtain ⟨spare, overlaid⟩ := write_overlaid inside wrote
      have lentStill : Lent middle := by
        rw [Lent, (overlaid.fixed lent.fixed).2]
        exact lent
      have behind := lentStill.writeEncoded_touched (write_ok inside wrote).inside
        field.value.encode
      rw [slotsForRecord, tagged, writeRecord, leaves_bind tagged]
      exact front.trans behind

/-- A record that is rolled back leaves its bytes, and the cursor goes back. -/
theorem append_touched {writer : Writer} (lent : Lent writer.buffer)
    (inside : writer.buffer.position ≤ writer.buffer.extent) (field : Field) :
    Touched
      (if writer.finished then [] else slotsForRecord field writer.buffer)
      writer.buffer (leaves (append field) writer).buffer := by
  cases closed : writer.finished with
  | true =>
      rw [leaves_error (append_finished closed field), if_pos rfl]
      exact (Same.refl writer.buffer).touched
  | false =>
      have touched := writeRecord_touched lent inside field
      rw [if_neg Bool.false_ne_true]
      cases wrote : writeRecord field writer.buffer with
      | ok answer buffer =>
          rw [leaves_ok wrote] at touched
          simpa [leaves, append, closed, wrote] using touched
      | error error middle =>
          rw [leaves_error wrote] at touched
          have back : Same middle (middle.moveTo writer.buffer.position) :=
            ⟨rfl, rfl⟩
          have whole := touched.trans back.touched
          rw [List.append_nil] at whole
          simpa [leaves, append, closed, wrote] using whole

theorem Call.touched (call : Call) {writer : Writer}
    (lent : Lent writer.buffer)
    (inside : writer.buffer.position ≤ writer.buffer.extent) :
    Touched (call.slots writer) writer.buffer
      (leaves call.perform writer).buffer := by
  cases adds : call.field? with
  | some field =>
      rw [Call.slots, adds, Call.perform_of_field? adds]
      exact append_touched lent inside field
  | none =>
      cases call with
      | clear =>
          have same : Same writer.buffer writer.buffer.clear := ⟨rfl, rfl⟩
          exact same.touched
      | append field => cases adds
      | appendEof => cases adds
      | finish => cases adds

end Writer

namespace Reader

theorem onBuffer_keeps {α : Type} {action : BufferM α}
    (keeps : Keeps id action) : Keeps Reader.buffer (onBuffer action) := by
  intro reader
  rw [leaves_onBuffer]
  exact keeps reader.buffer

theorem nextField_keeps : Keeps Reader.buffer nextField :=
  onBuffer_keeps (takeWith_keeps Field.decode)

theorem fields_keeps : Keeps Reader.buffer Reader.fields := by
  intro reader
  cases decoded : Packet.decode reader.buffer.unread with
  | error error =>
      rw [leaves_error (fields_of_error decoded)]
      exact ⟨rfl, rfl⟩
  | ok packet =>
      rw [leaves_ok (fields_of_decode decoded)]
      exact ⟨rfl, rfl⟩

theorem keeps_composes :
    Composes fun action => Keeps Reader.buffer action where
  pure := .pure
  throw := .throw
  state := .state
  bind := .bind
  silently := .silently
  ask := .ask

theorem Call.keeps (call : Call) : Keeps Reader.buffer call.perform :=
  call.perform_of_parts keeps_composes nextField_keeps fields_keeps

end Reader

namespace Session

/-! ## Runs -/

namespace Move

/-- The slots that the move gets. -/
def slots : Move → Session → List Slot
  | call asked, .buffer held => asked.slots held
  | write asked, .writer held => asked.slots held
  | _, _ => []

/-- Whether the move is one of those that put bytes into the memory. -/
def writes : Move → Bool
  | call asked => asked.writes
  | write asked => asked.field?.isSome
  | _ => false

end Move

/-- The memory that the session holds, all of it. -/
def bytes (session : Session) : List UInt8 := session.memory.memory

/-- Makes moves one after the other, and collects their slots. -/
def run : List Move → Session → List Slot × Session
  | [], session => ([], session)
  | move :: moves, session =>
    let (slots, last) := run moves (move.make session)
    (move.slots session ++ slots, last)

theorem run_cons (move : Move) (moves : List Move) (session : Session) :
    run (move :: moves) session =
      (move.slots session ++ (run moves (move.make session)).1,
        (run moves (move.make session)).2) := rfl

theorem run_append (front behind : List Move) (session : Session) :
    run (front ++ behind) session =
      ((run front session).1 ++ (run behind (run front session).2).1,
        (run behind (run front session).2).2) := by
  induction front generalizing session with
  | nil => rfl
  | cons move front induction =>
      rw [List.cons_append, run_cons, run_cons, induction, List.append_assoc]

theorem Reached.run {origin : Buffer} {session : Session}
    (reached : Reached origin session) (moves : List Move) :
    Reached origin (run moves session).2 := by
  induction moves generalizing session with
  | nil => exact reached
  | cons move moves induction =>
      apply induction
      rcases move.make_cases session with step | same
      · exact reached.step step
      · rw [same]
        exact reached

/-- Runs come to the sessions that steps come to. -/
theorem reached_iff_run {origin : Buffer} {session : Session} :
    Reached origin session ↔
      ∃ moves, (run moves (buffer origin)).2 = session := by
  constructor
  · intro reached
    induction reached with
    | start => exact ⟨[], rfl⟩
    | step _ step induction =>
        obtain ⟨moves, rfl⟩ := induction
        obtain ⟨move, rfl⟩ := step.exists_move
        refine ⟨moves ++ [move], ?_⟩
        rw [run_append]
        rfl
  · rintro ⟨moves, rfl⟩
    exact Reached.start.run moves

/-! ## Frames -/

/-- The memory of the session is a caller's, and it is sound. -/
structure OnLoan (session : Session) : Prop where
  lent : Lent session.memory
  sound : Sound session.memory

theorem OnLoan.make {session : Session} (loan : OnLoan session)
    (move : Move) : OnLoan (move.make session) := by
  obtain ⟨sound, name⟩ := move.make_sound loan.sound
  exact ⟨name.trans loan.lent, sound⟩

/-- One move touches the memory only in its slots. -/
theorem Move.touched {session : Session} (loan : OnLoan session)
    (move : Move) :
    Touched (move.slots session) session.memory
      (move.make session).memory := by
  have unmoved : ∀ held : Buffer, Touched [] held held :=
    fun held => (Same.refl held).touched
  cases session with
  | buffer held =>
      cases move with
      | call asked => exact asked.touched loan.lent loan.sound.inside
      | _ => exact unmoved held
  | writer held =>
      cases move with
      | write asked => exact asked.touched loan.lent loan.sound.inside
      | handOver => exact loan.lent.intoWritten_touched loan.sound.inside
      | _ => exact unmoved held.buffer
  | reader held =>
      cases move with
      | read asked => exact (asked.keeps held).touched
      | _ => exact unmoved held.buffer

theorem run_touched {session : Session} (loan : OnLoan session)
    (moves : List Move) :
    OnLoan (run moves session).2 ∧
      Touched (run moves session).1 session.memory
        (run moves session).2.memory := by
  induction moves generalizing session with
  | nil => exact ⟨loan, (Same.refl session.memory).touched⟩
  | cons move moves induction =>
      obtain ⟨last, behind⟩ := induction (loan.make move)
      exact ⟨last, (move.touched loan).trans behind⟩

theorem Move.slots_of_quiet {move : Move} (quiet : move.writes = false)
    (session : Session) : move.slots session = [] := by
  cases session with
  | buffer held =>
      cases move with
      | call asked => exact asked.slots_of_quiet quiet held
      | _ => rfl
  | writer held =>
      cases move with
      | write asked =>
          have adds : asked.field? = none := by
            cases field : asked.field? with
            | none => rfl
            | some added =>
                rw [writes, field] at quiet
                cases quiet
          rw [slots, Writer.Call.slots, adds]
      | _ => rfl
  | reader held => cases move <;> rfl

/-- A cut gets no slots, and leaves the written bytes as the extent. -/
theorem Move.Cuts.effect {move : Move} {session : Session}
    (cut : move.Cuts session) (sound : Sound session.memory) :
    move.slots session = [] ∧
      (move.make session).memory.extent = session.memory.position := by
  cases cut with
  | intoWritten held => exact ⟨rfl, sound.intoWritten.2.2⟩
  | handOver held => exact ⟨rfl, sound.intoWritten.2.2⟩

/-- What lies behind the extent is out of reach for good. -/
theorem OnLoan.beyond {session : Session} (loan : OnLoan session)
    (moves : List Move) :
    (run moves session).2.bytes.drop session.memory.extent =
      session.bytes.drop session.memory.extent :=
  (run_touched loan moves).2.beyond

theorem OnLoan.beyond_cut {session : Session} (loan : OnLoan session)
    {cut : Move} (cuts : cut.Cuts session) (behind : List Move) :
    (run (cut :: behind) session).2.bytes.drop session.memory.position =
      session.bytes.drop session.memory.position := by
  obtain ⟨nothing, extent⟩ := cuts.effect loan.sound
  have touched := cut.touched loan
  rw [nothing] at touched
  have whole := (loan.make cut).beyond behind
  rw [extent] at whole
  calc
    _ = (cut.make session).bytes.drop session.memory.position := whole
    _ = session.bytes.drop session.memory.position :=
      congrArg (List.drop _) touched.memory_eq

/-- Whatever moves a session makes with memory that a caller lent to a buffer or
to a writer, the memory keeps its length, and where a byte has changed a write
had got a slot over it.  Behind the extent nothing changes any more, so once the
extent has been cut down to the cursor the bytes from there on are settled.  A
move that does not write changes no byte. -/
theorem lent_memory_changes_in_slots_only {memory : List UInt8}
    (available : memory.length ≤ allocationLimit) {start : Session}
    (lent : start = buffer (Buffer.borrowed memory) ∨
      start = writer (Writer.borrowed memory)) (moves : List Move) :
    let slots := (run moves start).1
    let reached := (run moves start).2
    reached.bytes.length = memory.length ∧
      (∀ slot ∈ slots, slot.start + slot.length ≤ memory.length) ∧
      (∀ place, reached.bytes[place]? ≠ memory[place]? →
        ∃ slot ∈ slots, slot.Covers place) ∧
      (∀ behind,
        (run behind reached).2.bytes.drop reached.memory.extent =
          reached.bytes.drop reached.memory.extent) ∧
      (∀ (cut : Move) behind, cut.Cuts reached →
        (cut.make reached).memory.extent = reached.memory.position ∧
          (run (cut :: behind) reached).2.bytes.drop
              reached.memory.position =
            reached.bytes.drop reached.memory.position) ∧
      ∀ move : Move, move.writes = false →
        move.slots reached = [] ∧
          (move.make reached).bytes = reached.bytes := by
  intro slots reached
  have held : start.memory = Buffer.borrowed memory := by
    rcases lent with rfl | rfl <;> rfl
  have whole : start.bytes = memory := by
    rw [bytes, held]
    exact List.append_nil memory
  have loan : OnLoan start := by
    constructor
    · rw [held]
      rfl
    · rw [held]
      exact (Built.borrowed available).sound
  obtain ⟨last, touched⟩ := run_touched loan moves
  have length : reached.bytes.length = memory.length := by
    rw [← whole]
    exact touched.length_eq
  have inside : ∀ slot ∈ slots,
      slot.start + slot.length ≤ memory.length := by
    intro slot member
    have within := touched.inside slot member
    rw [held] at within
    exact within
  have covered : ∀ place, reached.bytes[place]? ≠ memory[place]? →
      ∃ slot ∈ slots, slot.Covers place := by
    intro place changed
    rw [← whole] at changed
    exact touched.covered changed
  refine ⟨length, inside, covered, last.beyond, ?_, ?_⟩
  · intro cut behind cuts
    exact ⟨(cuts.effect last.sound).2, last.beyond_cut cuts behind⟩
  · intro move quiet
    have nothing := move.slots_of_quiet quiet reached
    have still := move.touched last
    rw [nothing] at still
    exact ⟨nothing, still.memory_eq⟩

/-- The tag of the second record stays behind the packet when its value finds
no room, and is out of reach once the packet has been handed over. -/
theorem lent_memory_changes_in_slots_only_after_rollback :
    let start := writer (Writer.borrowed [7, 7, 7, 7])
    let front : List Move :=
      [.write (.append ⟨1, .bool true⟩), .write (.append ⟨1, .bytes [5, 6]⟩)]
    let reached := (run front start).2
    (run front start).1 = [⟨0, 1⟩, ⟨1, 1⟩, ⟨2, 1⟩] ∧
      reached.bytes = [9, 1, 57, 7] ∧
      (∀ place, reached.bytes[place]? ≠ [7, 7, 7, (7 : UInt8)][place]? →
        ∃ slot ∈ [Slot.mk 0 1, ⟨1, 1⟩, ⟨2, 1⟩], slot.Covers place) ∧
      (∀ behind,
        (run (.handOver :: behind) reached).2.bytes.drop 2 = [57, 7]) ∧
      (Move.make .openReader reached).bytes = reached.bytes := by
  intro start front reached
  have got : (run front start).1 = [⟨0, 1⟩, ⟨1, 1⟩, ⟨2, 1⟩] := by decide
  have stands : reached.bytes = [9, 1, 57, 7] := by decide
  have available : [7, 7, 7, (7 : UInt8)].length ≤ allocationLimit := by
    decide
  obtain ⟨_, _, covered, _, settled, quiet⟩ :=
    lent_memory_changes_in_slots_only available (.inr rfl) front
  rw [got] at covered
  refine ⟨got, stands, covered, ?_, (quiet .openReader rfl).2⟩
  intro behind
  have kept := (settled .handOver behind (.handOver _)).2
  exact kept.trans (congrArg (List.drop 2) stands)

end Session

end TagWire
