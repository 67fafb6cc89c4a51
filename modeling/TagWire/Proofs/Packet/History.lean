import TagWire.Proofs.Packet.Writing

/-!
# A writer keeps to its history

The history of a writer is what its callers have seen: every call so far with
whether it succeeded.  The bytes, the counter and the end of the packet can be
told from it alone, for any calls in any order and on any buffer.
-/

namespace TagWire

namespace Writer

/-- What a caller can ask of a writer.  The appends for single types are appends
of a field. -/
inductive Call
  | append (field : Field)
  | appendEof
  | finish
  | clear
  deriving DecidableEq, Repr

namespace Call

/-- Makes the call. -/
def perform : Call → WriterM Unit
  | append field => Writer.append field
  | appendEof => Writer.appendEof
  | finish => do let _ ← Writer.finish
  | clear => modify Writer.clear

/-- The field that the call is to add. -/
def field? : Call → Option Field
  | append field => some field
  | appendEof | finish => some { index := 0, value := .eof }
  | clear => none

/-- Makes the call, and says what came of it and what it left. -/
def answer (call : Call) (writer : Writer) : Except WireError Unit × Writer :=
  match call.perform writer with
  | .ok () after => (.ok (), after)
  | .error error after => (.error error, after)

theorem perform_of_field? {call : Call} {field : Field}
    (adds : call.field? = some field) :
    call.perform = Writer.append field := by
  cases call with
  | append field => cases adds; rfl
  | appendEof => cases adds; rfl
  | finish =>
      cases adds
      funext writer
      simp only [perform, bind, EStateM.bind, finish_eq, Field.ending]
      cases Writer.append { index := 0, value := .eof } writer <;> rfl
  | clear => cases adds

end Call

/-- Makes calls one after the other, and records what came of each. -/
def run : List Call → Writer → List (Call × Except WireError Unit) × Writer
  | [], writer => ([], writer)
  | call :: calls, writer =>
    let (outcome, after) := call.answer writer
    let (log, last) := run calls after
    ((call, outcome) :: log, last)

/-- The bytes that stand before the packet, and the fields of the packet. -/
structure History where
  start : List UInt8
  fields : List Field

namespace History

/-- Goes on by one call: a field that was taken is the last one, and clearing
leaves neither fields nor anything before them. -/
def next (history : History) : Call × Except WireError Unit → History
  | (call, .ok ()) =>
    match call.field? with
    | some field => { history with fields := history.fields ++ [field] }
    | none => { start := [], fields := [] }
  | (_, .error _) => history

/-- The history after the calls of a log. -/
def after (history : History) (log : List (Call × Except WireError Unit)) :
    History :=
  log.foldl next history

/-- The writer is as its history says. -/
structure Describes (history : History) (writer : Writer) : Prop where
  inside : writer.buffer.position ≤ writer.buffer.extent
  bytes : ∃ records, Field.Written history.fields records ∧
    writer.bytes = history.start ++ records
  count : writer.fieldCount = history.fields.length
  finished : writer.finished = true ↔
    ∃ last, history.fields.getLast? = some last ∧ last.value = .eof
  endsOnce : ∀ front last behind,
    history.fields = front ++ last :: behind → last.value = .eof → behind = []

namespace Describes

theorem of_kept {history : History} {writer after : Writer}
    (describes : history.Describes writer) (kept : Kept writer after) :
    history.Describes after := by
  exact {
    inside := kept.inside
    bytes := by
      rw [kept.bytes_eq]
      exact describes.bytes
    count := kept.count_eq.trans describes.count
    finished := by
      rw [kept.finished_eq]
      exact describes.finished
    endsOnce := describes.endsOnce }

theorem of_took {history : History} {writer after : Writer} {field : Field}
    {record : List UInt8} (describes : history.Describes writer)
    (opened : writer.finished = false)
    (took : Took field record writer after) :
    Describes { history with fields := history.fields ++ [field] } after := by
  obtain ⟨records, written, bytes⟩ := describes.bytes
  have unended : ∀ last ∈ history.fields, last.value ≠ .eof := by
    intro last member isEof
    obtain ⟨front, behind, split⟩ := List.append_of_mem member
    have nothing := describes.endsOnce front last behind split isEof
    have closed : writer.finished = true := describes.finished.mpr
      ⟨last, by rw [split, nothing, List.getLast?_concat], isEof⟩
    rw [opened] at closed
    cases closed
  exact {
    inside := took.inside
    bytes := by
      refine ⟨records ++ record,
        written.append (.singleton took.encoded), ?_⟩
      rw [took.bytes_eq, bytes, List.append_assoc]
    count := by
      rw [took.count_eq, describes.count, List.length_append,
        List.length_singleton]
    finished := by
      rw [took.finished_iff]
      simp
    endsOnce := by
      intro front last behind split isEof
      rcases List.eq_nil_or_concat behind with nothing | ⟨init, final, rfl⟩
      · exact nothing
      · rw [List.concat_eq_append, ← List.cons_append,
          ← List.append_assoc] at split
        have earlier := (List.append_inj_left' split rfl)
        have member : last ∈ history.fields := by
          rw [earlier]
          exact List.mem_append_right _ List.mem_cons_self
        exact (unended last member isEof).elim }

theorem of_clear (writer : Writer) :
    Describes { start := [], fields := [] } writer.clear := by
  exact {
    inside := Nat.zero_le _
    bytes := ⟨[], .nil, rfl⟩
    count := rfl
    finished := by simp [Writer.clear, ofBuffer]
    endsOnce := by simp }

/-- One call keeps the writer to its history. -/
theorem step {history : History} {writer : Writer}
    (describes : history.Describes writer) (call : Call) :
    (history.next (call, (call.answer writer).1)).Describes
      (call.answer writer).2 := by
  cases adds : call.field? with
  | none =>
      cases call with
      | clear => exact of_clear writer
      | append field => cases adds
      | appendEof => cases adds
      | finish => cases adds
  | some field =>
      simp only [Call.answer, Call.perform_of_field? adds]
      cases outcome : append field writer with
      | ok answer after =>
          obtain ⟨opened, record, took⟩ := append_ok describes.inside outcome
          simp only [next, adds]
          exact describes.of_took opened took
      | error error after =>
          exact describes.of_kept (append_error describes.inside outcome).1

theorem run {history : History} {writer : Writer}
    (describes : history.Describes writer) (calls : List Call) :
    (history.after (Writer.run calls writer).1).Describes
      (Writer.run calls writer).2 := by
  induction calls generalizing history writer with
  | nil => exact describes
  | cons call calls induction => exact induction (describes.step call)

/-- A packet is refused a further field as finished exactly if it is. -/
theorem packetFinished_iff {history : History} {writer : Writer}
    (describes : history.Describes writer) {call : Call} {field : Field}
    (adds : call.field? = some field) :
    (call.answer writer).1 = .error .packetFinished ↔
      writer.finished = true := by
  simp only [Call.answer, Call.perform_of_field? adds]
  cases outcome : append field writer with
  | ok answer after =>
      obtain ⟨opened, _⟩ := append_ok describes.inside outcome
      simp [opened]
  | error error after =>
      rcases (append_error describes.inside outcome).2 with
        ⟨closed, rfl⟩ | ⟨opened, refusal⟩
      · simp [closed]
      · have other := refusal.ne_packetFinished
        simp [opened, other]

end Describes

end History

/-- A writer as it is handed out: over memory of its own, over the caller's, or
at the cursor of any buffer. -/
inductive Opened : Writer → Prop where
  | owned {capacity : Nat} {writer : Writer} :
      Writer.owned capacity = .ok writer → Opened writer
  | borrowed (memory : List UInt8) : Opened (borrowed memory)
  | ofBuffer {buffer : Buffer} :
      buffer.position ≤ buffer.extent → Opened (ofBuffer buffer)

theorem Opened.describes {writer : Writer} (opened : Opened writer) :
    History.Describes { start := writer.bytes, fields := [] } writer := by
  have ofBuffer_describes : ∀ {buffer : Buffer},
      buffer.position ≤ buffer.extent →
        History.Describes { start := buffer.written, fields := [] }
          (Writer.ofBuffer buffer) := by
    intro buffer inside
    exact {
      inside := inside
      bytes := ⟨[], .nil, (List.append_nil _).symm⟩
      count := rfl
      finished := by simp [Writer.ofBuffer]
      endsOnce := by simp }
  cases opened with
  | @owned capacity writer made =>
      unfold Writer.owned Buffer.owned at made
      split at made
      · cases made
      · cases made
        exact ofBuffer_describes (Nat.zero_le _)
  | borrowed memory => exact ofBuffer_describes (Nat.zero_le _)
  | ofBuffer inside => exact ofBuffer_describes inside

/-- After any calls the bytes are those before the packet and the records of
the fields that were taken since the last clearing; their number is counted;
the packet is finished exactly if the last of them is the end record, which
stands nowhere else; and exactly then a further field is refused as too late. -/
theorem run_follows_history {writer : Writer} (opened : Opened writer)
    (calls : List Call) :
    let last := (run calls writer).2
    let history := History.after { start := writer.bytes, fields := [] }
      (run calls writer).1
    (∃ records, Field.Written history.fields records ∧
        last.bytes = history.start ++ records) ∧
      last.fieldCount = history.fields.length ∧
      (last.finished = true ↔
        ∃ final, history.fields.getLast? = some final ∧
          final.value = .eof) ∧
      (∀ front final behind,
        history.fields = front ++ final :: behind →
          final.value = .eof → behind = []) ∧
      (∀ call field, Call.field? call = some field →
        ((call.answer last).1 = .error .packetFinished ↔
          last.finished = true)) := by
  intro last history
  have describes : history.Describes last := opened.describes.run calls
  exact ⟨describes.bytes, describes.count, describes.finished,
    describes.endsOnce, fun _ _ adds => describes.packetFinished_iff adds⟩

/-- In the caller's memory behind one byte there is room for a truth value and
for the end, not for three bytes between them. -/
theorem run_follows_history_in_little_memory :
    let writer := ofBuffer { Buffer.borrowed [7, 7, 7, 7, 7] with position := 1 }
    let last := (run [.append ⟨1, .bool true⟩, .append ⟨2, .bytes [1, 2, 3]⟩,
      .finish, .append ⟨3, .bool false⟩] writer).2
    Opened writer ∧
      (∃ records, Field.Written [⟨1, .bool true⟩, ⟨0, .eof⟩] records ∧
        [7, 9, 1, 0] = [7] ++ records) ∧
      last.bytes = [7, 9, 1, 0] ∧ last.fieldCount = 2 ∧
      (Call.finish.answer last).1 = .error .packetFinished := by
  intro writer last
  have opened : Opened writer := .ofBuffer (by decide)
  obtain ⟨bytes, count, _, _, refused⟩ := run_follows_history opened
    [.append ⟨1, .bool true⟩, .append ⟨2, .bytes [1, 2, 3]⟩, .finish,
      .append ⟨3, .bool false⟩]
  exact ⟨opened, bytes, rfl, count, (refused .finish _ rfl).mpr rfl⟩

end Writer

end TagWire
