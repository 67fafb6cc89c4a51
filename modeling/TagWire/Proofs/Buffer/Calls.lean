import TagWire.Proofs.Buffer.Items
import TagWire.Proofs.Buffer.Reading
import TagWire.Proofs.Buffer.Writing

/-!
# A refused call changes nothing

Everything that can be asked of a buffer is a call, with its arguments as data.
A call that fails has found the reason before its first change, so it leaves the
very buffer it was made on.  Texts are judged both before and after the cursor
moves, and since the second judgement falls on the same payload it has nothing
new to refuse.
-/

namespace TagWire

/-- Drops the answer of an action. -/
def silently {σ α : Type} (action : EStateM WireError σ α) :
    EStateM WireError σ Unit := fun state =>
  match action state with
  | .ok _ after => .ok () after
  | .error error after => .error error after

/-- Asks a question that changes nothing. -/
def ask {σ α : Type} (question : σ → Except WireError α) :
    EStateM WireError σ Unit := fun state =>
  match question state with
  | .ok _ => .ok () state
  | .error error => .error error state

theorem silently_error {σ α : Type} {action : EStateM WireError σ α}
    {state after : σ} {error : WireError}
    (failed : silently action state = .error error after) :
    action state = .error error after := by
  cases outcome : action state with
  | ok answer left =>
      simp only [silently, outcome] at failed
      cases failed
  | error refusal left =>
      simp only [silently, outcome] at failed
      cases failed
      rfl

theorem ask_error {σ α : Type} {question : σ → Except WireError α}
    {state after : σ} {error : WireError}
    (failed : ask question state = .error error after) : after = state := by
  cases answer : question state <;> simp only [ask, answer] at failed <;>
    cases failed
  rfl

namespace Buffer

/-- What a caller can ask of a buffer. -/
inductive Call
  | clear
  | rewind
  | setMark
  | reset
  | setPosition (position : Nat)
  | reserve (needed : Nat)
  | write (bytes : List UInt8)
  | append (item : Item)
  | peek (kind : ItemKind)
  | next (kind : ItemKind)
  | peekBytes (count : Nat)
  | takeBytes (count : Nat)
  | takeRemaining
  | intoWritten

namespace Call

/-- Makes the call.  An item or a run of bytes that it answers is dropped. -/
def perform : Call → BufferM Unit
  | clear => fun buffer => .ok () buffer.clear
  | rewind => fun buffer => .ok () buffer.rewind
  | setMark => fun buffer => .ok () buffer.setMark
  | reset => fun buffer => .ok () buffer.reset
  | setPosition position => Buffer.setPosition position
  | reserve needed => Buffer.reserve needed
  | write bytes => Buffer.write bytes
  | append item => Buffer.append item.kind.codec item.content
  | peek kind => ask (Buffer.peek kind.codec)
  | next kind => silently (Buffer.next kind.codec)
  | peekBytes count => ask (Buffer.peekBytes count)
  | takeBytes count => silently (Buffer.takeBytes count)
  | takeRemaining => silently Buffer.takeRemaining
  | intoWritten => fun buffer => .ok () buffer.intoWritten

theorem perform_error {call : Call} {buffer after : Buffer}
    {error : WireError} (failed : call.perform buffer = .error error after) :
    after = buffer := by
  cases call with
  | clear => cases failed
  | rewind => cases failed
  | setMark => cases failed
  | reset => cases failed
  | setPosition position =>
      simp only [perform, Buffer.setPosition] at failed
      split at failed <;> cases failed
      rfl
  | reserve needed => exact (reserve_error failed).1
  | write bytes => exact (reserve_error (write_error failed)).1
  | append item => exact (writeEncoded_error failed).1
  | peek kind => exact ask_error failed
  | next kind => exact (takeWith_error (silently_error failed)).1
  | peekBytes count => exact ask_error failed
  | takeBytes count => exact (takeWith_error (silently_error failed)).1
  | takeRemaining => cases failed
  | intoWritten => cases failed

end Call

/-- How text stands in a buffer: with a zero byte at its end, behind a length of
variable length, or behind one of a fixed width. -/
inductive TextForm
  | closed
  | plain
  | short (width : Nat)
  deriving DecidableEq, Repr

namespace TextForm

def codec : TextForm → Codec String
  | closed => Codec.closedText
  | plain => Codec.openText
  | short width => Codec.shortText width

def locate : TextForm → List UInt8 → Except WireError Payload.Span
  | closed | plain => Payload.locate
  | short width => Payload.locateFixed width

def judge : TextForm → List UInt8 → Except WireError String
  | closed => Payload.closedText
  | plain | short _ => Payload.openText

theorem decode_eq (form : TextForm) :
    form.codec.decode = Decoder.ofSpan form.locate form.judge := by
  cases form <;> rfl

theorem locate_resumes (form : TextForm) :
    Resumes 0 Payload.Span.stop form.locate := by
  cases form with
  | closed => exact Payload.locate_resumes
  | plain => exact Payload.locate_resumes
  | short width => exact Payload.locateFixed_resumes width

end TextForm

/-- A call that fails leaves the buffer it was made on: cursor, mark, memory and
how the memory is held.  Text is taken as it is by judging it once more behind
the cursor's move, where a payload that was sound is sound again. -/
theorem refused_call_changes_nothing :
    (∀ (call : Call) (buffer after : Buffer) (error : WireError),
      call.perform buffer = .error error after → after = buffer) ∧
      ∀ (form : TextForm) (buffer : Buffer),
        takeJudged form.locate form.judge buffer = next form.codec buffer ∧
          ∀ text, peek form.codec buffer = .ok text →
            ∃ payload after,
              takePayload form.locate buffer = .ok payload after ∧
                form.judge payload = .ok text := by
  constructor
  · intro call buffer after error failed
    exact Call.perform_error failed
  · intro form buffer
    constructor
    · rw [takeJudged_eq form.locate_resumes, next, form.decode_eq]
    · intro text sound
      rw [peek, form.decode_eq] at sound
      exact takePayload_of_peek form.locate_resumes sound

end Buffer

end TagWire
