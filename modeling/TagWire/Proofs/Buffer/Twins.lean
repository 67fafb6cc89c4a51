import TagWire.Proofs.Buffer.Items
import TagWire.Proofs.Buffer.RoundTrip
import TagWire.Proofs.Parallel

/-!
# Memories that cannot be told apart

Two memories that show the same bytes before the cursor and offer the same room
are twins, whatever stands behind the cursor.  Twins take the same bytes and
refuse the same, and are twins behind them.  Memory at its start is the twin of
any other memory of its kind.

Memory that can grow offers room without end, except that the larger of two
memories may still have room where the smaller one asks for more and gets none.
This takes more than half of the largest piece of memory.
-/

namespace TagWire

namespace Buffer

/-- Memory can grow, and more is wanted than growing to twice as much can
give. -/
def Scarce (growable : Bool) (wanted : Nat) : Prop :=
  growable = true ∧ allocationLimit < 2 * wanted

theorem Scarce.mono {growable : Bool} {less more : Nat} (smaller : less ≤ more)
    (scarce : Scarce growable less) : Scarce growable more := by
  obtain ⟨grows, lacking⟩ := scarce
  exact ⟨grows, by omega⟩

/-- Two memories that cannot be told apart by what is written to them. -/
structure Twins (growable : Bool) (left right : Buffer) : Prop where
  leftInside : left.position ≤ left.extent
  rightInside : right.position ≤ right.extent
  written_eq : left.written = right.written
  leftGrowable : left.holding.isGrowable = growable
  rightGrowable : right.holding.isGrowable = growable
  leftWritable : left.holding ≠ .view
  rightWritable : right.holding ≠ .view
  extent_eq : growable = false → left.extent = right.extent

namespace Twins

variable {growable : Bool} {left right : Buffer}

theorem position_eq (twins : Twins growable left right) :
    left.position = right.position := by
  rw [← length_written twins.leftInside, twins.written_eq,
    length_written twins.rightInside]

/-- The states that come up when a number of bytes is written from a place on:
twins whose cursor has not gone further. -/
def From (growable : Bool) (start size : Nat) (left right : Buffer) : Prop :=
  Twins growable left right ∧ start ≤ left.position ∧
    left.position ≤ start + size

/-- At the start of memory nothing shows of what is in it. -/
theorem of_start (leftStart : left.position = 0)
    (rightStart : right.position = 0)
    (leftGrowable : left.holding.isGrowable = growable)
    (rightGrowable : right.holding.isGrowable = growable)
    (leftWritable : left.holding ≠ .view)
    (rightWritable : right.holding ≠ .view)
    (extent_eq : growable = false → left.extent = right.extent) :
    Twins growable left right where
  leftInside := by
    rw [leftStart]
    exact Nat.zero_le _
  rightInside := by
    rw [rightStart]
    exact Nat.zero_le _
  written_eq := by
    rw [written, written, leftStart, rightStart, List.take_zero,
      List.take_zero]
  leftGrowable := leftGrowable
  rightGrowable := rightGrowable
  leftWritable := leftWritable
  rightWritable := rightWritable
  extent_eq := extent_eq

theorem clear (twins : Twins growable left right) :
    Twins growable left.clear right.clear :=
  of_start rfl rfl twins.leftGrowable twins.rightGrowable twins.leftWritable
    twins.rightWritable twins.extent_eq

theorem moveTo (twins : Twins growable left right) {position : Nat}
    (before : position ≤ left.position) :
    Twins growable (left.moveTo position) (right.moveTo position) := by
  have cut : ∀ {buffer : Buffer}, position ≤ buffer.position →
      (buffer.moveTo position).written = buffer.written.take position := by
    intro buffer earlier
    simp only [Buffer.moveTo, written, List.take_take,
      Nat.min_eq_left earlier]
  have beforeRight : position ≤ right.position := by
    rw [← twins.position_eq]
    exact before
  exact {
    leftInside := Nat.le_trans before twins.leftInside
    rightInside := Nat.le_trans beforeRight twins.rightInside
    written_eq := by rw [cut before, cut beforeRight, twins.written_eq]
    leftGrowable := twins.leftGrowable
    rightGrowable := twins.rightGrowable
    leftWritable := twins.leftWritable
    rightWritable := twins.rightWritable
    extent_eq := twins.extent_eq }

theorem stays (twins : Twins growable left right) (size : Nat) :
    From growable left.position size left right :=
  ⟨twins, Nat.le_refl _, Nat.le_add_right _ _⟩

/-- Twins that take the same bytes are twins behind them, if neither has come to
be longer than the other in a way that shows. -/
theorem of_write (twins : Twins growable left right) {bytes : List UInt8}
    {leftAfter rightAfter : Buffer}
    (leftDone : Buffer.write bytes left = .ok () leftAfter)
    (rightDone : Buffer.write bytes right = .ok () rightAfter)
    (extent_eq : growable = false → leftAfter.extent = rightAfter.extent) :
    From growable left.position bytes.length leftAfter rightAfter := by
  have leftWrote := write_ok twins.leftInside leftDone
  have rightWrote := write_ok twins.rightInside rightDone
  have behind : Twins growable leftAfter rightAfter := {
    leftInside := leftWrote.inside
    rightInside := rightWrote.inside
    written_eq := by
      rw [leftWrote.written_eq, rightWrote.written_eq, twins.written_eq]
    leftGrowable := leftWrote.growable_eq.trans twins.leftGrowable
    rightGrowable := rightWrote.growable_eq.trans twins.rightGrowable
    leftWritable := write_writable twins.leftWritable leftDone
    rightWritable := write_writable twins.rightWritable rightDone
    extent_eq := extent_eq }
  refine ⟨behind, ?_, Nat.le_of_eq leftWrote.position_eq⟩
  rw [leftWrote.position_eq]
  exact Nat.le_add_right _ _

section Writing

variable {bytes : List UInt8}

/-- In memory of one extent the same bytes find room, or the same is missing. -/
theorem write_fixed (twins : Twins false left right)
    (addressed : left.position + bytes.length < addressLimit) :
    Parallel (Scarce false (left.position + bytes.length))
      (From false left.position bytes.length)
      (Buffer.write bytes left) (Buffer.write bytes right) := by
  have samePlace := twins.position_eq
  have sameRoom : left.remainder = right.remainder := by
    rw [remainder, remainder, samePlace, twins.extent_eq rfl]
  have rightAddressed : right.position + bytes.length < addressLimit := by
    rw [← samePlace]
    exact addressed
  by_cases room : bytes.length ≤ left.remainder
  · have rightRoom : bytes.length ≤ right.remainder := by
      rw [← sameRoom]
      exact room
    have leftDone := write_of_room addressed twins.leftWritable room
    have rightDone :=
      write_of_room rightAddressed twins.rightWritable rightRoom
    rw [leftDone, rightDone]
    apply Parallel.answered
    apply twins.of_write leftDone rightDone
    intro _
    have leftInside := twins.leftInside
    have rightInside := twins.rightInside
    simp only [remainder] at room rightRoom
    rw [(splice_wrote (by omega)).2, (splice_wrote (by omega)).2,
      twins.extent_eq rfl]
  · have short := Nat.lt_of_not_le room
    have rightShort : right.remainder < bytes.length := by
      rw [← sameRoom]
      exact short
    rw [write_of_exhausted addressed twins.leftWritable short
        twins.leftGrowable,
      write_of_exhausted rightAddressed twins.rightWritable rightShort
        twins.rightGrowable, sameRoom]
    exact .refused (twins.stays _)

/-- Memory that can grow has room or makes it, unless there is none to be
had. -/
theorem write_grown (twins : Twins true left right)
    (addressed : left.position + bytes.length < addressLimit) :
    Parallel (Scarce true (left.position + bytes.length))
      (From true left.position bytes.length)
      (Buffer.write bytes left) (Buffer.write bytes right) := by
  have samePlace := twins.position_eq
  -- Which of the two has room already is of no interest: a write that succeeds
  -- shows the same, whether the memory has grown for it or not.
  rcases write_growing twins.leftGrowable with
    ⟨requested, failed⟩ | ⟨leftAfter, leftDone⟩
  · exact .starved ⟨rfl, write_starved addressed failed⟩
      (.inl ⟨requested, left, failed⟩)
  · rcases write_growing twins.rightGrowable with
      ⟨requested, failed⟩ | ⟨rightAfter, rightDone⟩
    · rw [samePlace] at addressed ⊢
      exact .starved ⟨rfl, write_starved addressed failed⟩
        (.inr ⟨requested, right, failed⟩)
    · have twin := twins.of_write leftDone rightDone nofun
      rw [leftDone, rightDone]
      exact .answered twin

end Writing

/-- Twins take the same bytes and refuse the same. -/
theorem write (twins : Twins growable left right) (bytes : List UInt8) :
    Parallel (Scarce growable (left.position + bytes.length))
      (From growable left.position bytes.length)
      (Buffer.write bytes left) (Buffer.write bytes right) := by
  by_cases beyond : addressLimit ≤ left.position + bytes.length
  · have rightBeyond : addressLimit ≤ right.position + bytes.length := by
      rw [← twins.position_eq]
      exact beyond
    rw [write_of_beyond beyond, write_of_beyond rightBeyond]
    exact .refused (twins.stays _)
  · have addressed := Nat.lt_of_not_le beyond
    cases growable with
    | false => exact twins.write_fixed addressed
    | true => exact twins.write_grown addressed

end Twins

/-- The length of a form, if there is one. -/
def formLength : Except WireError (List UInt8) → Nat
  | .ok form => form.length
  | .error _ => 0

theorem Twins.writeEncoded {growable : Bool} {left right : Buffer}
    (twins : Twins growable left right)
    (encoded : Except WireError (List UInt8)) :
    Parallel (Scarce growable (left.position + formLength encoded))
      (Twins.From growable left.position (formLength encoded))
      (Buffer.writeEncoded encoded left)
      (Buffer.writeEncoded encoded right) := by
  cases encoded with
  | ok form => exact twins.write form
  | error error => exact .refused (twins.stays _)

/-- What a caller can put into a buffer behind what is there: bytes as they are,
or an item. -/
inductive Addition
  | raw (bytes : List UInt8)
  | item (added : Item)

namespace Addition

def perform : Addition → BufferM Unit
  | raw bytes => Buffer.write bytes
  | item added => append added.kind.codec added.content

def encode : Addition → Except WireError (List UInt8)
  | raw bytes => .ok bytes
  | item added => added.encode

def size (addition : Addition) : Nat := formLength addition.encode

theorem perform_eq (addition : Addition) :
    addition.perform = Buffer.writeEncoded addition.encode := by
  cases addition <;> rfl

theorem perform_twins (addition : Addition) {growable : Bool}
    {left right : Buffer} (twins : Twins growable left right) :
    Parallel (Scarce growable (left.position + addition.size))
      (fun after other => Twins growable after other ∧
        after.position ≤ left.position + addition.size)
      (addition.perform left) (addition.perform right) := by
  rw [addition.perform_eq]
  apply (twins.writeEncoded addition.encode).mono id
  rintro after other ⟨twin, _, bounded⟩
  exact ⟨twin, bounded⟩

end Addition

end Buffer

end TagWire
