import TagWire.Proofs.Buffer.Twins

/-!
# Every addition is one splice

What an addition puts into a buffer can be seen from an empty one.  In any other
buffer the same bytes go over what stood at the cursor, the cursor moves past
them, and all else stays.  Where the memory is too short for them it first
becomes longer by zero bytes, or the addition is refused if it cannot grow.

Some items fill their place in pieces: the length goes before the payload, and a
zero byte behind a text.  One place is made for all the pieces, and they fill it
side by side, so it is the same as if the whole form had been put there at once.
-/

namespace TagWire

/-- The memory with some bytes over those from a place on. -/
def overwrite (place : Nat) (bytes memory : List UInt8) : List UInt8 :=
  memory.take place ++ bytes ++ memory.drop (place + bytes.length)

section Overwriting

variable {place : Nat} {memory : List UInt8}

theorem overwrite_nil : overwrite place [] memory = memory := by
  rw [overwrite, List.append_nil, List.length_nil, Nat.add_zero,
    List.take_append_drop]

/-- Bytes side by side are the same as all of them at once. -/
theorem overwrite_append (inside : place ≤ memory.length)
    (bytes more : List UInt8) :
    overwrite (place + bytes.length) more (overwrite place bytes memory) =
      overwrite place (bytes ++ more) memory := by
  have front : (memory.take place ++ bytes).length = place + bytes.length := by
    rw [List.length_append, List.length_take, Nat.min_eq_left inside]
  have kept : (overwrite place bytes memory).take (place + bytes.length) =
      memory.take place ++ bytes := by
    rw [overwrite]
    exact List.take_left' front
  have behind : (overwrite place bytes memory).drop
      (place + bytes.length + more.length) =
        memory.drop (place + bytes.length + more.length) := by
    rw [overwrite, ← List.drop_drop, List.drop_left' front, List.drop_drop]
  rw [overwrite, kept, behind, overwrite, List.length_append, Nat.add_assoc,
    List.append_assoc (memory.take place)]

theorem le_length_overwrite (inside : place ≤ memory.length)
    (bytes : List UInt8) :
    place + bytes.length ≤ (overwrite place bytes memory).length := by
  rw [overwrite, List.length_append, List.length_append, List.length_take,
    Nat.min_eq_left inside]
  exact Nat.le_add_right _ _

end Overwriting

/-- Puts pieces side by side, from a place on. -/
def fill : Nat → List (List UInt8) → List UInt8 → List UInt8
  | _, [], memory => memory
  | place, piece :: pieces, memory =>
    fill (place + piece.length) pieces (overwrite place piece memory)

theorem fill_eq {place : Nat} {memory : List UInt8}
    (inside : place ≤ memory.length) (pieces : List (List UInt8)) :
    fill place pieces memory = overwrite place pieces.flatten memory := by
  induction pieces generalizing place memory with
  | nil => rw [fill, List.flatten_nil, overwrite_nil]
  | cons piece pieces induction =>
      have within := le_length_overwrite inside piece
      rw [fill, induction within, overwrite_append inside, List.flatten_cons]

namespace Payload

/-- A payload and the length before it. -/
def pieces (payload : List UInt8) : List (List UInt8) :=
  [Varint.encode (UInt64.ofNat payload.length), payload]

/-- A payload and the length of a fixed width before it. -/
def piecesFixed (width : Nat) (payload : List UInt8) :
    Except WireError (List (List UInt8)) :=
  if fixedLimit width < payload.length then
    .error (.lengthTooLarge payload.length (fixedLimit width))
  else
    .ok [BigEndian.encode width payload.length, payload]

/-- A text, the length before it and the zero byte behind it. -/
def closedPieces (text : String) : List (List UInt8) :=
  let body := Utf8.encode text
  [Varint.encode (UInt64.ofNat (body.length + 1)), body, [0]]

theorem pieces_flatten (payload : List UInt8) :
    (pieces payload).flatten = frame payload := by
  simp only [pieces, frame, List.flatten_cons, List.flatten_nil,
    List.append_nil]

theorem piecesFixed_flatten (width : Nat) (payload : List UInt8) :
    (piecesFixed width payload).map List.flatten =
      frameFixed width payload := by
  unfold piecesFixed frameFixed
  split
  · rfl
  · simp only [Except.map, List.flatten_cons, List.flatten_nil,
      List.append_nil]

theorem closedPieces_flatten (text : String) :
    (closedPieces text).flatten = frame (ofClosedText text) := by
  have counted : (ofClosedText text).length = (Utf8.encode text).length + 1 := by
    rw [ofClosedText, List.length_append, List.length_singleton]
  rw [frame, counted, ofClosedText]
  simp only [closedPieces, List.flatten_cons, List.flatten_nil,
    List.append_nil]

end Payload

/-- The pieces that the form of an item is made up of. -/
def Item.pieces : Item → Except WireError (List (List UInt8))
  | ⟨.bytes, payload⟩ => .ok (Payload.pieces payload)
  | ⟨.openText, text⟩ => .ok (Payload.pieces (Utf8.encode text))
  | ⟨.closedText, text⟩ => .ok (Payload.closedPieces text)
  | ⟨.shortBytes width, payload⟩ => Payload.piecesFixed width payload
  | ⟨.shortText width, text⟩ =>
    Payload.piecesFixed width (Utf8.encode text)
  | item => item.encode.map ([·])

theorem Item.single_flatten (item : Item) :
    (item.encode.map ([·])).map List.flatten = item.encode := by
  cases item.encode with
  | error error => rfl
  | ok form => simp only [Except.map, List.flatten_singleton]

theorem Item.pieces_flatten (item : Item) :
    item.pieces.map List.flatten = item.encode := by
  obtain ⟨kind, content⟩ := item
  cases kind with
  | bytes => exact congrArg Except.ok (Payload.pieces_flatten _)
  | openText => exact congrArg Except.ok (Payload.pieces_flatten _)
  | closedText => exact congrArg Except.ok (Payload.closedPieces_flatten _)
  | shortBytes width => exact Payload.piecesFixed_flatten width content
  | shortText width =>
      exact Payload.piecesFixed_flatten width (Utf8.encode content)
  | _ => exact single_flatten ⟨_, content⟩

namespace Buffer

/-! ## Filling a place in pieces -/

/-- Makes one place for all the pieces, moves past it, and fills it. -/
def writePieces (pieces : List (List UInt8)) : BufferM Unit := do
  let length := (pieces.map List.length).sum
  reserve length
  modify fun buffer =>
    { buffer with
      content := fill buffer.position pieces buffer.content
      position := buffer.position + length }

/-- Writes the pieces that an encoder comes to. -/
def writeInPieces : Except WireError (List (List UInt8)) → BufferM Unit
  | .ok pieces => writePieces pieces
  | .error error => throw error

theorem writePieces_eq {buffer : Buffer}
    (inside : buffer.position ≤ buffer.extent) (pieces : List (List UInt8)) :
    writePieces pieces buffer = write pieces.flatten buffer := by
  have length : (pieces.map List.length).sum = pieces.flatten.length :=
    List.length_flatten.symm
  rw [write_eq]
  simp only [writePieces, length, bind, EStateM.bind]
  cases made : reserve pieces.flatten.length buffer with
  | error error after => rfl
  | ok answer roomy =>
      have reserved := reserve_ok made
      have within : roomy.position ≤ roomy.content.length :=
        Nat.le_trans (Nat.le_add_right _ _) (reserved.room inside)
      have filled : ({ roomy with
          content := fill roomy.position pieces roomy.content
          position := roomy.position + pieces.flatten.length } : Buffer) =
            splice pieces.flatten roomy := by
        rw [fill_eq within]
        rfl
      exact congrArg (EStateM.Result.ok ()) filled

/-- The pieces of bytes as they are, or of an item. -/
def Addition.pieces : Addition → Except WireError (List (List UInt8))
  | raw bytes => .ok [bytes]
  | item added => added.pieces

def Addition.performInPieces (addition : Addition) : BufferM Unit :=
  writeInPieces addition.pieces

theorem Addition.pieces_flatten (addition : Addition) :
    addition.pieces.map List.flatten = addition.encode := by
  cases addition with
  | raw bytes =>
      simp only [pieces, encode, Except.map, List.flatten_singleton]
  | item added => exact added.pieces_flatten

theorem Addition.performInPieces_eq (addition : Addition) {buffer : Buffer}
    (inside : buffer.position ≤ buffer.extent) :
    addition.performInPieces buffer = addition.perform buffer := by
  rw [addition.perform_eq, ← addition.pieces_flatten, performInPieces]
  cases addition.pieces with
  | error error => rfl
  | ok pieces => exact writePieces_eq inside pieces

/-! ## One splice -/

/-- The extent of the memory once bytes have been put up to a place. -/
def extentUpTo (stop : Nat) (buffer : Buffer) : Nat :=
  if stop ≤ buffer.extent then buffer.extent else max 64 (2 * stop)

/-- The form stands where the cursor was, in memory that was long enough or has
become longer by zero bytes, and nothing else has changed. -/
structure Spliced (form : List UInt8) (buffer after : Buffer) : Prop where
  content_eq : after.content =
    overwrite buffer.position form
      (buffer.content ++
        List.replicate
          (buffer.extentUpTo (buffer.position + form.length) - buffer.extent)
          0)
  extent_eq : after.extent =
    buffer.extentUpTo (buffer.position + form.length)
  position_eq : after.position = buffer.position + form.length
  mark_eq : after.mark = buffer.mark
  name_eq : after.holding.name = buffer.holding.name
  kept : buffer.position + form.length ≤ buffer.extent →
    after.holding = buffer.holding

section Writing

variable {form : List UInt8} {buffer : Buffer}

theorem write_spliced_in_room (sound : Sound buffer)
    (writable : buffer.holding ≠ .view)
    (room : buffer.position + form.length ≤ buffer.extent) :
    ∃ after, write form buffer = .ok () after ∧
      Spliced form buffer after := by
  have fits : form.length ≤ buffer.remainder := by
    rw [remainder]
    omega
  have stays : buffer.extentUpTo (buffer.position + form.length) =
      buffer.extent := if_pos room
  refine ⟨_, (write_in_room sound writable fits).1, ?_⟩
  constructor
  · rw [stays, Nat.sub_self, List.replicate_zero, List.append_nil]
    rfl
  · rw [stays, (splice_wrote room).2]
  · rfl
  · rfl
  · rfl
  · intro _
    rfl

/-- What memory grows to is the extent that the bytes call for, unless so much
cannot be had. -/
theorem grownExtent_cases (required : Nat) :
    (grownExtent required = max 64 (2 * required) ∧
        max 64 (2 * required) ≤ allocationLimit) ∨
      (allocationLimit < grownExtent required ∧
        allocationLimit < max 64 (2 * required)) := by
  have limits := allocationLimit_lt
  have least : leastGrowth = 64 := rfl
  rw [grownExtent, least]
  omega

theorem reserve_of_short {needed : Nat}
    (addressed : buffer.position + needed < addressLimit)
    (growable : buffer.holding.isGrowable = true)
    (short : buffer.remainder < needed) :
    reserve needed buffer =
      if allocationLimit < grownExtent (buffer.position + needed) then
        .error (.allocationFailed (grownExtent (buffer.position + needed)))
          buffer
      else
        .ok () (buffer.grow (grownExtent (buffer.position + needed))) := by
  have writable : buffer.holding ≠ .view := by
    intro viewed
    rw [viewed] at growable
    cases growable
  simp only [reserve, if_neg (Nat.not_le_of_lt addressed), if_neg writable,
    if_neg (Nat.not_le_of_lt short), growable, if_true]

theorem Sound.lacking (sound : Sound buffer)
    (short : buffer.extent < buffer.position + form.length) :
    buffer.remainder < form.length := by
  have inside := sound.inside
  rw [remainder]
  omega

theorem write_spliced_grown (sound : Sound buffer)
    (growable : buffer.holding.isGrowable = true)
    (short : buffer.extent < buffer.position + form.length)
    (available : max 64 (2 * (buffer.position + form.length)) ≤
      allocationLimit) :
    ∃ after, write form buffer = .ok () after ∧
      Spliced form buffer after := by
  have inside := sound.inside
  have limits := allocationLimit_lt
  have lacking := sound.lacking short
  obtain ⟨grown, _⟩ | ⟨_, beyond⟩ :=
    grownExtent_cases (buffer.position + form.length)
  · have made := reserve_of_short (by omega) growable lacking
    rw [grown, if_neg (Nat.not_lt_of_le available)] at made
    have reserved := reserve_ok made
    have extent := (splice_wrote (reserved.room inside)).2
    have calls : buffer.extentUpTo (buffer.position + form.length) =
        max 64 (2 * (buffer.position + form.length)) :=
      if_neg (Nat.not_le_of_lt short)
    refine ⟨_, by rw [write_eq, made], ?_⟩
    constructor
    · rw [calls]
      rfl
    · rw [extent, calls, Buffer.extent, grow, List.length_append,
        List.length_replicate]
      simp only [Buffer.extent] at short ⊢
      omega
    · rfl
    · rfl
    · exact (Holding.name_of_isGrowable growable).symm
    · intro room
      exact (Nat.not_lt_of_le room short).elim
  · omega

/-- Bytes that one piece of memory can hold have a place behind every cursor. -/
theorem Sound.addressed_behind (sound : Sound buffer)
    (holdable : form.length ≤ allocationLimit) :
    buffer.position + form.length < addressLimit := by
  have inside := sound.inside
  have available := sound.available
  have twice : 2 * allocationLimit < addressLimit := by decide
  omega

theorem write_refused_allocation (sound : Sound buffer)
    (holdable : form.length ≤ allocationLimit)
    (growable : buffer.holding.isGrowable = true)
    (short : buffer.extent < buffer.position + form.length)
    (beyond : allocationLimit <
      max 64 (2 * (buffer.position + form.length))) :
    write form buffer = .error (.allocationFailed
      (grownExtent (buffer.position + form.length))) buffer := by
  have lacking := sound.lacking short
  obtain ⟨_, within⟩ | ⟨refused, _⟩ :=
    grownExtent_cases (buffer.position + form.length)
  · omega
  · rw [write_eq, reserve_of_short (sound.addressed_behind holdable) growable
      lacking, if_pos refused]

theorem write_refused_room (sound : Sound buffer)
    (holdable : form.length ≤ allocationLimit)
    (writable : buffer.holding ≠ .view)
    (rigid : buffer.holding.isGrowable = false)
    (short : buffer.extent < buffer.position + form.length) :
    write form buffer =
      .error (.capacityExhausted form.length buffer.remainder) buffer := by
  have lacking := sound.lacking short
  exact write_of_exhausted (sound.addressed_behind holdable) writable lacking
    rigid

end Writing

/-- What an addition puts into an empty buffer of its own memory is its form, and
fits into one piece of memory. -/
theorem Addition.form_of_empty {addition : Addition} {capacity : Nat}
    {empty first : Buffer} (opened : owned capacity = .ok empty)
    (added : addition.perform empty = .ok () first) :
    addition.encode = .ok first.written ∧
      first.written.length ≤ allocationLimit := by
  have sound : Sound empty := (Built.owned opened).sound
  have start : empty.written = [] := by
    unfold owned at opened
    split at opened
    · cases opened
    · cases opened
      rfl
  rw [addition.perform_eq] at added
  obtain ⟨form, encoded, wrote⟩ := writeEncoded_ok added
  have written := (write_ok sound.inside wrote).written_eq
  rw [start, List.nil_append] at written
  have soundFirst := (sound.write wrote).sound
  constructor
  · rw [written, encoded]
  · rw [length_written soundFirst.inside]
    exact Nat.le_trans soundFirst.inside soundFirst.available

/-- An addition that an empty buffer takes is one splice of the bytes that it
leaves there, in any writable buffer that has come to be.  Bytes that go up to
the extent find room, memory that can grow makes it as long as so much can be
had, and all other memory refuses them and stays as it is.  It makes no
difference that an item is put there in pieces. -/
theorem addition_is_one_splice {addition : Addition} {capacity : Nat}
    {empty first origin buffer : Buffer} (opened : owned capacity = .ok empty)
    (added : addition.perform empty = .ok () first) (built : Built origin)
    (reached : Session.Reached origin (.buffer buffer))
    (writable : buffer.holding ≠ .view) :
    let form := first.written
    let stop := buffer.position + form.length
    (stop ≤ buffer.extent ∨
        (buffer.holding.isGrowable = true ∧
          max 64 (2 * stop) ≤ allocationLimit) →
      ∃ after, addition.perform buffer = .ok () after ∧
        Spliced form buffer after) ∧
    (buffer.extent < stop → buffer.holding.isGrowable = true →
      allocationLimit < max 64 (2 * stop) →
        addition.perform buffer =
          .error (.allocationFailed (grownExtent stop)) buffer) ∧
    (buffer.extent < stop → buffer.holding.isGrowable = false →
      addition.perform buffer =
        .error (.capacityExhausted form.length
          (buffer.extent - buffer.position)) buffer) ∧
    addition.performInPieces buffer = addition.perform buffer := by
  intro form stop
  have sound : Sound buffer := (reached.memory_sound built).1
  obtain ⟨encoded, holdable⟩ := Addition.form_of_empty opened added
  have puts : addition.perform = write form := by
    rw [addition.perform_eq, encoded, writeEncoded]
  refine ⟨?_, ?_, ?_, addition.performInPieces_eq sound.inside⟩
  · intro possible
    rw [puts]
    by_cases room : stop ≤ buffer.extent
    · exact write_spliced_in_room sound writable room
    · obtain within | ⟨growable, available⟩ := possible
      · exact (room within).elim
      · exact write_spliced_grown sound growable (Nat.lt_of_not_le room)
          available
  · intro short growable beyond
    rw [puts]
    exact write_refused_allocation sound holdable growable short beyond
  · intro short rigid
    rw [puts]
    exact write_refused_room sound holdable writable rigid short

/-- A buffer that has been cut down to three of its eight bytes takes a text
behind the second of them: the text goes over the last byte and over three of
the zero bytes by which the memory becomes longer. -/
theorem addition_is_one_splice_over_last_byte :
    let text : Addition := .item ⟨.closedText, "é"⟩
    let full := leaves (Call.perform (.write [1, 2, 3]))
      (atStart (.owned 8) (List.replicate 8 0))
    let buffer := leaves (Call.perform (.setPosition 2)) full.intoWritten
    Session.Reached (atStart (.owned 8) (List.replicate 8 0))
        (.buffer buffer) ∧
      text.perform (atStart (.owned 0) []) =
        .ok () (leaves text.perform (atStart (.owned 0) [])) ∧
      ∃ after, text.perform buffer = .ok () after ∧
        text.performInPieces buffer = .ok () after ∧
        after.content = [1, 2, 3, 0xC3, 0xA9, 0] ++ List.replicate 58 0 ∧
        after.position = 6 := by
  intro text full buffer
  have opened : owned 8 = .ok (atStart (.owned 8) (List.replicate 8 0)) := rfl
  have built : Built (atStart (.owned 8) (List.replicate 8 0)) :=
    .owned opened
  have empty : owned 0 = .ok (atStart (.owned 0) []) := rfl
  have begun : Session.Reached (atStart (.owned 8) (List.replicate 8 0))
      (.buffer (atStart (.owned 8) (List.replicate 8 0))) := .start
  have wrote := begun.step (.call (.write [1, 2, 3]) _)
  have cut := wrote.step (.call .intoWritten _)
  have reached : Session.Reached _ (.buffer buffer) :=
    cut.step (.call (.setPosition 2) _)
  have added : text.perform (atStart (.owned 0) []) =
      .ok () (leaves text.perform (atStart (.owned 0) [])) := rfl
  have formed : (leaves text.perform (atStart (.owned 0) [])).written =
      [3, 0xC3, 0xA9, 0] := by decide
  obtain ⟨goes, _, _, pieces⟩ :=
    addition_is_one_splice empty added built reached nofun
  rw [formed] at goes
  obtain ⟨after, done, spliced⟩ := goes (.inr ⟨rfl, by decide⟩)
  refine ⟨reached, added, after, done, pieces.trans done, ?_,
    spliced.position_eq⟩
  rw [spliced.content_eq]
  decide

end Buffer

end TagWire
