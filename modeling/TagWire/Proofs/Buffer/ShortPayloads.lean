import TagWire.Proofs.Buffer.Texts
import TagWire.Proofs.Payload.FixedWidth

/-!
# Short payloads are written whole or not at all

A prefix of a fixed width limits its payload.  A payload above the limit is
refused before the buffer is touched, and every other one is written with its
whole length, so that it is found again whatever follows it.  What is found at
any bytes agrees with the prefix that stands there.  Text is its bytes, and the
reader of text refuses in addition what is not well-formed.
-/

namespace TagWire

/-- A payload behind its length as a big-endian number. -/
def Payload.shortForm (width : Nat) (payload : List UInt8) : List UInt8 :=
  BigEndian.encode width payload.length ++ payload

section Judging

variable {α : Type} {locate : List UInt8 → Except WireError Payload.Span}
  {bytes payload : List UInt8}

/-- A payload that is found is judged by its reader alone. -/
theorem Decoder.ofSpan_judged {length : Nat}
    (found : ofSpan locate pure bytes = .ok (payload, length))
    (read : List UInt8 → Except WireError α) :
    ofSpan locate read bytes =
      (read payload).map fun value => (value, length) := by
  simp only [ofSpan, bind_ok_iff] at found
  obtain ⟨span, located, _, same, last⟩ := found
  cases same
  cases last
  simp only [ofSpan, located, bind, Except.bind]
  cases read (span.of bytes) <;> rfl

/-- A payload that is not found is not judged. -/
theorem Decoder.ofSpan_refused {error : WireError}
    (refused : ofSpan locate pure bytes = .error error)
    (read : List UInt8 → Except WireError α) :
    ofSpan locate read bytes = .error error := by
  simp only [ofSpan, bind, Except.bind] at refused ⊢
  cases located : locate bytes with
  | error reason =>
      rw [located] at refused
      cases refused
      rfl
  | ok span =>
      rw [located] at refused
      cases refused

theorem Buffer.takeWith_judged {buffer after : Buffer}
    (taken : takeWith (Decoder.ofSpan locate pure) buffer = .ok payload after)
    (read : List UInt8 → Except WireError α) :
    takeWith (Decoder.ofSpan locate read) buffer =
      match read payload with
      | .ok value => .ok value after
      | .error error => .error error buffer := by
  obtain ⟨length, found, rfl⟩ := takeWith_ok_iff.mp taken
  simp only [takeWith, Decoder.ofSpan_judged found read]
  cases read payload <;> rfl

end Judging

/-- What is found behind a prefix of a fixed width agrees with the prefix, and
nothing is found exactly where the prefix or the payload is cut off. -/
structure Payload.LocatedWhole (width : Nat) (bytes : List UInt8) : Prop where
  found : ∀ {span}, locateFixed width bytes = .ok span →
    span.start = width ∧ width ≤ span.stop ∧ span.stop ≤ bytes.length ∧
      bytes.take width = BigEndian.encode width (span.stop - width)
  refused : (∃ error, locateFixed width bytes = .error error) ↔
    bytes.length < width ∨
      bytes.length < width + BigEndian.decode (bytes.take width)
  steps : bytes.length < Word.limit →
    locateFixedInWords width bytes = locateFixed width bytes

namespace Buffer

variable {width : Nat} {payload : List UInt8} {origin buffer : Buffer}

/-- A payload goes behind its length into a buffer that has the room or can make
it, and is found there again; or it is too long, and the buffer stays as it
is. -/
structure WrittenWhole (width : Nat) (payload : List UInt8)
    (buffer : Buffer) : Prop where
  tooLong : append (Codec.shortBytes width) payload buffer =
      .error (.lengthTooLarge payload.length (Nat.pow 256 width - 1)) buffer ↔
    Nat.pow 256 width - 1 < payload.length
  unchanged : ∀ {error after},
    append (Codec.shortBytes width) payload buffer = .error error after →
      after = buffer
  written : payload.length ≤ Nat.pow 256 width - 1 →
    buffer.holding ≠ .view →
      let form := Payload.shortForm width payload
      let stop := buffer.position + form.length
      stop ≤ buffer.extent ∨
          (buffer.holding.isGrowable = true ∧
            max 64 (2 * stop) ≤ allocationLimit) →
        ∃ after, append (Codec.shortBytes width) payload buffer =
            .ok () after ∧
          after.written = buffer.written ++ form ∧ Spliced form buffer after
  starved : payload.length ≤ Nat.pow 256 width - 1 →
    buffer.holding.isGrowable = true →
      let form := Payload.shortForm width payload
      let stop := buffer.position + form.length
      buffer.extent < stop → allocationLimit < max 64 (2 * stop) →
        append (Codec.shortBytes width) payload buffer =
          .error (.allocationFailed (grownExtent stop)) buffer
  found : payload.length ≤ Nat.pow 256 width - 1 → ∀ trailing,
    Payload.locateFixed width (Payload.shortForm width payload ++ trailing) =
      .ok { start := width, stop := width + payload.length }
  steps : payload.length < Word.limit →
    writeInPieces (Payload.piecesFixedInWords width payload) buffer =
      append (Codec.shortBytes width) payload buffer

/-- Text is written as its bytes are, and read where they are if they are
well-formed. -/
structure TextAsBytes (width : Nat) (buffer : Buffer) : Prop where
  appended : ∀ text, append (Codec.shortText width) text buffer =
    append (Codec.shortBytes width) (Utf8.encode text) buffer
  refused : ∀ {error},
    next (Codec.shortBytes width) buffer = .error error buffer →
      next (Codec.shortText width) buffer = .error error buffer
  read : ∀ {payload after},
    next (Codec.shortBytes width) buffer = .ok payload after →
      ∀ text, next (Codec.shortText width) buffer = .ok text after ↔
        Utf8.encode text = payload
  malformed : ∀ {payload after},
    next (Codec.shortBytes width) buffer = .ok payload after →
      ((∃ fault, next (Codec.shortText width) buffer =
          .error (.invalidText fault) buffer) ↔
        ¬payload.toByteArray.IsValidUTF8)

theorem append_short_of_long
    (long : Payload.fixedLimit width < payload.length) :
    append (Codec.shortBytes width) payload buffer =
      .error (.lengthTooLarge payload.length (Payload.fixedLimit width))
        buffer := by
  simp only [append, Codec.shortBytes, Payload.frameFixed, if_pos long]
  rfl

theorem append_short_of_fits
    (fits : payload.length ≤ Payload.fixedLimit width) :
    append (Codec.shortBytes width) payload =
      write (Payload.shortForm width payload) := by
  simp only [append, Codec.shortBytes, Payload.frameFixed,
    if_neg (Nat.not_lt_of_le fits), writeEncoded, Payload.shortForm]

/-- A write never refuses a payload for its length. -/
theorem write_ne_lengthTooLarge {form : List UInt8} {length limit : Nat}
    {after : Buffer} :
    write form buffer ≠ .error (.lengthTooLarge length limit) after := by
  intro failed
  obtain ⟨_, ⟨_, same⟩ | ⟨same, _⟩ | ⟨same, _⟩⟩ :=
    reserve_error (write_error failed) <;> cases same

theorem append_short_tooLong_iff :
    append (Codec.shortBytes width) payload buffer =
        .error (.lengthTooLarge payload.length (Payload.fixedLimit width))
          buffer ↔
      Payload.fixedLimit width < payload.length := by
  constructor
  · intro failed
    by_cases long : Payload.fixedLimit width < payload.length
    · exact long
    · rw [append_short_of_fits (Nat.le_of_not_lt long)] at failed
      exact absurd failed write_ne_lengthTooLarge
  · exact append_short_of_long

/-- The form of a payload within the limit of a narrow prefix is no longer than
one piece of memory. -/
theorem length_shortForm_le (narrower : width < 8)
    (fits : payload.length ≤ Payload.fixedLimit width) :
    (Payload.shortForm width payload).length ≤ allocationLimit := by
  have most : Nat.pow 256 width ≤ Nat.pow 256 7 :=
    Nat.pow_le_pow_right (by decide) (Nat.le_of_lt_succ narrower)
  have room : Nat.pow 256 7 + 8 ≤ allocationLimit := by decide
  rw [Payload.fixedLimit] at fits
  rw [Payload.shortForm, List.length_append, BigEndian.length_encode]
  omega

theorem writtenWhole (sound : Sound buffer) (narrower : width < 8)
    (payload : List UInt8) : WrittenWhole width payload buffer where
  tooLong := append_short_tooLong_iff
  unchanged := fun failed => (writeEncoded_error failed).1
  written := by
    intro fits writable form stop possible
    rw [append_short_of_fits fits]
    -- Room that is there and room that is made are two different writes.
    have spliced : ∃ after, write form buffer = .ok () after ∧
        Spliced form buffer after := by
      by_cases room : stop ≤ buffer.extent
      · exact write_spliced_in_room sound writable room
      · obtain ⟨growable, available⟩ := possible.resolve_left room
        exact write_spliced_grown sound growable (Nat.lt_of_not_le room)
          available
    obtain ⟨after, wrote, puts⟩ := spliced
    exact ⟨after, wrote, (write_ok sound.inside wrote).written_eq, puts⟩
  starved := by
    intro fits growable form stop short beyond
    rw [append_short_of_fits fits]
    exact write_refused_allocation sound (length_shortForm_le narrower fits)
      growable short beyond
  found := Payload.locateFixed_append
  steps := by
    intro addressed
    rw [Payload.piecesFixedInWords_eq narrower addressed]
    exact Addition.performInPieces_eq (.item ⟨.shortBytes width, payload⟩)
      sound.inside

theorem textAsBytes (width : Nat) (buffer : Buffer) :
    TextAsBytes width buffer where
  appended := fun _ => rfl
  refused := by
    intro error failed
    obtain ⟨_, refused⟩ := takeWith_error_iff.mp failed
    exact takeWith_error_iff.mpr
      ⟨rfl, Decoder.ofSpan_refused refused Payload.openText⟩
  read := by
    intro payload after taken text
    have judged : next (Codec.shortText width) buffer = _ :=
      takeWith_judged taken Payload.openText
    rw [judged, ← Payload.openText_ok_iff]
    cases Payload.openText payload <;> simp
  malformed := by
    intro payload after taken
    have judged : next (Codec.shortText width) buffer = _ :=
      takeWith_judged taken Payload.openText
    rw [judged, ← Payload.openText_invalid_iff]
    cases Payload.openText payload <;> simp

/-- No prefix of a fixed width tells a wrong length.  A payload above the limit
of the prefix is refused and changes nothing, and every other one is written
whole behind its length, where there is room for it or can be made, and is found
again.  What is found anywhere has the length that stands before it.  Text
behaves as its bytes, and is in addition refused where it is not well-formed. -/
theorem short_payload_never_cut (built : Built origin)
    (reached : Session.Reached origin (.buffer buffer))
    (narrower : width < 8) :
    (∀ payload, WrittenWhole width payload buffer) ∧
      (∀ bytes, Payload.LocatedWhole width bytes) ∧
      TextAsBytes width buffer := by
  have sound : Sound buffer := (reached.memory_sound built).1
  refine ⟨writtenWhole sound narrower, ?_, textAsBytes width buffer⟩
  intro bytes
  exact {
    found := Payload.prefix_of_locatedFixed
    refused := Payload.locateFixed_refused_iff
    steps := Payload.locateFixedInWords_eq narrower }

/-- One byte goes behind two bytes of length into the middle of the caller's
memory. -/
theorem short_payload_never_cut_in_borrowed_memory :
    let buffer := leaves (Call.perform (.write [9])) (borrowed [1, 2, 3, 4, 5])
    Built (borrowed [1, 2, 3, 4, 5]) ∧
      Session.Reached (borrowed [1, 2, 3, 4, 5]) (.buffer buffer) ∧
      2 < 8 ∧
      ∃ after, append (Codec.shortBytes 2) [7] buffer = .ok () after ∧
        after.content = [9, 0, 1, 7, 5] ∧ after.position = 4 := by
  intro buffer
  have built : Built (borrowed [1, 2, 3, 4, 5]) := .borrowed (by decide)
  have reached : Session.Reached (borrowed [1, 2, 3, 4, 5])
      (.buffer buffer) :=
    Session.Reached.start.step (.call (.write [9]) _)
  refine ⟨built, reached, by decide, ?_⟩
  obtain ⟨whole, _⟩ := short_payload_never_cut built reached
    (by decide : 2 < 8)
  obtain ⟨after, done, _, spliced⟩ :=
    (whole [7]).written (by decide) nofun (.inl (by decide))
  refine ⟨after, done, ?_, spliced.position_eq⟩
  rw [spliced.content_eq]
  decide

end Buffer

end TagWire
