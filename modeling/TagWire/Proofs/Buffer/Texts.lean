import TagWire.Proofs.Payload.Locating
import TagWire.Proofs.Session

/-!
# Text is read exactly where it was written

A buffer reads a text where the bytes behind the cursor start with the form of
this text, and nowhere else.  The form has the length of the text in front, and
in one variant a zero byte behind the text, which the length counts.  Of a
payload that is all there one zero byte is taken off, and the rest is a text
exactly if it is well-formed; a payload without this byte is refused before
anything else is asked about it.
-/

namespace TagWire

namespace Payload

variable {payload : List UInt8} {text : String}

theorem openText_ok_iff : openText payload = .ok text ↔
    Utf8.encode text = payload := by
  constructor
  · exact openText_ok
  · rintro rfl
    exact openText_encode text

theorem closedText_ok_iff : closedText payload = .ok text ↔
    ofClosedText text = payload := by
  constructor
  · exact closedText_ok
  · rintro rfl
    exact closedText_ofClosedText text

theorem openText_invalid_iff :
    (∃ fault, openText payload = .error (.invalidText fault)) ↔
      ¬payload.toByteArray.IsValidUTF8 := by
  rw [← Utf8.decode_refused_iff, openText]
  cases Utf8.decode payload with
  | error fault => simp [Except.mapError]
  | ok text => simp [Except.mapError]

/-- One zero byte is taken off, and no more. -/
theorem closedText_concat (front : List UInt8) :
    closedText (front ++ [0]) = openText front := by
  rw [closedText, if_pos (by simp), List.dropLast_concat]

/-- A zero byte is missing where there is no byte at all, or another one at the
end. -/
theorem closedText_missing_iff :
    closedText payload = .error .missingTerminator ↔
      payload = [] ∨ ∃ front last, payload = front ++ [last] ∧ last ≠ 0 := by
  constructor
  · intro refused
    rcases List.eq_nil_or_concat payload with empty | ⟨front, last, whole⟩
    · exact .inl empty
    · rw [List.concat_eq_append] at whole
      refine .inr ⟨front, last, whole, ?_⟩
      rintro rfl
      rw [whole, closedText_concat] at refused
      obtain ⟨_, same⟩ := openText_error refused
      cases same
  · rintro (rfl | ⟨front, last, rfl, other⟩)
    · rfl
    · rw [closedText, if_neg (by simpa using other)]

/-- The form of a text with a zero byte at the end. -/
def closedForm (text : String) : List UInt8 :=
  Varint.encode (UInt64.ofNat (text.utf8ByteSize + 1)) ++
    Utf8.encode text ++ [0]

/-- The form of a text that ends with its last byte. -/
def openForm (text : String) : List UInt8 :=
  Varint.encode (UInt64.ofNat text.utf8ByteSize) ++ Utf8.encode text

theorem frame_ofClosedText (text : String) :
    frame (ofClosedText text) = closedForm text := by
  rw [frame, ofClosedText, List.length_append, List.length_singleton,
    Utf8.length_encode, closedForm, List.append_assoc]

theorem frame_encode (text : String) :
    frame (Utf8.encode text) = openForm text := by
  rw [frame, Utf8.length_encode, openForm]

end Payload

namespace Decoder

variable {α : Type} {bytes : List UInt8} {value : α} {length : Nat}

/-- An item is read exactly where the bytes start with a payload behind its
length that the reader takes for the item. -/
theorem ofSpan_ok_iff {read : List UInt8 → Except WireError α}
    (addressed : bytes.length < Word.limit) :
    ofSpan Payload.locate read bytes = .ok (value, length) ↔
      ∃ payload, Payload.frame payload <+: bytes ∧
        length = (Payload.frame payload).length ∧ read payload = .ok value := by
  constructor
  · intro found
    simp only [ofSpan, bind_ok_iff] at found
    obtain ⟨span, located, _, accepted, same⟩ := found
    cases same
    have front := Payload.locate_ok located
    obtain ⟨_, _, _, _, present, _⟩ := Payload.locate_ok_iff.mp located
    refine ⟨span.of bytes, ?_, ?_, accepted⟩
    · rw [← front]
      exact List.take_prefix span.stop bytes
    · rw [← front, List.length_take, Nat.min_eq_left present]
  · rintro ⟨payload, ⟨trailing, rfl⟩, rfl, accepted⟩
    have inside : (Payload.frame payload).length < Word.limit := by
      rw [List.length_append] at addressed
      exact Nat.lt_of_le_of_lt (Nat.le_add_right _ _) addressed
    rw [ofSpan_frame read inside trailing, accepted]
    rfl

end Decoder

namespace Buffer

section Reading

variable {α : Type} {origin buffer after : Buffer}

theorem Sound.unread_addressed (sound : Sound buffer) :
    buffer.unread.length < Word.limit := by
  have available := sound.available
  have limits := allocationLimit_lt
  have least := Nat.sub_le buffer.extent buffer.position
  rw [length_unread, remainder]
  simp only [addressLimit] at limits
  omega

/-- What its reader makes of one payload only is taken exactly where this
payload stands behind its length. -/
theorem takeWith_frame_iff {payloadOf : α → List UInt8}
    {read : List UInt8 → Except WireError α} {content : α}
    (accepts : ∀ {payload}, read payload = .ok content ↔
      payloadOf content = payload)
    (sound : Sound buffer) :
    takeWith (Decoder.ofSpan Payload.locate read) buffer =
        .ok content after ↔
      Payload.frame (payloadOf content) <+: buffer.unread ∧
        after = buffer.advance (Payload.frame (payloadOf content)).length := by
  rw [takeWith_ok_iff]
  constructor
  · rintro ⟨length, found, rfl⟩
    obtain ⟨payload, present, rfl, accepted⟩ :=
      (Decoder.ofSpan_ok_iff sound.unread_addressed).mp found
    rw [accepts.mp accepted]
    exact ⟨present, rfl⟩
  · rintro ⟨present, rfl⟩
    exact ⟨_, (Decoder.ofSpan_ok_iff sound.unread_addressed).mpr
      ⟨_, present, rfl, accepts.mpr rfl⟩, rfl⟩

/-- Where a payload is all there, the buffer refuses what its reader refuses. -/
theorem takeWith_frame_refused_iff
    {read : List UInt8 → Except WireError α} {payload : List UInt8}
    {error : WireError} (sound : Sound buffer)
    (present : Payload.frame payload <+: buffer.unread) :
    takeWith (Decoder.ofSpan Payload.locate read) buffer =
        .error error buffer ↔
      read payload = .error error := by
  obtain ⟨trailing, whole⟩ := present
  have addressed : (Payload.frame payload).length < Word.limit := by
    have within := sound.unread_addressed
    rw [← whole, List.length_append] at within
    exact Nat.lt_of_le_of_lt (Nat.le_add_right _ _) within
  rw [takeWith_error_iff, ← whole,
    Decoder.ofSpan_frame read addressed trailing]
  cases read payload with
  | error refusal => simp [Except.map]
  | ok content => simp [Except.map]

/-- A buffer reads a text exactly where the text's form stands behind the
cursor, and moves past the form, which is what it would have written for the
text.  A payload that is all there lacks its zero byte exactly if it is empty or
ends with another byte, and is otherwise refused exactly if what stands before
the zero byte is not well-formed. -/
theorem text_read_exactly_where_written (built : Built origin)
    (reached : Session.Reached origin (.buffer buffer)) :
    (∀ text after, next Codec.closedText buffer = .ok text after ↔
      Payload.closedForm text <+: buffer.unread ∧
        after = buffer.advance (Payload.closedForm text).length) ∧
    (∀ text after, next Codec.openText buffer = .ok text after ↔
      Payload.openForm text <+: buffer.unread ∧
        after = buffer.advance (Payload.openForm text).length) ∧
    (∀ text,
      append Codec.closedText text = write (Payload.closedForm text) ∧
        append Codec.openText text = write (Payload.openForm text)) ∧
    (∀ form after, write form buffer = .ok () after →
      Wrote form buffer after) ∧
    (∀ payload,
      Varint.encode (UInt64.ofNat payload.length) ++ payload <+:
          buffer.unread →
        (next Codec.closedText buffer = .error .missingTerminator buffer ↔
          payload = [] ∨
            ∃ front last, payload = front ++ [last] ∧ last ≠ 0) ∧
        (∀ front, payload = front ++ [0] →
          ((∃ fault,
              next Codec.closedText buffer =
                .error (.invalidText fault) buffer) ↔
            ¬front.toByteArray.IsValidUTF8)) ∧
        ((∃ fault,
            next Codec.openText buffer =
              .error (.invalidText fault) buffer) ↔
          ¬payload.toByteArray.IsValidUTF8)) := by
  have sound : Sound buffer := (reached.memory_sound built).1
  refine ⟨?_, ?_, ?_, fun _ _ => write_ok sound.inside, ?_⟩
  · intro text after
    rw [← Payload.frame_ofClosedText]
    exact takeWith_frame_iff Payload.closedText_ok_iff sound
  · intro text after
    rw [← Payload.frame_encode]
    exact takeWith_frame_iff Payload.openText_ok_iff sound
  · intro text
    rw [← Payload.frame_ofClosedText, ← Payload.frame_encode]
    exact ⟨rfl, rfl⟩
  · intro payload present
    have refused : ∀ {read : List UInt8 → Except WireError String} {error},
        takeWith (Decoder.ofSpan Payload.locate read) buffer =
            .error error buffer ↔
          read payload = .error error :=
      takeWith_frame_refused_iff sound present
    refine ⟨refused.trans Payload.closedText_missing_iff, ?_, ?_⟩
    · rintro front rfl
      rw [← Payload.openText_invalid_iff, ← Payload.closedText_concat]
      exact exists_congr fun fault => refused
    · rw [← Payload.openText_invalid_iff]
      exact exists_congr fun fault => refused

/-- Of two zero bytes at the end of a payload one belongs to the text. -/
theorem text_with_zero_byte_read_where_written :
    Built (view [3, 0x61, 0, 0, 7]) ∧
      Session.Reached (view [3, 0x61, 0, 0, 7])
        (.buffer (view [3, 0x61, 0, 0, 7])) ∧
      next Codec.closedText (view [3, 0x61, 0, 0, 7]) =
        .ok "a\x00" ((view [3, 0x61, 0, 0, 7]).advance 4) := by
  have built : Built (view [3, 0x61, 0, 0, 7]) := .view (by decide)
  have reached : Session.Reached (view [3, 0x61, 0, 0, 7])
      (.buffer (view [3, 0x61, 0, 0, 7])) := .start
  refine ⟨built, reached, ?_⟩
  have form : Payload.closedForm "a\x00" = [3, 0x61, 0, 0] := by decide
  obtain ⟨closed, _⟩ := text_read_exactly_where_written built reached
  rw [closed, form]
  exact ⟨⟨[7], rfl⟩, rfl⟩

end Reading

end Buffer

end TagWire
