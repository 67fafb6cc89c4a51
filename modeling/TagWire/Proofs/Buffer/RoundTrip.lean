import TagWire.Proofs.Session

/-!
# Items read back

Items of any kinds are appended one behind the other, at whatever cursor and
over whatever bytes.  Once the cursor is back where it was, reading one item of
each kind gives the same items and comes to the same place: every form is read
alike whatever follows it.

Appending fails for an item that breaks the limits of its kind or for want of
room, and for nothing else.
-/

namespace TagWire

namespace Buffer

/-- The forms of items one behind the other. -/
def encodeAll : List Item → Except WireError (List UInt8)
  | [] => .ok []
  | item :: items => do
    let form ← item.encode
    let forms ← encodeAll items
    return form ++ forms

def appendAll : List Item → BufferM Unit
  | [] => pure ()
  | item :: items => do
    append item.kind.codec item.content
    appendAll items

/-- Takes an item of each kind. -/
def nextAll : List ItemKind → BufferM (List Item)
  | [] => pure []
  | kind :: kinds => do
    let content ← next kind.codec
    let items ← nextAll kinds
    return { kind, content } :: items

theorem encodeAll_cons {item : Item} {form : List UInt8}
    (encoded : item.encode = .ok form) (items : List Item) :
    encodeAll (item :: items) = (encodeAll items).map (form ++ ·) := by
  simp only [encodeAll, encoded, Bind.bind, Except.bind]
  cases encodeAll items <;> rfl

theorem encodeAll_cons_ok {item : Item} {items : List Item}
    {forms : List UInt8} (encoded : encodeAll (item :: items) = .ok forms) :
    ∃ form rest, item.encode = .ok form ∧ encodeAll items = .ok rest ∧
      forms = form ++ rest := by
  simp only [encodeAll, bind_ok_iff] at encoded
  obtain ⟨form, first, rest, behind, same⟩ := encoded
  cases same
  exact ⟨form, rest, first, behind, rfl⟩

theorem encodeAll_of_fits {items : List Item}
    (fits : ∀ item ∈ items, item.Fits) :
    ∃ forms, encodeAll items = .ok forms := by
  induction items with
  | nil => exact ⟨[], rfl⟩
  | cons item items induction =>
      obtain ⟨form, encoded⟩ := Item.encode_of_fits
        (fits item List.mem_cons_self)
      obtain ⟨forms, rest⟩ := induction
        fun other member => fits other (List.mem_cons_of_mem _ member)
      rw [encodeAll_cons encoded, rest]
      exact ⟨_, rfl⟩

theorem appendAll_cons {item : Item} {form : List UInt8}
    (encoded : item.encode = .ok form) (items : List Item) (buffer : Buffer) :
    appendAll (item :: items) buffer =
      match write form buffer with
      | .ok () after => appendAll items after
      | .error error after => .error error after := by
  have appended : append item.kind.codec item.content = write form := by
    simp only [Item.encode] at encoded
    simp only [append, encoded, writeEncoded]
  simp only [appendAll, appended, Bind.bind, EStateM.bind]
  cases write form buffer <;> rfl

theorem appendAll_refused {item : Item} {error : WireError}
    (refused : item.encode = .error error) (items : List Item)
    (buffer : Buffer) :
    appendAll (item :: items) buffer = .error error buffer := by
  have appended : append item.kind.codec item.content = throw error := by
    simp only [Item.encode] at refused
    simp only [append, refused, writeEncoded]
  simp only [appendAll, appended, Bind.bind, EStateM.bind]
  rfl

/-- Memory that can grow refuses bytes only for want of memory. -/
theorem write_growing {bytes : List UInt8} {buffer : Buffer}
    (growable : buffer.holding.isGrowable = true) :
    (∃ requested, write bytes buffer =
        .error (.allocationFailed requested) buffer) ∨
      ∃ after, write bytes buffer = .ok () after := by
  cases outcome : write bytes buffer with
  | ok answer after => exact .inr ⟨after, rfl⟩
  | error error after =>
      obtain ⟨rfl, ⟨requested, rfl⟩ | ⟨_, viewed⟩ | ⟨_, fixed⟩⟩ :=
        reserve_error (write_error outcome)
      · exact .inl ⟨requested, rfl⟩
      · rw [viewed] at growable
        cases growable
      · rw [fixed] at growable
        cases growable

theorem Sound.addressed {buffer : Buffer} (sound : Sound buffer) :
    buffer.position < addressLimit := by
  have inside := sound.inside
  have available := sound.available
  have limits := allocationLimit_lt
  omega

/-- Bytes for which there is room are written where they are. -/
theorem write_in_room {bytes : List UInt8} {buffer : Buffer}
    (sound : Sound buffer) (writable : buffer.holding ≠ .view)
    (room : bytes.length ≤ buffer.remainder) :
    write bytes buffer = .ok () (splice bytes buffer) ∧
      (splice bytes buffer).remainder = buffer.remainder - bytes.length := by
  have inside := sound.inside
  have stop : buffer.position + bytes.length ≤ buffer.extent := by
    simp only [remainder] at room
    omega
  have addressed : buffer.position + bytes.length < addressLimit := by
    have available := sound.available
    have limits := allocationLimit_lt
    omega
  constructor
  · exact write_of_room addressed writable room
  · have moved : (splice bytes buffer).position =
        buffer.position + bytes.length := rfl
    rw [remainder, (splice_wrote stop).2, moved, remainder, Nat.sub_add_eq]

section Appending

variable {items : List Item} {forms : List UInt8} {buffer : Buffer}

theorem appendAll_growing (sound : Sound buffer)
    (growable : buffer.holding.isGrowable = true)
    (encoded : encodeAll items = .ok forms) :
    (∃ requested after, appendAll items buffer =
        .error (.allocationFailed requested) after) ∨
      ∃ after, appendAll items buffer = .ok () after ∧
        Wrote forms buffer after := by
  -- A write leaves the memory sound and able to grow, so the rest of the items
  -- meets what the first one met.
  induction items generalizing forms buffer with
  | nil =>
      cases encoded
      exact .inr ⟨buffer, rfl, .nil sound.inside sound.addressed⟩
  | cons item items induction =>
      obtain ⟨form, rest, first, behind, rfl⟩ := encodeAll_cons_ok encoded
      rw [appendAll_cons first]
      rcases write_growing growable with
        ⟨requested, failed⟩ | ⟨middle, written⟩
      · rw [failed]
        exact .inl ⟨requested, buffer, rfl⟩
      · rw [written]
        have wrote := write_ok sound.inside written
        have soundMiddle := (sound.write written).sound
        rcases induction soundMiddle (wrote.growable_eq.trans growable) behind
          with failed | ⟨after, appended, wroteRest⟩
        · exact .inl failed
        · exact .inr ⟨after, appended, wrote.trans wroteRest⟩

theorem appendAll_in_room (sound : Sound buffer)
    (writable : buffer.holding ≠ .view)
    (encoded : encodeAll items = .ok forms)
    (room : forms.length ≤ buffer.remainder) :
    ∃ after, appendAll items buffer = .ok () after ∧
      Wrote forms buffer after := by
  induction items generalizing forms buffer with
  | nil =>
      cases encoded
      exact ⟨buffer, rfl, .nil sound.inside sound.addressed⟩
  | cons item items induction =>
      obtain ⟨form, rest, first, behind, rfl⟩ := encodeAll_cons_ok encoded
      rw [List.length_append] at room
      have fits : form.length ≤ buffer.remainder := by omega
      obtain ⟨written, shorter⟩ := write_in_room sound writable fits
      have wrote := write_ok sound.inside written
      have soundMiddle := (sound.write written).sound
      obtain ⟨after, appended, wroteRest⟩ :=
        induction soundMiddle writable behind (by omega)
      rw [appendAll_cons first, written]
      exact ⟨after, appended, wrote.trans wroteRest⟩

end Appending

theorem nextAll_cons {kind : ItemKind} {content : kind.Content}
    {buffer middle : Buffer}
    (taken : next kind.codec buffer = .ok content middle)
    (kinds : List ItemKind) :
    nextAll (kind :: kinds) buffer =
      match nextAll kinds middle with
      | .ok items after => .ok (⟨kind, content⟩ :: items) after
      | .error error after => .error error after := by
  simp only [nextAll, Bind.bind, EStateM.bind, taken]
  cases nextAll kinds middle <;> rfl

theorem nextAll_reads {items : List Item} {forms trailing : List UInt8}
    {buffer : Buffer} (encoded : encodeAll items = .ok forms)
    (addressed : forms.length < Word.limit)
    (stands : buffer.unread = forms ++ trailing) :
    nextAll (items.map Item.kind) buffer =
      .ok (items.map Item.stored) (buffer.advance forms.length) := by
  induction items generalizing forms buffer with
  | nil =>
      cases encoded
      rfl
  | cons item items induction =>
      obtain ⟨form, rest, first, behind, rfl⟩ := encodeAll_cons_ok encoded
      rw [List.length_append] at addressed
      rw [List.append_assoc] at stands
      have read := ItemKind.encode_reads first
        (Nat.lt_of_le_of_lt (Nat.le_add_right _ _) addressed)
        (rest ++ trailing)
      rw [← stands] at read
      have taken : next item.kind.codec buffer = _ :=
        takeWith_of_decode read
      have standsBehind :
          (buffer.advance form.length).unread = rest ++ trailing := by
        rw [unread_advance, stands, List.drop_left]
      have takenRest := induction behind
        (Nat.lt_of_le_of_lt (Nat.le_add_left _ _) addressed) standsBehind
      rw [List.map_cons, nextAll_cons taken, takenRest]
      simp only [advance, List.map_cons, List.length_append, Nat.add_assoc]
      rfl

theorem Wrote.unread_back {bytes : List UInt8} {buffer after : Buffer}
    (wrote : Wrote bytes buffer after)
    (inside : buffer.position ≤ buffer.extent) :
    (after.moveTo buffer.position).unread = bytes ++ after.unread := by
  have whole : after.content = buffer.written ++ (bytes ++ after.unread) := by
    rw [← List.append_assoc, ← wrote.written_eq]
    exact (List.take_append_drop _ _).symm
  rw [unread, moveTo, whole]
  exact List.drop_left' (length_written inside)

theorem Wrote.reads_back {items : List Item} {forms : List UInt8}
    {buffer after : Buffer} (wrote : Wrote forms buffer after)
    (encoded : encodeAll items = .ok forms)
    (inside : buffer.position ≤ buffer.extent) :
    ∃ back last, setPosition buffer.position after = .ok () back ∧
      nextAll (items.map Item.kind) back = .ok (items.map Item.stored) last ∧
      last.position = after.position := by
  have shorter : buffer.position ≤ after.position := by
    rw [wrote.position_eq]
    exact Nat.le_add_right _ _
  have addressed : forms.length < Word.limit := by
    have limit := wrote.addressed
    rw [wrote.position_eq] at limit
    exact Nat.lt_of_le_of_lt (Nat.le_add_left _ _) limit
  refine ⟨_, _, setPosition_of_le (Nat.le_trans shorter wrote.inside),
    nextAll_reads encoded addressed (wrote.unread_back inside), ?_⟩
  rw [wrote.position_eq]
  rfl

/-- Items that keep to the limits of their kinds are appended to any writable
buffer that has come to be, if it can grow as it has to or has room for all of
them, and with the cursor set back they are read as they were, but for the high
bits of three-byte words. -/
theorem appended_items_read_back {origin buffer : Buffer}
    (built : Built origin)
    (reached : Session.Reached origin (.buffer buffer))
    (writable : buffer.holding ≠ .view) {items : List Item}
    (fits : ∀ item ∈ items, item.Fits)
    (room : (buffer.holding.isGrowable = true ∧
        ∀ requested after, appendAll items buffer ≠
          .error (.allocationFailed requested) after) ∨
      ∃ forms, encodeAll items = .ok forms ∧
        forms.length ≤ buffer.remainder) :
    ∃ after back last, appendAll items buffer = .ok () after ∧
      setPosition buffer.position after = .ok () back ∧
      nextAll (items.map Item.kind) back = .ok (items.map Item.stored) last ∧
      last.position = after.position := by
  -- Of the way to this buffer only its soundness matters.
  have sound : Sound buffer := (reached.memory_sound built).1
  obtain ⟨forms, encoded⟩ := encodeAll_of_fits fits
  have appended : ∃ after, appendAll items buffer = .ok () after ∧
      Wrote forms buffer after := by
    rcases room with ⟨growable, allocated⟩ | ⟨found, same, within⟩
    · rcases appendAll_growing sound growable encoded with
        ⟨requested, after, failed⟩ | appended
      · exact (allocated requested after failed).elim
      · exact appended
    · rw [encoded] at same
      cases same
      exact appendAll_in_room sound writable encoded within
  obtain ⟨after, done, wrote⟩ := appended
  obtain ⟨back, last, set, taken, place⟩ :=
    wrote.reads_back encoded sound.inside
  exact ⟨after, back, last, done, set, taken, place⟩

/-- Behind a byte that stands at the cursor's start, three items fill all but
two of the caller's bytes.  The high bits of the word are lost, a text may have
a zero byte inside, and an empty one is read as such. -/
theorem appended_items_read_back_over_stale_bytes :
    let items : List Item :=
      [⟨.uint24, (0x01020304 : UInt32)⟩, ⟨.shortText 1, "é\x00"⟩,
        ⟨.closedText, ""⟩]
    let buffer := leaves (Call.perform (.write [7]))
      (borrowed [9, 9, 9, 9, 9, 9, 9, 9, 9, 9, 9, 9])
    Session.Reached (borrowed [9, 9, 9, 9, 9, 9, 9, 9, 9, 9, 9, 9])
        (.buffer buffer) ∧
      (∀ item ∈ items, item.Fits) ∧
      ∃ after back last, appendAll items buffer = .ok () after ∧
        setPosition buffer.position after = .ok () back ∧
        nextAll [.uint24, .shortText 1, .closedText] back =
          .ok [⟨.uint24, (0x020304 : UInt32)⟩, ⟨.shortText 1, "é\x00"⟩,
            ⟨.closedText, ""⟩] last ∧
        last.position = after.position := by
  intro items buffer
  have built : Built (borrowed [9, 9, 9, 9, 9, 9, 9, 9, 9, 9, 9, 9]) :=
    .borrowed (by decide)
  have reached : Session.Reached _ (.buffer buffer) :=
    Session.Reached.start.step (.call (.write [7]) _)
  have fits : ∀ item ∈ items, item.Fits := by
    intro item member
    simp only [items, List.mem_cons, List.not_mem_nil, or_false] at member
    rcases member with rfl | rfl | rfl
    · trivial
    · simp only [Item.Fits]
      decide
    · trivial
  have room : ∃ forms, encodeAll items = .ok forms ∧
      forms.length ≤ buffer.remainder :=
    ⟨[2, 3, 4, 3, 195, 169, 0, 1, 0], by decide, by decide⟩
  exact ⟨reached, fits,
    appended_items_read_back built reached nofun fits (.inr room)⟩

/-- A text of two hundred and fifty-six letters does not go behind a length of
one byte, though the memory could grow. -/
theorem appended_items_read_back_fails_beyond_short_prefix :
    let text := String.ofList (List.replicate 256 'a')
    owned 0 = .ok (atStart (.owned 0) []) ∧
      appendAll [⟨.shortText 1, text⟩] (atStart (.owned 0) []) =
        .error (.lengthTooLarge 256 255) (atStart (.owned 0) []) := by
  intro text
  have letter : (String.utf8EncodeChar 'a').length = 1 := by decide
  have counted : (Utf8.encode text).length = 256 := by
    simp only [text, Utf8.encode, String.toList_ofList, List.length_flatMap,
      List.map_replicate, letter, List.sum_replicate_nat]
  have long : Payload.fixedLimit 1 < (Utf8.encode text).length := by
    rw [counted]
    decide
  have refused := Item.encode_of_long long
  rw [counted] at refused
  exact ⟨rfl, appendAll_refused refused [] _⟩

end Buffer

end TagWire
