import TagWire.Buffer.Transfer

/-!
# What a write does to a buffer

A write either leaves the buffer as it is, or puts its bytes behind the written
ones and moves the cursor past them.  Growth in between only adds zero bytes at
the end, so it is not seen by anything that looks at the written bytes.
-/

namespace TagWire

namespace Buffer

/-- A buffer that has made room differs from what it was by zero bytes at the
end of its own memory. -/
structure Reserved (needed : Nat) (buffer after : Buffer) : Prop where
  position_eq : after.position = buffer.position
  mark_eq : after.mark = buffer.mark
  content_eq : ∃ spare, after.content =
    buffer.content ++ List.replicate spare 0
  growable_eq : after.holding.isGrowable = buffer.holding.isGrowable
  addressed : buffer.position + needed < addressLimit
  room : buffer.position ≤ buffer.extent →
    after.position + needed ≤ after.extent

/-- Room is there already, or memory of the buffer's own has grown. -/
theorem reserve_ok_cases {needed : Nat} {buffer after : Buffer}
    (made : reserve needed buffer = .ok () after) :
    buffer.position + needed < addressLimit ∧
      ((needed ≤ buffer.remainder ∧ after = buffer) ∨
        (buffer.remainder < needed ∧ buffer.holding.isGrowable = true ∧
          grownExtent (buffer.position + needed) ≤ allocationLimit ∧
          after = buffer.grow (grownExtent (buffer.position + needed)))) := by
  simp only [reserve] at made
  split at made
  · cases made
  · rename_i addressed
    refine ⟨Nat.lt_of_not_le addressed, ?_⟩
    split at made
    · cases made
    · split at made
      · rename_i fits
        cases made
        exact .inl ⟨fits, rfl⟩
      · rename_i short
        split at made
        · rename_i growable
          split at made
          · cases made
          · rename_i available
            cases made
            exact .inr ⟨Nat.lt_of_not_le short, growable,
              Nat.le_of_not_lt available, rfl⟩
        · cases made

theorem reserve_ok {needed : Nat} {buffer after : Buffer}
    (made : reserve needed buffer = .ok () after) :
    Reserved needed buffer after := by
  obtain ⟨addressed, ⟨fits, rfl⟩ | ⟨_, growable, _, rfl⟩⟩ :=
    reserve_ok_cases made
  · exact {
      position_eq := rfl
      mark_eq := rfl
      content_eq := ⟨0, (List.append_nil _).symm⟩
      growable_eq := rfl
      addressed := addressed
      room := fun inside => by
        simp only [remainder] at fits
        omega }
  · exact {
      position_eq := rfl
      mark_eq := rfl
      content_eq := ⟨_, rfl⟩
      growable_eq := growable.symm
      addressed := addressed
      room := fun _ => by
        simp only [grow, extent, List.length_append, List.length_replicate,
          grownExtent]
        omega }

theorem reserve_error {needed : Nat} {buffer after : Buffer}
    {error : WireError} (failed : reserve needed buffer = .error error after) :
    after = buffer ∧
      ((∃ requested, error = .allocationFailed requested) ∨
        (error = .readOnly ∧ buffer.holding = .view) ∨
        (error = .capacityExhausted needed buffer.remainder ∧
          buffer.holding.isGrowable = false)) := by
  simp only [reserve] at failed
  split at failed
  · cases failed
    exact ⟨rfl, .inl ⟨_, rfl⟩⟩
  · split at failed
    · rename_i viewed
      cases failed
      exact ⟨rfl, .inr (.inl ⟨rfl, viewed⟩)⟩
    · split at failed
      · cases failed
      · split at failed
        · split at failed
          · cases failed
            exact ⟨rfl, .inl ⟨_, rfl⟩⟩
          · cases failed
        · rename_i fixed
          cases failed
          exact ⟨rfl, .inr (.inr ⟨rfl, by simpa using fixed⟩)⟩

/-- A write puts its bytes behind the written ones. -/
structure Wrote (bytes : List UInt8) (buffer after : Buffer) : Prop where
  written_eq : after.written = buffer.written ++ bytes
  position_eq : after.position = buffer.position + bytes.length
  mark_eq : after.mark = buffer.mark
  growable_eq : after.holding.isGrowable = buffer.holding.isGrowable
  addressed : after.position < addressLimit
  inside : after.position ≤ after.extent

theorem Wrote.nil {buffer : Buffer} (inside : buffer.position ≤ buffer.extent)
    (addressed : buffer.position < addressLimit) : Wrote [] buffer buffer where
  written_eq := (List.append_nil _).symm
  position_eq := rfl
  mark_eq := rfl
  growable_eq := rfl
  addressed := addressed
  inside := inside

theorem Wrote.trans {bytes more : List UInt8} {buffer middle after : Buffer}
    (first : Wrote bytes buffer middle) (second : Wrote more middle after) :
    Wrote (bytes ++ more) buffer after where
  written_eq := by
    rw [second.written_eq, first.written_eq, List.append_assoc]
  position_eq := by
    rw [second.position_eq, first.position_eq, List.length_append,
      Nat.add_assoc]
  mark_eq := second.mark_eq.trans first.mark_eq
  growable_eq := second.growable_eq.trans first.growable_eq
  addressed := second.addressed
  inside := second.inside

theorem write_eq (bytes : List UInt8) (buffer : Buffer) :
    write bytes buffer = match reserve bytes.length buffer with
      | .ok () after => .ok () (splice bytes after)
      | .error error after => .error error after := by
  simp only [write, bind, EStateM.bind]
  cases reserve bytes.length buffer <;> rfl

theorem write_ok_cases {bytes : List UInt8} {buffer after : Buffer}
    (wrote : write bytes buffer = .ok () after) :
    ∃ roomy, reserve bytes.length buffer = .ok () roomy ∧
      after = splice bytes roomy := by
  rw [write_eq] at wrote
  cases made : reserve bytes.length buffer with
  | error error unchanged =>
      rw [made] at wrote
      cases wrote
  | ok answer roomy =>
      rw [made] at wrote
      cases wrote
      exact ⟨roomy, rfl, rfl⟩

theorem length_written {buffer : Buffer}
    (inside : buffer.position ≤ buffer.extent) :
    buffer.written.length = buffer.position := by
  rw [written, List.length_take]
  exact Nat.min_eq_left inside

theorem splice_wrote {bytes : List UInt8} {buffer : Buffer}
    (room : buffer.position + bytes.length ≤ buffer.extent) :
    (splice bytes buffer).written = buffer.written ++ bytes ∧
      (splice bytes buffer).extent = buffer.extent := by
  have front : (buffer.content.take buffer.position).length =
      buffer.position := by
    rw [List.length_take]
    simp only [extent] at room
    omega
  constructor
  · have stop : buffer.position + bytes.length =
        (buffer.content.take buffer.position ++ bytes).length := by
      rw [List.length_append, front]
    simp only [written, splice]
    rw [stop, List.take_left]
  · simp only [extent, splice] at room ⊢
    rw [List.length_append, List.length_append, front, List.length_drop]
    omega

theorem write_ok {bytes : List UInt8} {buffer after : Buffer}
    (inside : buffer.position ≤ buffer.extent)
    (wrote : write bytes buffer = .ok () after) : Wrote bytes buffer after := by
  obtain ⟨roomy, made, rfl⟩ := write_ok_cases wrote
  have reserved := reserve_ok made
  have room := reserved.room inside
  obtain ⟨written, extent⟩ := splice_wrote room
  obtain ⟨spare, longer⟩ := reserved.content_eq
  have kept : roomy.written = buffer.written := by
    rw [Buffer.written, Buffer.written, reserved.position_eq, longer,
      List.take_append_of_le_length inside]
  exact {
    written_eq := by rw [written, kept]
    position_eq := by
      rw [← reserved.position_eq]
      rfl
    mark_eq := reserved.mark_eq
    growable_eq := reserved.growable_eq
    addressed := by
      have limit := reserved.addressed
      rw [← reserved.position_eq] at limit
      exact limit
    inside := by
      rw [extent]
      exact room }

/-- The memory has some bytes at the cursor, and is as it was everywhere else
but for zero bytes at the end of memory that can grow. -/
structure Overlaid (bytes : List UInt8) (spare : Nat)
    (buffer after : Buffer) : Prop where
  content_eq : after.content = buffer.written ++ bytes ++
    (buffer.content ++ List.replicate spare 0).drop
      (buffer.position + bytes.length)
  inside : buffer.position + bytes.length ≤ after.extent
  extent_eq : after.extent = buffer.extent + spare
  growable_eq : after.holding.isGrowable = buffer.holding.isGrowable
  fixed : buffer.holding.isGrowable = false →
    spare = 0 ∧ after.holding = buffer.holding

theorem Overlaid.refl {buffer : Buffer}
    (inside : buffer.position ≤ buffer.extent) :
    Overlaid [] 0 buffer buffer where
  content_eq := by
    rw [written, List.append_nil, List.length_nil, Nat.add_zero,
      List.replicate_zero, List.append_nil, List.take_append_drop]
  inside := inside
  extent_eq := rfl
  growable_eq := rfl
  fixed := fun _ => ⟨rfl, rfl⟩

theorem Overlaid.moveTo {bytes : List UInt8} {spare : Nat}
    {buffer after : Buffer} (overlaid : Overlaid bytes spare buffer after)
    (position : Nat) :
    Overlaid bytes spare buffer (after.moveTo position) where
  content_eq := overlaid.content_eq
  inside := overlaid.inside
  extent_eq := overlaid.extent_eq
  growable_eq := overlaid.growable_eq
  fixed := overlaid.fixed

theorem Overlaid.front {bytes : List UInt8} {spare : Nat}
    {buffer after : Buffer} (overlaid : Overlaid bytes spare buffer after)
    (inside : buffer.position ≤ buffer.extent) :
    after.content.take buffer.position = buffer.written := by
  rw [overlaid.content_eq, List.append_assoc]
  exact List.take_left' (length_written inside)

/-- Bytes outside of the overlaid ones stay. -/
theorem Overlaid.untouched {bytes : List UInt8} {spare : Nat}
    {buffer after : Buffer} (overlaid : Overlaid bytes spare buffer after)
    (inside : buffer.position ≤ buffer.extent) {place : Nat}
    (present : place < buffer.extent)
    (outside : place < buffer.position ∨
      buffer.position + bytes.length ≤ place) :
    after.content[place]? = buffer.content[place]? := by
  have start := length_written inside
  rw [overlaid.content_eq]
  rcases outside with before | behind
  · rw [List.append_assoc, List.getElem?_append_left (by rwa [start]),
      written, List.getElem?_take_of_lt before]
  · have front : (buffer.written ++ bytes).length =
        buffer.position + bytes.length := by
      rw [List.length_append, start]
    rw [List.getElem?_append_right (by rwa [front]), front,
      List.getElem?_drop, Nat.add_sub_cancel' behind,
      List.getElem?_append_left present]

/-- The zero bytes that making room adds, none unless the memory can grow. -/
theorem reserve_spare {needed : Nat} {buffer roomy : Buffer}
    (made : reserve needed buffer = .ok () roomy) :
    ∃ spare,
      roomy.content = buffer.content ++ List.replicate spare 0 ∧
        (buffer.holding.isGrowable = false →
          spare = 0 ∧ roomy.holding = buffer.holding) := by
  obtain ⟨_, ⟨_, rfl⟩ | ⟨_, growable, _, rfl⟩⟩ := reserve_ok_cases made
  · exact ⟨0, (List.append_nil _).symm, fun _ => ⟨rfl, rfl⟩⟩
  · refine ⟨_, rfl, ?_⟩
    intro fixed
    rw [fixed] at growable
    cases growable

theorem write_overlaid {bytes : List UInt8} {buffer after : Buffer}
    (inside : buffer.position ≤ buffer.extent)
    (wrote : write bytes buffer = .ok () after) :
    ∃ spare, Overlaid bytes spare buffer after := by
  obtain ⟨roomy, made, rfl⟩ := write_ok_cases wrote
  obtain ⟨spare, longer, fixed⟩ := reserve_spare made
  have reserved := reserve_ok made
  have room := reserved.room inside
  obtain ⟨_, extent⟩ := splice_wrote room
  exact ⟨spare, {
    content_eq := by
      simp only [splice, reserved.position_eq, longer, written,
        List.take_append_of_le_length inside]
    inside := by
      rw [extent, ← reserved.position_eq]
      exact room
    extent_eq := by
      rw [extent, Buffer.extent, longer, List.length_append,
        List.length_replicate, Buffer.extent]
    growable_eq := reserved.growable_eq
    fixed := fixed }⟩

theorem write_error {bytes : List UInt8} {buffer after : Buffer}
    {error : WireError} (failed : write bytes buffer = .error error after) :
    reserve bytes.length buffer = .error error after := by
  rw [write_eq] at failed
  cases made : reserve bytes.length buffer with
  | error error unchanged =>
      rw [made] at failed
      cases failed
      rfl
  | ok answer roomy =>
      rw [made] at failed
      cases failed

section Writing

variable {bytes : List UInt8} {buffer : Buffer}

theorem write_of_beyond
    (beyond : addressLimit ≤ buffer.position + bytes.length) :
    write bytes buffer =
      .error (.allocationFailed (addressLimit - 1)) buffer := by
  rw [write_eq, reserve, if_pos beyond]

theorem write_of_room
    (addressed : buffer.position + bytes.length < addressLimit)
    (writable : buffer.holding ≠ .view)
    (room : bytes.length ≤ buffer.remainder) :
    write bytes buffer = .ok () (splice bytes buffer) := by
  rw [write_eq, reserve, if_neg (Nat.not_le_of_lt addressed), if_neg writable,
    if_pos room]

theorem write_of_exhausted
    (addressed : buffer.position + bytes.length < addressLimit)
    (writable : buffer.holding ≠ .view)
    (short : buffer.remainder < bytes.length)
    (rigid : buffer.holding.isGrowable = false) :
    write bytes buffer =
      .error (.capacityExhausted bytes.length buffer.remainder) buffer := by
  simp only [write_eq, reserve, if_neg (Nat.not_le_of_lt addressed),
    if_neg writable, if_neg (Nat.not_le_of_lt short), rigid,
    Bool.false_eq_true, if_false]

theorem write_writable {after : Buffer} (writable : buffer.holding ≠ .view)
    (wrote : write bytes buffer = .ok () after) : after.holding ≠ .view := by
  obtain ⟨roomy, made, rfl⟩ := write_ok_cases wrote
  obtain ⟨_, ⟨_, rfl⟩ | ⟨_, _, _, rfl⟩⟩ := reserve_ok_cases made
  · exact writable
  · exact nofun

/-- Memory is refused only to what would take more than half of the most that
can be had. -/
theorem write_starved {requested : Nat} {after : Buffer}
    (addressed : buffer.position + bytes.length < addressLimit)
    (failed : write bytes buffer = .error (.allocationFailed requested) after) :
    allocationLimit < 2 * (buffer.position + bytes.length) := by
  have refused := write_error failed
  simp only [reserve, if_neg (Nat.not_le_of_lt addressed)] at refused
  split at refused
  · cases refused
  · split at refused
    · cases refused
    · split at refused
      · split at refused
        · rename_i beyond
          have least : leastGrowth ≤ allocationLimit := by decide
          simp only [grownExtent] at beyond
          omega
        · cases refused
      · cases refused

end Writing

theorem writeEncoded_ok {outcome : Except WireError (List UInt8)}
    {buffer after : Buffer}
    (wrote : writeEncoded outcome buffer = .ok () after) :
    ∃ bytes, outcome = .ok bytes ∧ write bytes buffer = .ok () after := by
  cases outcome with
  | ok bytes => exact ⟨bytes, rfl, wrote⟩
  | error error => cases wrote

theorem writeEncoded_error {outcome : Except WireError (List UInt8)}
    {buffer after : Buffer} {error : WireError}
    (failed : writeEncoded outcome buffer = .error error after) :
    after = buffer ∧
      (outcome = .error error ∨
        ∃ bytes, outcome = .ok bytes ∧
          reserve bytes.length buffer = .error error after) := by
  cases outcome with
  | ok bytes =>
      have refused := write_error failed
      exact ⟨(reserve_error refused).1, .inr ⟨bytes, rfl, refused⟩⟩
  | error refusal =>
      cases failed
      exact ⟨rfl, .inl rfl⟩

end Buffer

end TagWire
