import TagWire.Proofs.Buffer.Bounds

/-!
# Slots of lent memory

A write gets a slot behind the cursor before it touches the memory, and fills
it.  Memory that a caller has lent keeps every byte that lies in no slot, also
the bytes behind an extent that has been cut down.
-/

namespace TagWire

/-- A stretch of memory that a write has got. -/
structure Slot where
  start : Nat
  length : Nat
  deriving DecidableEq, Repr

def Slot.Covers (slot : Slot) (place : Nat) : Prop :=
  slot.start ≤ place ∧ place < slot.start + slot.length

namespace Buffer

/-- The slot behind the cursor, if room can be made for it. -/
def slotFor (length : Nat) (buffer : Buffer) : List Slot :=
  match reserve length buffer with
  | .ok () _ => [{ start := buffer.position, length }]
  | .error _ _ => []

/-- What has no written form gets no slot. -/
def slotForEncoded (outcome : Except WireError (List UInt8))
    (buffer : Buffer) : List Slot :=
  match outcome with
  | .ok bytes => slotFor bytes.length buffer
  | .error _ => []

/-- The memory is a caller's and open for writing. -/
def Lent (buffer : Buffer) : Prop := buffer.holding.name = "Borrowed"

theorem Lent.holding_eq {buffer : Buffer} (lent : Lent buffer) :
    ∃ beyond, buffer.holding = .borrowed beyond := by
  obtain ⟨holding, content, position, mark⟩ := buffer
  cases holding with
  | borrowed beyond => exact ⟨beyond, rfl⟩
  | owned allocated => simp [Lent, Holding.name] at lent
  | cloned => simp [Lent, Holding.name] at lent
  | adopted => simp [Lent, Holding.name] at lent
  | view => simp [Lent, Holding.name] at lent

theorem Lent.fixed {buffer : Buffer} (lent : Lent buffer) :
    buffer.holding.isGrowable = false := by
  obtain ⟨beyond, held⟩ := lent.holding_eq
  rw [held]
  rfl

/-! ## Moving the cursor -/

/-- The buffers differ in no more than the cursor and the mark. -/
structure Same (before after : Buffer) : Prop where
  holding_eq : after.holding = before.holding
  content_eq : after.content = before.content

theorem Same.refl (buffer : Buffer) : Same buffer buffer := ⟨rfl, rfl⟩

theorem Same.trans {before middle after : Buffer} (first : Same before middle)
    (second : Same middle after) : Same before after where
  holding_eq := second.holding_eq.trans first.holding_eq
  content_eq := second.content_eq.trans first.content_eq

theorem Same.memory_eq {before after : Buffer} (same : Same before after) :
    after.memory = before.memory := by
  simp only [memory, same.holding_eq, same.content_eq]

theorem Same.extent_eq {before after : Buffer} (same : Same before after) :
    after.extent = before.extent := by
  rw [extent, same.content_eq, extent]

/-- Whatever comes of the action, it moves no more than the cursor and the
mark. -/
def Keeps {σ α : Type} (memory : σ → Buffer)
    (action : EStateM WireError σ α) : Prop :=
  ∀ state, Same (memory state) (memory (leaves action state))

namespace Keeps

variable {σ α β : Type} {memory : σ → Buffer}

theorem pure (answer : α) :
    Keeps memory (pure answer : EStateM WireError σ α) :=
  fun _ => .refl _

theorem throw (error : WireError) :
    Keeps memory (throw error : EStateM WireError σ α) :=
  fun _ => .refl _

theorem state : Keeps memory (get : EStateM WireError σ σ) :=
  fun _ => .refl _

theorem bind {action : EStateM WireError σ α}
    {rest : α → EStateM WireError σ β} (first : Keeps memory action)
    (second : ∀ answer, Keeps memory (rest answer)) :
    Keeps memory (action >>= rest) := by
  intro state
  have start := first state
  cases outcome : action state with
  | ok answer middle =>
      rw [leaves_ok outcome] at start
      rw [leaves_bind outcome]
      exact start.trans (second answer middle)
  | error error middle =>
      rw [leaves_error outcome] at start
      rw [leaves_bind_error outcome]
      exact start

theorem silently {action : EStateM WireError σ α}
    (keeps : Keeps memory action) : Keeps memory (silently action) := by
  intro state
  rw [leaves_silently]
  exact keeps state

theorem ask (question : σ → Except WireError α) :
    Keeps memory (ask question) := by
  intro state
  rw [leaves_ask]
  exact .refl _

end Keeps

theorem takeWith_keeps {α : Type} (decoder : Decoder α) :
    Keeps id (takeWith decoder) := by
  intro buffer
  cases read : decoder buffer.unread with
  | ok found =>
      have taken : leaves (takeWith decoder) buffer =
          buffer.advance found.2 := by
        simp only [leaves, takeWith, read]
        rfl
      rw [taken]
      exact ⟨rfl, rfl⟩
  | error error =>
      have stays : leaves (takeWith decoder) buffer = buffer := by
        simp only [leaves, takeWith, read]
      rw [stays]
      exact .refl _

theorem setPosition_keeps (position : Nat) :
    Keeps id (setPosition position) := by
  intro buffer
  simp only [leaves, setPosition]
  split <;> rename_i moved <;> split at moved <;> cases moved <;>
    exact ⟨rfl, rfl⟩

/-- Room in lent memory is there already. -/
theorem reserve_lent {needed : Nat} {buffer after : Buffer}
    (lent : Lent buffer) (made : reserve needed buffer = .ok () after) :
    after = buffer := by
  obtain ⟨_, ⟨_, same⟩ | ⟨_, growable, _⟩⟩ := reserve_ok_cases made
  · exact same
  · rw [lent.fixed] at growable
    cases growable

/-! ## Filling slots -/

/-- From one state of lent memory to a later one, every byte outside of the
slots stays, and so does the length.  The extent grows no longer, and the slots
lie inside it. -/
structure Touched (slots : List Slot) (before after : Buffer) : Prop where
  length_eq : after.memory.length = before.memory.length
  untouched : ∀ place, (∀ slot ∈ slots, ¬ slot.Covers place) →
    after.memory[place]? = before.memory[place]?
  extent_le : after.extent ≤ before.extent
  inside : ∀ slot ∈ slots, slot.start + slot.length ≤ before.extent

theorem Touched.of_memory {before after : Buffer}
    (memory : after.memory = before.memory)
    (shorter : after.extent ≤ before.extent) : Touched [] before after where
  length_eq := by rw [memory]
  untouched := fun place _ => by rw [memory]
  extent_le := shorter
  inside := List.forall_mem_nil _

theorem Same.touched {before after : Buffer} (same : Same before after) :
    Touched [] before after :=
  .of_memory same.memory_eq (Nat.le_of_eq same.extent_eq)

theorem Touched.trans {slots more : List Slot} {before middle after : Buffer}
    (first : Touched slots before middle)
    (second : Touched more middle after) :
    Touched (slots ++ more) before after where
  length_eq := second.length_eq.trans first.length_eq
  untouched := by
    intro place outside
    have front := first.untouched place fun slot member =>
      outside slot (List.mem_append_left _ member)
    have behind := second.untouched place fun slot member =>
      outside slot (List.mem_append_right _ member)
    exact behind.trans front
  extent_le := Nat.le_trans second.extent_le first.extent_le
  inside := by
    intro slot member
    rcases List.mem_append.mp member with early | late
    · exact first.inside slot early
    · exact Nat.le_trans (second.inside slot late) first.extent_le

/-- Without slots all memory stays. -/
theorem Touched.memory_eq {before after : Buffer}
    (touched : Touched [] before after) : after.memory = before.memory := by
  apply List.ext_getElem?
  intro place
  exact touched.untouched place (List.forall_mem_nil _)

/-- Bytes behind the extent are in no slot. -/
theorem Touched.beyond {slots : List Slot} {before after : Buffer}
    (touched : Touched slots before after) :
    after.memory.drop before.extent = before.memory.drop before.extent := by
  apply List.ext_getElem?
  intro place
  rw [List.getElem?_drop, List.getElem?_drop]
  apply touched.untouched
  intro slot member covers
  have within := touched.inside slot member
  have last := covers.2
  omega

/-- A byte that differs lies in a slot. -/
theorem Touched.covered {slots : List Slot} {before after : Buffer}
    (touched : Touched slots before after) {place : Nat}
    (changed : after.memory[place]? ≠ before.memory[place]?) :
    ∃ slot ∈ slots, slot.Covers place := by
  apply Classical.byContradiction
  intro uncovered
  apply changed
  apply touched.untouched
  intro slot member covers
  exact uncovered ⟨slot, member, covers⟩

theorem memory_of_borrowed {buffer : Buffer} {beyond : List UInt8}
    (held : buffer.holding = .borrowed beyond) :
    buffer.memory = buffer.content ++ beyond := by
  simp only [memory, held]

theorem Lent.intoWritten_touched {buffer : Buffer} (lent : Lent buffer)
    (inside : buffer.position ≤ buffer.extent) :
    Touched [] buffer buffer.intoWritten := by
  obtain ⟨beyond, held⟩ := lent.holding_eq
  have cut : buffer.intoWritten.holding =
      .borrowed (buffer.unread ++ beyond) := by
    simp only [intoWritten, held]
    rfl
  apply Touched.of_memory
  · calc
      buffer.intoWritten.memory
          = buffer.written ++ (buffer.unread ++ beyond) :=
        memory_of_borrowed cut
      _ = buffer.content ++ beyond := by
        rw [← List.append_assoc, written, unread, List.take_append_drop]
      _ = buffer.memory := (memory_of_borrowed held).symm
  · exact Nat.le_trans (Nat.le_of_eq (length_written inside)) inside

theorem Lent.write_touched {buffer : Buffer} (lent : Lent buffer)
    (inside : buffer.position ≤ buffer.extent) (bytes : List UInt8) :
    Touched (slotFor bytes.length buffer) buffer
      (leaves (write bytes) buffer) := by
  cases wrote : write bytes buffer with
  | error error after =>
      have refused := write_error wrote
      rw [leaves_error wrote, slotFor, refused, (reserve_error refused).1]
      exact (Same.refl buffer).touched
  | ok answer after =>
      obtain ⟨roomy, made, _⟩ := write_ok_cases wrote
      obtain ⟨spare, overlaid⟩ := write_overlaid inside wrote
      obtain ⟨rfl, holding⟩ := overlaid.fixed lent.fixed
      obtain ⟨beyond, held⟩ := lent.holding_eq
      have before := memory_of_borrowed held
      have later := memory_of_borrowed (holding.trans held)
      have extent := overlaid.extent_eq
      rw [Nat.add_zero] at extent
      rw [leaves_ok wrote, slotFor, made]
      constructor
      · rw [before, later, List.length_append, List.length_append]
        exact congrArg (· + beyond.length) extent
      · intro place outside
        have notCovered := outside _ List.mem_cons_self
        have apart : place < buffer.position ∨
            buffer.position + bytes.length ≤ place := by
          rcases Nat.lt_or_ge place buffer.position with ahead | behind
          · exact .inl ahead
          · exact .inr (Nat.le_of_not_lt fun within =>
              notCovered ⟨behind, within⟩)
        rw [before, later]
        by_cases present : place < buffer.extent
        · have presentLater : place < after.extent := by rwa [extent]
          rw [List.getElem?_append_left present,
            List.getElem?_append_left presentLater]
          exact overlaid.untouched inside present apart
        · have past := Nat.le_of_not_lt present
          have pastLater : after.extent ≤ place := by rwa [extent]
          rw [List.getElem?_append_right past,
            List.getElem?_append_right pastLater]
          exact congrArg (beyond[place - ·]?) extent
      · exact Nat.le_of_eq extent
      · intro slot member
        cases List.mem_singleton.mp member
        have within := overlaid.inside
        rwa [extent] at within

theorem Lent.writeEncoded_touched {buffer : Buffer} (lent : Lent buffer)
    (inside : buffer.position ≤ buffer.extent)
    (outcome : Except WireError (List UInt8)) :
    Touched (slotForEncoded outcome buffer) buffer
      (leaves (writeEncoded outcome) buffer) := by
  cases outcome with
  | ok bytes => exact lent.write_touched inside bytes
  | error error => exact (Same.refl buffer).touched

/-! ## Calls -/

namespace Call

/-- Whether the call is one of those that put bytes into the memory. -/
def writes : Call → Bool
  | write _ | append _ => true
  | _ => false

/-- The slots that the call gets. -/
def slots : Call → Buffer → List Slot
  | write bytes, buffer => slotFor bytes.length buffer
  | append item, buffer =>
    slotForEncoded (item.kind.codec.encode item.content) buffer
  | _, _ => []

theorem slots_of_quiet {call : Call} (quiet : call.writes = false)
    (buffer : Buffer) : call.slots buffer = [] := by
  cases call with
  | write bytes => cases quiet
  | append item => cases quiet
  | _ => rfl

theorem same_of_quiet {call : Call} {buffer : Buffer} (lent : Lent buffer)
    (quiet : call.writes = false) (goesOn : call ≠ .intoWritten) :
    Same buffer (leaves call.perform buffer) := by
  cases call with
  | clear => exact ⟨rfl, rfl⟩
  | rewind => exact ⟨rfl, rfl⟩
  | setMark => exact ⟨rfl, rfl⟩
  | reset => exact ⟨rfl, rfl⟩
  | setPosition position => exact setPosition_keeps position buffer
  | reserve needed =>
      have stays : leaves (Buffer.reserve needed) buffer = buffer := by
        cases made : Buffer.reserve needed buffer with
        | ok answer after => rw [leaves_ok made, reserve_lent lent made]
        | error error after => rw [leaves_error made, (reserve_error made).1]
      rw [perform, stays]
      exact .refl buffer
  | write bytes => cases quiet
  | append item => cases quiet
  | peek kind =>
      have keeps : Keeps id (ask (Buffer.peek kind.codec)) := .ask _
      exact keeps buffer
  | next kind => exact (takeWith_keeps _).silently buffer
  | peekBytes count =>
      have keeps : Keeps id (ask (Buffer.peekBytes count)) := .ask _
      exact keeps buffer
  | takeBytes count => exact (takeWith_keeps _).silently buffer
  | takeRemaining => exact ⟨rfl, rfl⟩
  | intoWritten => exact (goesOn rfl).elim

theorem touched (call : Call) {buffer : Buffer} (lent : Lent buffer)
    (inside : buffer.position ≤ buffer.extent) :
    Touched (call.slots buffer) buffer (leaves call.perform buffer) := by
  cases quiet : call.writes with
  | true =>
      cases call with
      | write bytes => exact lent.write_touched inside bytes
      | append item => exact lent.writeEncoded_touched inside _
      | _ => cases quiet
  | false =>
      by_cases cut : call = .intoWritten
      · subst cut
        exact lent.intoWritten_touched inside
      · rw [slots_of_quiet quiet]
        exact (same_of_quiet lent quiet cut).touched

end Call

end Buffer

end TagWire
