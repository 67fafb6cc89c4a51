import TagWire.Proofs.Buffer.Calls

/-!
# Cursor, mark and memory stay in bounds

A buffer is sound if its cursor and its mark lie in the extent and the extent
lies in what is set aside.  No call leaves it unsound, and none changes how the
memory is held.  The extent stays too, unless memory of the buffer's own grows
or the buffer is cut down to its written bytes.

What the operations subtract, cut out and set back without a check is in range
for every sound buffer.
-/

namespace TagWire

/-- The state that an action leaves, whether it answers or fails. -/
def leaves {σ α : Type} (action : EStateM WireError σ α) (state : σ) : σ :=
  match action state with
  | .ok _ after => after
  | .error _ after => after

section Leaving

variable {σ α : Type} {action : EStateM WireError σ α} {state after : σ}

theorem leaves_ok {answer : α} (done : action state = .ok answer after) :
    leaves action state = after := by
  simp only [leaves, done]

theorem leaves_error {error : WireError}
    (failed : action state = .error error after) :
    leaves action state = after := by
  simp only [leaves, failed]

theorem leaves_bind {β : Type} {rest : α → EStateM WireError σ β} {answer : α}
    (done : action state = .ok answer after) :
    leaves (action >>= rest) state = leaves (rest answer) after := by
  simp only [leaves, Bind.bind, EStateM.bind, done]

theorem leaves_bind_error {β : Type} {rest : α → EStateM WireError σ β}
    {error : WireError} (failed : action state = .error error after) :
    leaves (action >>= rest) state = after := by
  simp only [leaves, Bind.bind, EStateM.bind, failed]

theorem leaves_silently (action : EStateM WireError σ α) (state : σ) :
    leaves (silently action) state = leaves action state := by
  simp only [leaves, silently]
  cases action state <;> rfl

theorem leaves_ask (question : σ → Except WireError α) (state : σ) :
    leaves (ask question) state = state := by
  simp only [leaves, ask]
  cases question state <;> rfl

end Leaving

theorem Holding.isGrowable_of_name {holding other : Holding}
    (same : holding.name = other.name) :
    holding.isGrowable = other.isGrowable := by
  cases holding <;> cases other <;> simp [name, isGrowable] at same ⊢

theorem Holding.name_of_isGrowable {holding : Holding}
    (growable : holding.isGrowable = true) : holding.name = "Owned" := by
  cases holding with
  | owned allocated => rfl
  | cloned => cases growable
  | adopted => cases growable
  | borrowed beyond => cases growable
  | view => cases growable

namespace Buffer

/-- A buffer as it is handed out.  Nobody has memory that is longer than the
largest piece that can be had. -/
inductive Built : Buffer → Prop where
  | owned {capacity : Nat} {buffer : Buffer} :
      Buffer.owned capacity = .ok buffer → Built buffer
  | cloned {bytes : List UInt8} :
      bytes.length ≤ allocationLimit → Built (cloned bytes)
  | adopted {bytes : List UInt8} :
      bytes.length ≤ allocationLimit → Built (adopted bytes)
  | borrowed {bytes : List UInt8} :
      bytes.length ≤ allocationLimit → Built (borrowed bytes)
  | view {bytes : List UInt8} :
      bytes.length ≤ allocationLimit → Built (view bytes)

structure Sound (buffer : Buffer) : Prop where
  inside : buffer.position ≤ buffer.extent
  marked : buffer.mark ≤ buffer.extent
  covered : buffer.extent ≤ buffer.capacity
  filled : buffer.holding.isGrowable = false → buffer.capacity = buffer.extent
  available : buffer.extent ≤ allocationLimit

/-- The memory is still sound and held as before, and as long as before unless
it has grown. -/
structure Continues (buffer after : Buffer) : Prop where
  sound : Sound after
  name_eq : after.holding.name = buffer.holding.name
  extent_cases : after.extent = buffer.extent ∨
    (buffer.holding.isGrowable = true ∧ buffer.extent < after.extent)

theorem allocationLimit_lt : allocationLimit + 1 < addressLimit := by decide

theorem capacity_of_fixed {buffer : Buffer}
    (fixed : buffer.holding.isGrowable = false) :
    buffer.capacity = buffer.extent := by
  obtain ⟨holding, content, position, mark⟩ := buffer
  cases holding with
  | owned allocated => cases fixed
  | cloned => rfl
  | adopted => rfl
  | borrowed beyond => rfl
  | view => rfl

theorem capacity_congr {buffer other : Buffer}
    (holding : other.holding = buffer.holding)
    (extent : other.extent = buffer.extent) :
    other.capacity = buffer.capacity := by
  simp only [capacity, holding, extent]

theorem atStart_sound {holding : Holding} {bytes : List UInt8}
    (covered : bytes.length ≤ (atStart holding bytes).capacity)
    (available : bytes.length ≤ allocationLimit) :
    Sound (atStart holding bytes) where
  inside := Nat.zero_le _
  marked := Nat.zero_le _
  covered := covered
  filled := capacity_of_fixed
  available := available

theorem Built.sound {buffer : Buffer} (built : Built buffer) : Sound buffer := by
  cases built with
  | @owned capacity buffer made =>
      unfold Buffer.owned at made
      split at made
      · cases made
      · rename_i available
        cases made
        apply atStart_sound
        · rw [List.length_replicate]
          exact Nat.le_refl capacity
        · rw [List.length_replicate]
          exact Nat.le_of_not_lt available
  | cloned available => exact atStart_sound (Nat.le_refl _) available
  | adopted available => exact atStart_sound (Nat.le_refl _) available
  | borrowed available => exact atStart_sound (Nat.le_refl _) available
  | view available => exact atStart_sound (Nat.le_refl _) available

theorem Continues.extent_le {buffer after : Buffer}
    (continues : Continues buffer after) : buffer.extent ≤ after.extent := by
  rcases continues.extent_cases with same | ⟨_, longer⟩
  · exact Nat.le_of_eq same.symm
  · exact Nat.le_of_lt longer

theorem Continues.trans {buffer middle after : Buffer}
    (first : Continues buffer middle) (second : Continues middle after) :
    Continues buffer after := by
  have growable := Holding.isGrowable_of_name first.name_eq
  refine ⟨second.sound, second.name_eq.trans first.name_eq, ?_⟩
  have longer := first.extent_le
  rcases second.extent_cases with same | ⟨grows, further⟩
  · rw [same]
    exact first.extent_cases
  · rw [growable] at grows
    exact .inr ⟨grows, Nat.lt_of_le_of_lt longer further⟩

namespace Sound

variable {buffer : Buffer}

/-- Only the cursor, the mark and the bytes have changed. -/
theorem continues_of_same (sound : Sound buffer) {after : Buffer}
    (holding : after.holding = buffer.holding)
    (extent : after.extent = buffer.extent)
    (inside : after.position ≤ buffer.extent)
    (marked : after.mark ≤ buffer.extent) : Continues buffer after := by
  have capacity := capacity_congr holding extent
  refine ⟨?_, by rw [holding], .inl extent⟩
  constructor
  · rw [extent]
    exact inside
  · rw [extent]
    exact marked
  · rw [extent, capacity]
    exact sound.covered
  · exact capacity_of_fixed
  · rw [extent]
    exact sound.available

theorem continues_refl (sound : Sound buffer) : Continues buffer buffer :=
  sound.continues_of_same rfl rfl sound.inside sound.marked

theorem moveTo (sound : Sound buffer) {position : Nat}
    (inside : position ≤ buffer.extent) :
    Continues buffer (buffer.moveTo position) :=
  sound.continues_of_same rfl rfl inside
    (Nat.le_trans (Nat.min_le_left _ _) sound.marked)

theorem advance (sound : Sound buffer) {length : Nat}
    (present : length ≤ buffer.remainder) :
    Continues buffer (buffer.advance length) := by
  have stop : buffer.position + length ≤ buffer.extent := by
    have inside := sound.inside
    simp only [remainder] at present
    omega
  exact sound.continues_of_same rfl rfl stop sound.marked

/-- Memory that lacks room grows by at least one byte. -/
theorem lt_grownExtent (sound : Sound buffer) {needed : Nat}
    (short : buffer.remainder < needed) :
    buffer.extent < grownExtent (buffer.position + needed) := by
  have available := sound.available
  have limits := allocationLimit_lt
  simp only [remainder] at short
  simp only [grownExtent]
  omega

theorem grow (sound : Sound buffer) {larger : Nat}
    (growable : buffer.holding.isGrowable = true)
    (longer : buffer.extent < larger) (available : larger ≤ allocationLimit) :
    Continues buffer (buffer.grow larger) := by
  have sized : (buffer.grow larger).extent = larger := by
    simp only [Buffer.grow, extent, List.length_append,
      List.length_replicate] at longer ⊢
    omega
  have inside := sound.inside
  have marked := sound.marked
  constructor
  · constructor
    · rw [sized]
      exact Nat.le_trans inside (Nat.le_of_lt longer)
    · rw [sized]
      exact Nat.le_trans marked (Nat.le_of_lt longer)
    · rw [sized]
      exact Nat.le_max_right _ _
    · exact capacity_of_fixed
    · rw [sized]
      exact available
  · exact (Holding.name_of_isGrowable growable).symm
  · rw [sized]
    exact .inr ⟨growable, longer⟩

theorem reserve (sound : Sound buffer) {needed : Nat} {after : Buffer}
    (made : reserve needed buffer = .ok () after) :
    Continues buffer after := by
  obtain ⟨_, ⟨_, rfl⟩ | ⟨short, growable, available, rfl⟩⟩ :=
    reserve_ok_cases made
  · exact sound.continues_refl
  · exact sound.grow growable (sound.lt_grownExtent short) available

theorem splice (sound : Sound buffer) {bytes : List UInt8}
    (room : buffer.position + bytes.length ≤ buffer.extent) :
    Continues buffer (splice bytes buffer) :=
  sound.continues_of_same rfl (splice_wrote room).2 room sound.marked

theorem write (sound : Sound buffer) {bytes : List UInt8} {after : Buffer}
    (wrote : write bytes buffer = .ok () after) : Continues buffer after := by
  obtain ⟨roomy, made, rfl⟩ := write_ok_cases wrote
  have continues := sound.reserve made
  have room := (reserve_ok made).room sound.inside
  exact continues.trans (continues.sound.splice room)

theorem intoWritten (sound : Sound buffer) :
    Sound buffer.intoWritten ∧
      buffer.intoWritten.holding.name = buffer.holding.name ∧
        buffer.intoWritten.extent = buffer.position := by
  have sized : buffer.written.length = buffer.position :=
    length_written sound.inside
  have kept : buffer.written.length ≤ buffer.intoWritten.capacity ∧
      buffer.intoWritten.holding.name = buffer.holding.name := by
    have within := Nat.le_trans sound.inside sound.covered
    rw [← sized] at within
    obtain ⟨holding, content, position, mark⟩ := buffer
    cases holding with
    | owned allocated => exact ⟨within, rfl⟩
    | cloned => exact ⟨Nat.le_refl _, rfl⟩
    | adopted => exact ⟨Nat.le_refl _, rfl⟩
    | borrowed beyond => exact ⟨Nat.le_refl _, rfl⟩
    | view => exact ⟨Nat.le_refl _, rfl⟩
  have available : buffer.written.length ≤ allocationLimit := by
    rw [sized]
    exact Nat.le_trans sound.inside sound.available
  exact ⟨atStart_sound kept.1 available, kept.2, sized⟩

end Sound

/-- Whatever comes of the action, sound memory goes on. -/
def Preserves {σ α : Type} (memory : σ → Buffer)
    (action : EStateM WireError σ α) : Prop :=
  ∀ state, Sound (memory state) →
    Continues (memory state) (memory (leaves action state))

namespace Preserves

variable {σ α β : Type} {memory : σ → Buffer}

theorem pure (answer : α) :
    Preserves memory (pure answer : EStateM WireError σ α) :=
  fun _ sound => sound.continues_refl

theorem throw (error : WireError) :
    Preserves memory (throw error : EStateM WireError σ α) :=
  fun _ sound => sound.continues_refl

theorem state : Preserves memory (get : EStateM WireError σ σ) :=
  fun _ sound => sound.continues_refl

theorem bind {action : EStateM WireError σ α}
    {rest : α → EStateM WireError σ β} (first : Preserves memory action)
    (second : ∀ answer, Preserves memory (rest answer)) :
    Preserves memory (action >>= rest) := by
  intro state sound
  have start := first state sound
  cases outcome : action state with
  | ok answer middle =>
      rw [leaves_ok outcome] at start
      rw [leaves_bind outcome]
      exact start.trans (second answer middle start.sound)
  | error error middle =>
      rw [leaves_error outcome] at start
      rw [leaves_bind_error outcome]
      exact start

theorem silently {action : EStateM WireError σ α}
    (preserves : Preserves memory action) :
    Preserves memory (silently action) := by
  intro state sound
  rw [leaves_silently]
  exact preserves state sound

theorem ask (question : σ → Except WireError α) :
    Preserves memory (ask question) := by
  intro state sound
  rw [leaves_ask]
  exact sound.continues_refl

/-- An action that changes nothing when it fails need only be followed where it
answers. -/
theorem of_ok {action : BufferM α}
    (refused : ∀ {buffer error after},
      action buffer = .error error after → after = buffer)
    (done : ∀ {buffer answer after}, Sound buffer →
      action buffer = .ok answer after → Continues buffer after) :
    Preserves id action := by
  intro buffer sound
  cases outcome : action buffer with
  | ok answer after =>
      rw [leaves_ok outcome]
      exact done sound outcome
  | error error after =>
      rw [leaves_error outcome, refused outcome]
      exact sound.continues_refl

end Preserves

theorem reserve_preserves (needed : Nat) : Preserves id (reserve needed) :=
  .of_ok (fun failed => (reserve_error failed).1)
    fun sound made => sound.reserve made

theorem write_preserves (bytes : List UInt8) : Preserves id (write bytes) :=
  .of_ok (fun failed => (reserve_error (write_error failed)).1)
    fun sound wrote => sound.write wrote

theorem writeEncoded_preserves (outcome : Except WireError (List UInt8)) :
    Preserves id (writeEncoded outcome) := by
  cases outcome with
  | ok bytes => exact write_preserves bytes
  | error error => exact .throw error

theorem setPosition_preserves (position : Nat) :
    Preserves id (setPosition position) := by
  intro buffer sound
  by_cases inside : position ≤ buffer.extent
  · rw [leaves_ok (setPosition_of_le inside)]
    exact sound.moveTo inside
  · have refused : setPosition position buffer =
        .error (.positionOutOfBounds position buffer.extent) buffer := by
      rw [setPosition, if_pos (Nat.lt_of_not_le inside)]
    rw [leaves_error refused]
    exact sound.continues_refl

theorem takeWith_preserves {α : Type} {decoder : Decoder α}
    (resumes : Resumes 0 Prod.snd decoder) :
    Preserves id (takeWith decoder) := by
  apply Preserves.of_ok
  · intro buffer error after failed
    exact (takeWith_error failed).1
  · intro buffer value after sound taken
    obtain ⟨length, read, rfl⟩ := takeWith_ok taken
    have present := resumes.consumed_le read
    rw [length_unread] at present
    exact sound.advance present

theorem takeRemaining_preserves : Preserves id takeRemaining := by
  intro buffer sound
  exact sound.continues_of_same rfl rfl (Nat.le_refl _) sound.marked

/-- Every call but the one that cuts the memory down to its written bytes goes on
with what it is given. -/
theorem Call.continues {call : Call} (keeps : call ≠ .intoWritten)
    {buffer : Buffer} (sound : Sound buffer) :
    Continues buffer (leaves call.perform buffer) := by
  cases call with
  | clear =>
      exact sound.continues_of_same rfl rfl (Nat.zero_le _) (Nat.zero_le _)
  | rewind =>
      exact sound.continues_of_same rfl rfl (Nat.zero_le _) sound.marked
  | setMark =>
      exact sound.continues_of_same rfl rfl sound.inside sound.inside
  | reset =>
      exact sound.continues_of_same rfl rfl sound.marked sound.marked
  | setPosition position => exact setPosition_preserves position buffer sound
  | reserve needed => exact reserve_preserves needed buffer sound
  | write bytes => exact write_preserves bytes buffer sound
  | append item => exact writeEncoded_preserves _ buffer sound
  | peek kind =>
      have preserves : Preserves id (ask (Buffer.peek kind.codec)) :=
        .ask _
      exact preserves buffer sound
  | next kind =>
      have preserves := takeWith_preserves kind.decode_resumes
      exact preserves.silently buffer sound
  | peekBytes count =>
      have preserves : Preserves id (ask (Buffer.peekBytes count)) :=
        .ask _
      exact preserves buffer sound
  | takeBytes count =>
      have preserves := takeWith_preserves (Resumes.run (Nat.zero_le count))
      exact preserves.silently buffer sound
  | takeRemaining =>
      exact takeRemaining_preserves.silently buffer sound
  | intoWritten => exact (keeps rfl).elim

/-- Where an operation subtracts, cuts out a piece of the memory or moves the
cursor without a check, it stays in range. -/
structure InRange (buffer : Buffer) : Prop where
  reset_inside : buffer.reset.position ≤ buffer.reset.extent
  remainder_eq : buffer.position + buffer.remainder = buffer.extent
  written_eq : buffer.written.length = buffer.position
  unread_eq : buffer.unread.length = buffer.remainder
  growth : ∀ needed, buffer.remainder < needed →
    buffer.extent < grownExtent (buffer.position + needed)
  slot : ∀ needed after, reserve needed buffer = .ok () after →
    after.position + needed ≤ after.extent
  taken : ∀ count bytes after, takeBytes count buffer = .ok bytes after →
    buffer.position + count ≤ buffer.extent ∧ bytes.length = count

theorem Sound.inRange {buffer : Buffer} (sound : Sound buffer) :
    InRange buffer := by
  constructor
  · exact sound.marked
  · have inside := sound.inside
    simp only [remainder]
    omega
  · exact length_written sound.inside
  · exact length_unread buffer
  · intro needed short
    exact sound.lt_grownExtent short
  · intro needed after made
    exact (reserve_ok made).room sound.inside
  · intro count bytes after taken
    obtain ⟨present, rfl⟩ := takeBytes_ok taken
    have moved := (sound.advance present).sound.inside
    have whole : takeBytes count buffer = _ :=
      takeBytes_of_le (by rwa [length_unread])
    rw [taken] at whole
    cases whole
    refine ⟨moved, ?_⟩
    rw [List.length_take, length_unread]
    exact Nat.min_eq_left present

end Buffer

end TagWire
