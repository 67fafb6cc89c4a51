import TagWire.Proofs.Buffer.Splicing
import TagWire.Proofs.Number.Word
import TagWire.Proofs.Packet.FixedMemory

/-!
# Why room is refused

Memory for reading only must not be written, memory of a fixed extent has no
more room, and memory that grows may not be had: each way to hold memory has its
own reason to refuse room, and that is the reason which the caller is told.  It
is so wherever the bytes asked for would end at an address.  Beyond the
addresses the sum is refused before anything else is looked at, and the caller
is told about a failed allocation that nobody has asked for.
-/

namespace TagWire

namespace Buffer

variable {needed : Nat} {origin buffer : Buffer}

/-- The outcome of asking for room is the one that the buffer's way of holding
its memory calls for. -/
structure Justified (needed : Nat) (buffer : Buffer)
    (outcome : EStateM.Result WireError Buffer Unit) : Prop where
  viewed : buffer.holding = .view → outcome = .error .readOnly buffer
  fixed : buffer.holding.isFixed = true →
    outcome = if needed ≤ buffer.remainder then .ok () buffer
      else .error (.capacityExhausted needed buffer.remainder) buffer
  starved : ∀ {requested after},
    outcome = .error (.allocationFailed requested) after →
      buffer.holding.name = "Owned"
  made : ∀ {after}, outcome = .ok () after →
    needed ≤ after.remainder ∧ after.position = buffer.position ∧
      after.mark = buffer.mark ∧ buffer.content <+: after.content ∧
      after.holding.name = buffer.holding.name
  unchanged : ∀ {error after}, outcome = .error error after → after = buffer

theorem reserve_of_beyond
    (beyond : addressLimit ≤ buffer.position + needed) :
    reserve needed buffer =
      .error (.allocationFailed (addressLimit - 1)) buffer := by
  rw [reserve, if_pos beyond]

theorem reserve_viewed (addressed : buffer.position + needed < addressLimit)
    (viewed : buffer.holding = .view) :
    reserve needed buffer = .error .readOnly buffer := by
  rw [reserve, if_neg (Nat.not_le_of_lt addressed), if_pos viewed]

theorem reserve_fixed (addressed : buffer.position + needed < addressLimit)
    (fixed : buffer.holding.isFixed = true) :
    reserve needed buffer =
      if needed ≤ buffer.remainder then .ok () buffer
      else .error (.capacityExhausted needed buffer.remainder) buffer := by
  simp only [reserve, if_neg (Nat.not_le_of_lt addressed),
    if_neg (Holding.ne_view_of_fixed fixed),
    Holding.not_growable_of_fixed fixed, Bool.false_eq_true, if_false]

/-- Room that was made is behind the same cursor, in memory that begins as it
did. -/
theorem reserve_made (sound : Sound buffer) {after : Buffer}
    (made : reserve needed buffer = .ok () after) :
    needed ≤ after.remainder ∧ after.position = buffer.position ∧
      after.mark = buffer.mark ∧ buffer.content <+: after.content ∧
      after.holding.name = buffer.holding.name := by
  have reserved := reserve_ok made
  have room := reserved.room sound.inside
  obtain ⟨spare, longer⟩ := reserved.content_eq
  refine ⟨?_, reserved.position_eq, reserved.mark_eq, ⟨_, longer.symm⟩,
    (sound.reserve made).name_eq⟩
  rw [remainder]
  omega

/-- Memory is refused to those only that could have grown, or that asked for
bytes beyond the addresses. -/
theorem reserve_starved {requested : Nat} {after : Buffer}
    (addressed : buffer.position + needed < addressLimit)
    (starved : reserve needed buffer =
      .error (.allocationFailed requested) after) :
    buffer.holding.name = "Owned" := by
  cases held : buffer.holding with
  | owned allocated => rfl
  | view =>
      rw [reserve_viewed addressed held] at starved
      cases starved
  | cloned | adopted | borrowed beyond =>
      have fixed : buffer.holding.isFixed = true := by
        rw [held]
        rfl
      rw [reserve_fixed addressed fixed] at starved
      split at starved <;> cases starved

theorem reserve_justified (sound : Sound buffer)
    (addressed : buffer.position + needed < addressLimit) :
    Justified needed buffer (reserve needed buffer) where
  viewed := reserve_viewed addressed
  fixed := reserve_fixed addressed
  starved := reserve_starved addressed
  made := reserve_made sound
  unchanged := fun failed => (reserve_error failed).1

/-- Memory that can grow has no other reason than that it cannot be had. -/
theorem reserve_justified_of_growable (sound : Sound buffer)
    (growable : buffer.holding.isGrowable = true) :
    Justified needed buffer (reserve needed buffer) where
  viewed := by
    intro viewed
    rw [viewed] at growable
    cases growable
  fixed := by
    intro fixed
    rw [Holding.not_growable_of_fixed fixed] at growable
    cases growable
  starved := fun _ => Holding.name_of_isGrowable growable
  made := reserve_made sound
  unchanged := fun failed => (reserve_error failed).1

/-- A refused sum is no reason that memory which cannot grow may give. -/
theorem growable_of_justified
    (beyond : addressLimit ≤ buffer.position + needed)
    (justified : Justified needed buffer (reserve needed buffer)) :
    buffer.holding.isGrowable = true := by
  have owned : buffer.holding.name = (Holding.owned 0).name :=
    justified.starved (reserve_of_beyond beyond)
  rw [Holding.isGrowable_of_name owned]
  rfl

/-! ## Room in words -/

/-- Twice the bytes that are required, within the words, and sixty-four at the
least. -/
def grownInWords (required : UInt64) : UInt64 :=
  if Word.twice required < 64 then 64 else Word.twice required

/-- Makes room with numbers that are words.  The end of the room is a checked
sum, and the larger extent is doubled without wrapping around. -/
def reserveInWords (needed : UInt64) : BufferM Unit := fun buffer =>
  match Word.sum? (UInt64.ofNat buffer.position) needed with
  | none => .error (.allocationFailed (addressLimit - 1)) buffer
  | some required =>
    if buffer.holding = .view then
      .error .readOnly buffer
    else if needed ≤ UInt64.ofNat buffer.remainder then
      .ok () buffer
    else if buffer.holding.isGrowable then
      let extent := (grownInWords required).toNat
      if allocationLimit < extent then .error (.allocationFailed extent) buffer
      else .ok () (buffer.grow extent)
    else
      .error (.capacityExhausted needed.toNat buffer.remainder) buffer

theorem toNat_grownInWords (required : UInt64) :
    (grownInWords required).toNat = grownExtent required.toNat := by
  have least : (64 : UInt64).toNat = 64 := rfl
  have small : Word.twice required < 64 ↔
      min (2 * required.toNat) (Word.limit - 1) < 64 := by
    rw [UInt64.lt_iff_toNat_lt, Word.toNat_twice, least]
  rw [grownInWords, grownExtent, leastGrowth, addressLimit]
  split
  · rename_i under
    have bound := small.mp under
    rw [least]
    omega
  · rename_i enough
    rw [small] at enough
    rw [Word.toNat_twice]
    omega

theorem reserveInWords_eq (sound : Sound buffer) (needed : UInt64) :
    reserveInWords needed buffer = reserve needed.toNat buffer := by
  have limits := allocationLimit_lt
  have available := sound.available
  have inside := sound.inside
  have position : (UInt64.ofNat buffer.position).toNat = buffer.position := by
    apply UInt64.toNat_ofNat_of_lt'
    exact Nat.lt_of_le_of_lt (Nat.le_trans inside available)
      (Nat.lt_of_succ_lt limits)
  have behind : (UInt64.ofNat buffer.remainder).toNat = buffer.remainder := by
    apply UInt64.toNat_ofNat_of_lt'
    exact Nat.lt_of_le_of_lt
      (Nat.le_trans (Nat.sub_le _ _) available) (Nat.lt_of_succ_lt limits)
  by_cases beyond : addressLimit ≤ buffer.position + needed.toNat
  · have wrapped : Word.sum? (UInt64.ofNat buffer.position) needed = none := by
      apply Word.sum?_eq_none
      rwa [position]
    rw [reserve_of_beyond beyond, reserveInWords, wrapped]
  · have word : (UInt64.ofNat buffer.position).toNat + needed.toNat <
        Word.limit := by
      rw [position]
      exact Nat.lt_of_not_le beyond
    obtain ⟨required, formed, value⟩ := Word.sum?_eq_some word
    rw [position] at value
    have fits : needed ≤ UInt64.ofNat buffer.remainder ↔
        needed.toNat ≤ buffer.remainder := by
      rw [UInt64.le_iff_toNat_le, behind]
    simp only [reserveInWords, formed, reserve, if_neg beyond, fits,
      toNat_grownInWords, value]

/-! ## The reason -/

/-- Room is refused for the right reason exactly if the memory can grow or the
bytes asked for would end at an address.  Otherwise an allocation is said to
have failed.  In every case room that was made is there, nothing has moved, and
a refusal changes nothing; and no word wraps around. -/
theorem reserve_justified_iff_addressed (built : Built origin)
    (reached : Session.Reached origin (.buffer buffer)) (needed : UInt64) :
    (Justified needed.toNat buffer (reserve needed.toNat buffer) ↔
      buffer.holding.isGrowable = true ∨
        buffer.position + needed.toNat < addressLimit) ∧
    (addressLimit ≤ buffer.position + needed.toNat →
      reserve needed.toNat buffer =
        .error (.allocationFailed (addressLimit - 1)) buffer) ∧
    (∀ after, reserve needed.toNat buffer = .ok () after →
      needed.toNat ≤ after.remainder ∧ after.position = buffer.position ∧
        after.mark = buffer.mark ∧ buffer.content <+: after.content ∧
        after.holding.name = buffer.holding.name) ∧
    (∀ error after, reserve needed.toNat buffer = .error error after →
      after = buffer) ∧
    reserveInWords needed buffer = reserve needed.toNat buffer := by
  have sound : Sound buffer := (reached.memory_sound built).1
  refine ⟨?_, reserve_of_beyond, fun _ => reserve_made sound,
    fun _ _ failed => (reserve_error failed).1,
    reserveInWords_eq sound needed⟩
  constructor
  · intro justified
    by_cases beyond : addressLimit ≤ buffer.position + needed.toNat
    · exact .inl (growable_of_justified beyond justified)
    · exact .inr (Nat.lt_of_not_le beyond)
  · rintro (growable | addressed)
    · exact reserve_justified_of_growable sound growable
    · exact reserve_justified sound addressed

/-- A copy of two bytes, with the cursor behind the first, has room for one more
and says that it has no room for the longest run of bytes with an end. -/
theorem reserve_justified_up_to_last_address :
    let buffer := leaves (Call.perform (.setPosition 1)) (cloned [1, 2])
    Built (cloned [1, 2]) ∧
      Session.Reached (cloned [1, 2]) (.buffer buffer) ∧
      reserve 1 buffer = .ok () buffer ∧
      reserve 0xFFFFFFFFFFFFFFFE buffer =
        .error (.capacityExhausted 0xFFFFFFFFFFFFFFFE 1) buffer := by
  intro buffer
  have built : Built (cloned [1, 2]) := .cloned (by decide)
  have reached : Session.Reached (cloned [1, 2]) (.buffer buffer) :=
    Session.Reached.start.step (.call (.setPosition 1) _)
  obtain ⟨one, _⟩ := reserve_justified_iff_addressed built reached 1
  obtain ⟨most, _⟩ :=
    reserve_justified_iff_addressed built reached 0xFFFFFFFFFFFFFFFE
  exact ⟨built, reached, (one.mpr (.inr (by decide))).fixed rfl,
    (most.mpr (.inr (by decide))).fixed rfl⟩

/-- A view of one byte, which has been taken, and a copy of one are asked for so
many bytes that these would end behind the last address.  Both say that an
allocation has failed. -/
theorem reserve_unjustified_beyond_addresses :
    let read := leaves (Call.perform (.setPosition 1)) (view [1])
    let copy := leaves (Call.perform (.setPosition 1)) (cloned [1])
    Built (view [1]) ∧ Session.Reached (view [1]) (.buffer read) ∧
      read.holding = .view ∧
      reserve 0xFFFFFFFFFFFFFFFF read =
        .error (.allocationFailed 0xFFFFFFFFFFFFFFFF) read ∧
      ¬Justified 0xFFFFFFFFFFFFFFFF read (reserve 0xFFFFFFFFFFFFFFFF read) ∧
      Built (cloned [1]) ∧ Session.Reached (cloned [1]) (.buffer copy) ∧
      copy.holding = .cloned ∧
      reserve 0xFFFFFFFFFFFFFFFF copy =
        .error (.allocationFailed 0xFFFFFFFFFFFFFFFF) copy ∧
      ¬Justified 0xFFFFFFFFFFFFFFFF copy
        (reserve 0xFFFFFFFFFFFFFFFF copy) := by
  intro read copy
  have readMore : reserve 0xFFFFFFFFFFFFFFFF read =
      .error (.allocationFailed 0xFFFFFFFFFFFFFFFF) read :=
    reserve_of_beyond (by decide)
  have copyMore : reserve 0xFFFFFFFFFFFFFFFF copy =
      .error (.allocationFailed 0xFFFFFFFFFFFFFFFF) copy :=
    reserve_of_beyond (by decide)
  refine ⟨.view (by decide),
    Session.Reached.start.step (.call (.setPosition 1) _), rfl, readMore, ?_,
    .cloned (by decide),
    Session.Reached.start.step (.call (.setPosition 1) _), rfl, copyMore, ?_⟩
  · intro justified
    have refused := justified.viewed rfl
    rw [readMore] at refused
    cases refused
  · intro justified
    have owned := justified.starved copyMore
    exact absurd owned (by decide)

end Buffer

end TagWire
