import TagWire.Proofs.Buffer.RoundTrip
import TagWire.Proofs.Forms
import TagWire.Proofs.Packet.RoundTrip

/-!
# Packets in memory that cannot grow

The tag and the value of a record each ask for room at their own cursor.  In
memory of a fixed extent both find it exactly if the whole record fits behind the
first cursor, so such memory takes what fits into it and nothing else, and the
bytes are those that any other memory gets.
-/

namespace TagWire

/-- Memory of a fixed extent that may be written. -/
def Holding.isFixed : Holding → Bool
  | cloned | adopted | borrowed _ => true
  | owned _ | view => false

theorem Holding.not_growable_of_fixed {holding : Holding}
    (fixed : holding.isFixed = true) : holding.isGrowable = false := by
  cases holding with
  | owned allocated => cases fixed
  | view => cases fixed
  | cloned | adopted | borrowed beyond => rfl

theorem Holding.ne_view_of_fixed {holding : Holding}
    (fixed : holding.isFixed = true) : holding ≠ .view := by
  rintro rfl
  cases fixed

namespace Field

/-- A tag can carry the index, or none is written. -/
def Indexed (field : Field) : Prop :=
  field.value = .eof ∨ (∃ number, field.value = .version number) ∨
    field.index.toNat ≤ Tag.maxIndex

theorem indexed_iff {field : Field} :
    field.Indexed ↔ field.tag.index.toNat ≤ Tag.maxIndex := by
  obtain ⟨index, value⟩ := field
  cases value <;> simp [Indexed, tag, Value.type]

theorem encode_of_indexed {field : Field} (indexed : field.Indexed) :
    ∃ record, field.encode = .ok record := by
  obtain ⟨tag, tagged⟩ := Tag.encode_of_index_le (indexed_iff.mp indexed)
  obtain ⟨body, valued⟩ := field.value.encode_total
  exact ⟨tag ++ body, encode_ok.mpr ⟨tag, body, tagged, valued, rfl⟩⟩

theorem indexed_of_encode {field : Field} {record : List UInt8}
    (encoded : field.encode = .ok record) : field.Indexed := by
  obtain ⟨tag, _, tagged, _⟩ := encode_ok.mp encoded
  exact indexed_iff.mpr (Tag.index_le_of_encode tagged)

theorem tag_encode_of_unindexed {field : Field} (beyond : ¬field.Indexed) :
    field.tag.encode = .error (.indexOutOfRange field.index) := by
  have sameIndex : field.tag.index = field.index := by
    obtain ⟨index, value⟩ := field
    cases value with
    | eof => exact (beyond (.inl rfl)).elim
    | version number => exact (beyond (.inr (.inl ⟨number, rfl⟩))).elim
    | bool | int | uint | float | double | text | bytes => rfl
  cases tagged : field.tag.encode with
  | ok tag =>
      exact (beyond (indexed_iff.mpr (Tag.index_le_of_encode tagged))).elim
  | error error =>
      obtain ⟨rfl, _⟩ := Tag.encode_error tagged
      rw [sameIndex]

end Field

namespace Buffer

/-- Why memory of a fixed extent has no room for bytes up to some place: they do
not fit behind the cursor, or the place has no address.  The latter takes memory
and content that would fill all addresses between them. -/
inductive Crowded (stop : Nat) : WireError → Prop where
  | exhausted {needed remainder : Nat} :
      remainder < needed → Crowded stop (.capacityExhausted needed remainder)
  | beyond :
      addressLimit ≤ stop →
      Crowded stop (.allocationFailed (addressLimit - 1))

theorem Crowded.further {stop more : Nat} {error : WireError}
    (crowded : Crowded stop error) (later : stop ≤ more) :
    Crowded more error := by
  cases crowded with
  | exhausted less => exact .exhausted less
  | beyond limit => exact .beyond (Nat.le_trans limit later)

theorem write_without_room {bytes : List UInt8} {buffer : Buffer}
    (fixed : buffer.holding.isFixed = true)
    (short : buffer.remainder < bytes.length) :
    ∃ error, write bytes buffer = .error error buffer ∧
      Crowded (buffer.position + bytes.length) error := by
  have writable := Holding.ne_view_of_fixed fixed
  have rigid := Holding.not_growable_of_fixed fixed
  by_cases beyond : addressLimit ≤ buffer.position + bytes.length
  · exact ⟨_, write_of_beyond beyond, .beyond beyond⟩
  · have addressed := Nat.lt_of_not_le beyond
    exact ⟨_, write_of_exhausted addressed writable short rigid,
      .exhausted short⟩

end Buffer

namespace Writer

open Buffer

section Records

variable {field : Field} {record : List UInt8} {buffer : Buffer}

theorem writeRecord_in_room (sound : Sound buffer)
    (fixed : buffer.holding.isFixed = true)
    (encoded : field.encode = .ok record)
    (fits : record.length ≤ buffer.remainder) :
    ∃ after, writeRecord field buffer = .ok () after ∧
      after.holding = buffer.holding ∧
      after.remainder = buffer.remainder - record.length := by
  have writable := Holding.ne_view_of_fixed fixed
  obtain ⟨tag, body, tagged, valued, rfl⟩ := Field.encode_ok.mp encoded
  rw [List.length_append] at fits ⊢
  have tagFits : tag.length ≤ buffer.remainder := by omega
  obtain ⟨tagWrote, behindTag⟩ := write_in_room sound writable tagFits
  have bodyFits : body.length ≤ (splice tag buffer).remainder := by omega
  obtain ⟨bodyWrote, behindBody⟩ :=
    write_in_room (sound.write tagWrote).sound writable bodyFits
  refine ⟨splice body (splice tag buffer), ?_, rfl, ?_⟩
  · rw [writeRecord_eq, tagged, valued]
    simp only [writeEncoded, tagWrote, bodyWrote]
  · rw [behindBody, behindTag, Nat.sub_add_eq]

theorem writeRecord_without_room (sound : Sound buffer)
    (fixed : buffer.holding.isFixed = true)
    (encoded : field.encode = .ok record)
    (short : buffer.remainder < record.length) :
    ∃ error after, writeRecord field buffer = .error error after ∧
      Crowded (buffer.position + record.length) error := by
  have writable := Holding.ne_view_of_fixed fixed
  obtain ⟨tag, body, tagged, valued, rfl⟩ := Field.encode_ok.mp encoded
  rw [List.length_append] at short ⊢
  rw [writeRecord_eq, tagged, valued]
  by_cases tagFits : tag.length ≤ buffer.remainder
  · obtain ⟨tagWrote, behindTag⟩ := write_in_room sound writable tagFits
    have bodyShort : (splice tag buffer).remainder < body.length := by omega
    have behind : (splice tag buffer).holding.isFixed = true := fixed
    obtain ⟨error, failed, crowded⟩ := write_without_room behind bodyShort
    refine ⟨error, splice tag buffer, ?_, ?_⟩
    · simp only [writeEncoded, tagWrote, failed]
    · rw [← Nat.add_assoc]
      exact crowded
  · obtain ⟨error, failed, crowded⟩ :=
      write_without_room fixed (Nat.lt_of_not_le tagFits)
    refine ⟨error, buffer, ?_, ?_⟩
    · simp only [writeEncoded, failed]
    · exact crowded.further
        (Nat.add_le_add_left (Nat.le_add_right _ _) _)

end Records

/-- The writer is over sound memory of a fixed extent. -/
structure OverFixed (writer : Writer) : Prop where
  sound : Sound writer.buffer
  fixed : writer.buffer.holding.isFixed = true

section Appending

variable {field : Field} {record : List UInt8} {writer : Writer}

theorem append_in_room (firm : OverFixed writer)
    (opened : writer.finished = false) (encoded : field.encode = .ok record)
    (fits : record.length ≤ writer.buffer.remainder) :
    ∃ after, append field writer = .ok () after ∧
      Took field record writer after ∧ OverFixed after ∧
      after.buffer.remainder =
        writer.buffer.remainder - record.length := by
  obtain ⟨buffer, wrote, held, left⟩ :=
    writeRecord_in_room firm.sound firm.fixed encoded fits
  have appended := append_opened opened field
  rw [wrote] at appended
  have continues := append_preserves field writer firm.sound
  rw [leaves_ok appended] at continues
  obtain ⟨_, _, took⟩ := append_ok firm.sound.inside appended
  cases encoded.symm.trans took.encoded
  refine ⟨_, appended, took, ⟨continues.sound, ?_⟩, left⟩
  simp only [held, firm.fixed]

theorem append_without_room (firm : OverFixed writer)
    (opened : writer.finished = false) (encoded : field.encode = .ok record)
    (short : writer.buffer.remainder < record.length) :
    ∃ error after, append field writer = .error error after ∧
      Crowded (writer.buffer.position + record.length) error := by
  obtain ⟨error, buffer, failed, crowded⟩ :=
    writeRecord_without_room firm.sound firm.fixed encoded short
  have refused := append_opened opened field
  rw [failed] at refused
  exact ⟨error, _, refused, crowded⟩

theorem append_unindexed (opened : writer.finished = false)
    (beyond : ¬field.Indexed) :
    ∃ after, append field writer =
      .error (.indexOutOfRange field.index) after := by
  have refused := append_opened opened field
  rw [writeRecord_eq, Field.tag_encode_of_unindexed beyond] at refused
  exact ⟨_, refused⟩

end Appending

/-- What a writer over memory of a fixed extent takes, what it refuses and why,
the first reason before the others, and the bytes of what it takes. -/
structure TakesWhatFits (field : Field) (writer : Writer) : Prop where
  takes_iff : (∃ after, append field writer = .ok () after) ↔
    writer.finished = false ∧ field.Indexed ∧
      ∃ tag body, field.tag.encode = .ok tag ∧
        field.value.encode = .ok body ∧
        tag.length + body.length ≤ writer.buffer.remainder
  refuses : ∀ error after, append field writer = .error error after →
    (writer.finished = true ∧ error = .packetFinished) ∨
      (writer.finished = false ∧ ¬field.Indexed ∧
        error = .indexOutOfRange field.index) ∨
      (writer.finished = false ∧ field.Indexed ∧
        ∃ record, field.encode = .ok record ∧
          writer.buffer.remainder < record.length ∧
          Crowded (writer.buffer.position + record.length) error)
  sameBytes : ∀ after, append field writer = .ok () after →
    ∃ record, field.encode = .ok record ∧
      after.bytes = writer.bytes ++ record ∧
      ∀ (origin : Buffer) (other more : Writer), Built origin →
        Session.Reached origin (.writer other) →
        append field other = .ok () more → more.bytes = other.bytes ++ record

theorem OverFixed.takesWhatFits {writer : Writer} (firm : OverFixed writer)
    (field : Field) : TakesWhatFits field writer where
  takes_iff := by
    constructor
    · rintro ⟨after, appended⟩
      obtain ⟨opened, record, took⟩ :=
        append_ok firm.sound.inside appended
      refine ⟨opened, Field.indexed_of_encode took.encoded, ?_⟩
      by_cases fits : record.length ≤ writer.buffer.remainder
      · obtain ⟨tag, body, tagged, valued, rfl⟩ :=
          Field.encode_ok.mp took.encoded
        rw [List.length_append] at fits
        exact ⟨tag, body, tagged, valued, fits⟩
      · obtain ⟨error, refused, failed, _⟩ := append_without_room firm opened
          took.encoded (Nat.lt_of_not_le fits)
        rw [appended] at failed
        cases failed
    · rintro ⟨opened, _, tag, body, tagged, valued, fits⟩
      have encoded := Field.encode_ok.mpr ⟨tag, body, tagged, valued, rfl⟩
      rw [← List.length_append] at fits
      obtain ⟨after, appended, _⟩ := append_in_room firm opened encoded fits
      exact ⟨after, appended⟩
  refuses := by
    intro error after failed
    cases opened : writer.finished with
    | true =>
        rw [append_finished opened] at failed
        cases failed
        exact .inl ⟨rfl, rfl⟩
    | false =>
        by_cases indexed : field.Indexed
        · obtain ⟨record, encoded⟩ := Field.encode_of_indexed indexed
          refine .inr (.inr ⟨rfl, indexed, record, encoded, ?_⟩)
          by_cases fits : record.length ≤ writer.buffer.remainder
          · obtain ⟨taken, appended, _⟩ :=
              append_in_room firm opened encoded fits
            rw [failed] at appended
            cases appended
          · have short := Nat.lt_of_not_le fits
            obtain ⟨reason, refused, failedSo, crowded⟩ :=
              append_without_room firm opened encoded short
            rw [failed] at failedSo
            cases failedSo
            exact ⟨short, crowded⟩
        · obtain ⟨refused, failedSo⟩ := append_unindexed opened indexed
          rw [failed] at failedSo
          cases failedSo
          exact .inr (.inl ⟨rfl, indexed, rfl⟩)
  sameBytes := by
    intro after appended
    obtain ⟨_, record, took⟩ := append_ok firm.sound.inside appended
    refine ⟨record, took.encoded, took.bytes_eq, ?_⟩
    intro origin other more built reached appendedThere
    have inside := (reached.memory_sound built).1.inside
    obtain ⟨_, found, tookThere⟩ := append_ok inside appendedThere
    cases took.encoded.symm.trans tookThere.encoded
    exact tookThere.bytes_eq

/-- A run that some writer takes is taken in memory of a fixed extent exactly if
all of its records fit. -/
theorem forM_append_fits_iff {fields : List Field} {records : List UInt8}
    {owner last writer : Writer}
    (written : Field.Written fields records)
    (inside : owner.buffer.position ≤ owner.buffer.extent)
    (accepted : fields.forM append owner = .ok () last)
    (firm : OverFixed writer) (sameEnd : writer.finished = owner.finished) :
    (∃ done, fields.forM append writer = .ok () done) ↔
      records.length ≤ writer.buffer.remainder := by
  induction written generalizing owner writer with
  | nil =>
      constructor
      · intro _
        exact Nat.zero_le _
      · intro _
        exact ⟨_, rfl⟩
  | @cons field fields record records encoded _ induction =>
      rw [forM_append_cons] at accepted
      cases first : append field owner with
      | error error middle =>
          rw [first] at accepted
          cases accepted
      | ok answer middle =>
          rw [first] at accepted
          obtain ⟨ownerOpened, _, ownerTook⟩ := append_ok inside first
          have opened := sameEnd.trans ownerOpened
          rw [forM_append_cons, List.length_append]
          by_cases fits : record.length ≤ writer.buffer.remainder
          · obtain ⟨after, appended, took, firmAfter, left⟩ :=
              append_in_room firm opened encoded fits
            have sameEndAfter : after.finished = middle.finished := by
              rw [Bool.eq_iff_iff, took.finished_iff, ownerTook.finished_iff]
            rw [appended]
            simp only
            rw [induction ownerTook.inside accepted firmAfter sameEndAfter,
              left]
            omega
          · obtain ⟨error, after, failed, _⟩ := append_without_room firm opened
              encoded (Nat.lt_of_not_le fits)
            rw [failed]
            constructor
            · rintro ⟨_, impossible⟩
              cases impossible
            · intro room
              exact (fits (by omega)).elim

/-- A writer over any borrowed, cloned or adopted memory that has come to be
takes a record exactly if the packet is open, the tag can carry the index and the
tag and the value fit behind the cursor together, and adds the bytes that any
other writer adds.  A run that memory of the writer's own takes is taken in the
caller's memory exactly if the packet is no longer than that memory, with the
same packet. -/
theorem fixed_memory_takes_what_fits :
    (∀ (origin : Buffer) (writer : Writer) (field : Field), Built origin →
        Session.Reached origin (.writer writer) →
        writer.buffer.holding.isFixed = true →
        TakesWhatFits field writer) ∧
      ∀ (fields : List Field) (capacity : Nat) (owner last : Writer)
        (memory : List UInt8), owned capacity = .ok owner →
        fields.forM append owner = .ok () last →
        memory.length ≤ allocationLimit →
        ((∃ done, fields.forM append (borrowed memory) = .ok () done) ↔
            last.bytes.length ≤ memory.length) ∧
          ∀ done, fields.forM append (borrowed memory) = .ok () done →
            done.bytes = last.bytes := by
  constructor
  · intro origin writer field built reached fixed
    have firm : OverFixed writer := ⟨(reached.memory_sound built).1, fixed⟩
    exact firm.takesWhatFits field
  · intro fields capacity owner last memory made accepted held
    have growing := (owned_growing made).1
    obtain ⟨records, tookAll⟩ := forM_append_ok growing.inside accepted
    have sound : Sound (Buffer.borrowed memory) := (Built.borrowed held).sound
    have firm : OverFixed (borrowed memory) := ⟨sound, rfl⟩
    have whole : last.bytes = records := (tookAll.of_owned made).1
    constructor
    · rw [forM_append_fits_iff tookAll.written growing.inside accepted firm
        growing.opened.symm, whole]
      rfl
    · intro done copied
      obtain ⟨copy, tookCopy⟩ := forM_append_ok sound.inside copied
      rw [whole, tookCopy.bytes_eq,
        tookAll.written.unique tookCopy.written]
      rfl

/-- A record of three bytes fills three bytes of the caller's memory, and two are
too few for it. -/
theorem fixed_memory_takes_what_fits_exactly :
    let run := [⟨1, .uint 300⟩].forM append
    (∃ done, run (borrowed [7, 7, 7]) = .ok () done ∧
        done.bytes = [25, 128, 172]) ∧
      ¬∃ done, run (borrowed [7, 7]) = .ok () done := by
  intro run
  have made : owned 0 = .ok (ofBuffer (Buffer.atStart (.owned 0) [])) := rfl
  obtain ⟨last, accepted, bytes⟩ : ∃ last,
      run (ofBuffer (Buffer.atStart (.owned 0) [])) = .ok () last ∧
        last.bytes = [25, 128, 172] := ⟨_, rfl, rfl⟩
  obtain ⟨_, taken⟩ := fixed_memory_takes_what_fits
  obtain ⟨fullIff, sameBytes⟩ := taken _ 0 _ last [7, 7, 7] made accepted
    (by decide)
  obtain ⟨shortIff, _⟩ := taken _ 0 _ last [7, 7] made accepted (by decide)
  rw [bytes] at fullIff shortIff
  obtain ⟨done, full⟩ := fullIff.mpr (by decide)
  refine ⟨⟨done, full, (sameBytes done full).trans bytes⟩, ?_⟩
  rw [shortIff]
  decide

end Writer

end TagWire
