import TagWire.Field
import TagWire.Proofs.Incremental

/-!
# Every decoder is incremental

Each decoder is taken apart into steps that look at the first byte, take a
number of bytes, judge what they have taken, or read on behind an item.  The
steps obey the laws of `Resumes`, and so do the decoders that they make up:
numbers, tags, payloads behind a length, and whole records.

Where bytes are lacking, the steps and what they make up count the bytes that are
there from the start.
-/

namespace TagWire

namespace Decoder

/-- Looks at the byte that announces a group. -/
def first : List UInt8 → Except WireError UInt8
  | [] => .error (.unexpectedEnd 1 0)
  | byte :: _ => .ok byte

theorem first_resumes : Resumes 0 (fun _ => 1) first := by
  constructor
  · intro bytes answer _ read
    cases bytes with
    | nil => cases read
    | cons byte bytes =>
        cases read
        refine ⟨Nat.zero_le _, Nat.succ_le_succ (Nat.zero_le _), ?_⟩
        intro other same
        cases other with
        | nil => cases same
        | cons head tail =>
            simp only [List.take_succ_cons, List.take_zero,
              List.cons.injEq, and_true] at same
            rw [same]
            rfl
  · intro bytes error _ refused
    cases bytes with
    | nil =>
        cases refused
        refine .inr ⟨1, 0, rfl, Nat.one_pos, ?_⟩
        intro more few
        have nothing : more = [] :=
          List.eq_nil_of_length_eq_zero (by omega)
        subst nothing
        rfl
    | cons byte bytes => cases refused

end Decoder

namespace Varint

/-- The word that a whole group spells. -/
def spell (group : List UInt8) (length : Nat) :
    Except WireError (UInt64 × Nat) :=
  let value := bound (length - 1) +
    (BigEndian.decode group - Marker.weight length)
  if value < Word.limit then .ok (UInt64.ofNat value, length)
  else .error .varintOverflow

theorem decode_eq_steps :
    decode = fun bytes => Decoder.first bytes >>= fun first =>
      Decoder.run (Marker.leadingOnes first + 1) bytes >>= fun taken =>
        spell taken.1 taken.2 := by
  funext bytes
  cases bytes with
  | nil => rfl
  | cons first rest =>
      simp only [decode, Decoder.first, Decoder.run, bind, Except.bind]
      split <;> rfl

theorem spell_resumes (group : List UInt8) (length : Nat) :
    Resumes length Prod.snd fun _ => spell group length := by
  simp only [spell]
  split
  · exact Resumes.pure rfl
  · exact Resumes.fail trivial

theorem decode_resumes : Resumes 0 Prod.snd decode := by
  rw [decode_eq_steps]
  exact Decoder.first_resumes.bind fun _ =>
    (Resumes.run (Nat.succ_le_succ (Nat.zero_le _))).bind fun taken =>
      spell_resumes taken.1 taken.2

end Varint

namespace Tag

/-- The tag that a whole group of a tier spells. -/
def spell (tier : Tier) (group : List UInt8) : Tag :=
  let word := BigEndian.decode group - Marker.weight tier.length
  { typeCode := UInt8.ofNat (word / tier.indexCount)
    index := UInt32.ofNat (word % tier.indexCount) }

/-- Goes on behind the byte that announces the tier. -/
def decodeIn (first : UInt8) : Option Tier → Decoder Tag
  | none => fun _ => .error (.malformedTag first)
  | some tier => fun bytes =>
      (Decoder.run tier.length bytes).map fun taken =>
        (spell tier taken.1, taken.2)

theorem decode_eq_steps :
    decode = fun bytes => Decoder.first bytes >>= fun first =>
      decodeIn first tiers[Marker.leadingOnes first]? bytes := by
  funext bytes
  cases bytes with
  | nil => rfl
  | cons first rest =>
      simp only [decode, Decoder.first, bind, Except.bind]
      cases tiers[Marker.leadingOnes first]? with
      | none => rfl
      | some tier =>
          simp only [decodeIn, Decoder.run]
          split <;> rfl

theorem decode_resumes : Resumes 0 Prod.snd decode := by
  rw [decode_eq_steps]
  refine Decoder.first_resumes.bind fun first => ?_
  have positive : ∀ tier ∈ tiers, 1 ≤ tier.length := by decide
  cases announced : tiers[Marker.leadingOnes first]? with
  | none => exact Resumes.fail trivial
  | some tier =>
      have member := List.mem_of_getElem? announced
      exact (Resumes.run (positive tier member)).map fun _ => rfl

end Tag

namespace Payload

theorem Span.within_eq_run (start length : Nat) :
    Span.within start length = fun bytes =>
      (Decoder.run (start + length) bytes).map fun taken =>
        { start, stop := taken.2 } := by
  funext bytes
  simp only [Span.within, Decoder.run]
  split <;> rfl

theorem Span.within_resumes (start length : Nat) :
    Resumes start Span.stop (Span.within start length) := by
  rw [Span.within_eq_run]
  exact (Resumes.run (Nat.le_add_right _ _)).map fun _ => rfl

theorem locate_resumes : Resumes 0 Span.stop locate := by
  refine Varint.decode_resumes.bind fun (length, start) => ?_
  simp only
  split
  · exact Resumes.fail trivial
  · exact Span.within_resumes start length.toNat

theorem locateFixed_eq_steps (width : Nat) :
    locateFixed width = fun bytes =>
      Decoder.run width bytes >>= fun taken =>
        Span.within taken.2 (BigEndian.decode taken.1) bytes := by
  funext bytes
  simp only [locateFixed, Decoder.run]
  split <;> rfl

theorem locateFixed_resumes (width : Nat) :
    Resumes 0 Span.stop (locateFixed width) := by
  rw [locateFixed_eq_steps]
  exact (Resumes.run (Nat.zero_le _)).bind fun taken =>
    Span.within_resumes taken.2 (BigEndian.decode taken.1)

/-- A span reaches no further than its end. -/
theorem Span.of_take_stop (span : Span) (bytes : List UInt8) :
    span.of (bytes.take span.stop) = span.of bytes := by
  rw [Span.of, Span.of, List.drop_take, List.take_take, Nat.min_self]

theorem openText_error {payload : List UInt8} {error : WireError}
    (refused : openText payload = .error error) :
    ∃ fault, error = .invalidText fault := by
  unfold openText at refused
  cases decoded : Utf8.decode payload <;> rw [decoded] at refused <;>
    cases refused
  exact ⟨_, rfl⟩

theorem openText_fault {payload : List UInt8} {error : WireError}
    (refused : openText payload = .error error) : error.IsFault := by
  obtain ⟨fault, rfl⟩ := openText_error refused
  trivial

theorem closedText_fault {payload : List UInt8} {error : WireError}
    (refused : closedText payload = .error error) : error.IsFault := by
  unfold closedText at refused
  split at refused
  · exact openText_fault refused
  · cases refused
    trivial

end Payload

namespace Codec

theorem ofSpan_resumes {α : Type}
    {locate : List UInt8 → Except WireError Payload.Span}
    {read : List UInt8 → Except WireError α}
    (located : Resumes 0 Payload.Span.stop locate)
    (faults : ∀ {payload error}, read payload = .error error →
      error.IsFault) :
    Resumes 0 Prod.snd (Decoder.ofSpan locate read) := by
  refine located.bind fun span => Resumes.window ?_ ?_ ?_
  · intro bytes
    rw [span.of_take_stop]
  · intro bytes answer opened
    cases judged : read (span.of bytes) <;> rw [judged] at opened <;>
      cases opened
    rfl
  · intro bytes error refused
    cases judged : read (span.of bytes) <;> rw [judged] at refused <;>
      cases refused
    exact faults judged

theorem word_resumes {α : Type} (width : Nat) (toNat : α → Nat)
    (ofNat : Nat → α) :
    Resumes 0 Prod.snd (word width toNat ofNat).decode :=
  (Resumes.run (Nat.zero_le _)).bind fun _ => Resumes.pure rfl

theorem signedVarint_resumes : Resumes 0 Prod.snd signedVarint.decode :=
  Varint.decode_resumes.bind fun _ => Resumes.pure rfl

theorem closedText_resumes : Resumes 0 Prod.snd closedText.decode :=
  ofSpan_resumes Payload.locate_resumes Payload.closedText_fault

theorem bytes_resumes : Resumes 0 Prod.snd bytes.decode :=
  ofSpan_resumes Payload.locate_resumes fun refused => by cases refused

end Codec

namespace Value

theorem decodeWith_resumes {α : Type} {codec : Codec α}
    (resumes : Resumes 0 Prod.snd codec.decode) (ofContent : α → Value) :
    Resumes 0 Prod.snd (decodeWith codec ofContent) :=
  resumes.map fun _ => rfl

theorem decode_resumes (type : FieldType) :
    Resumes 0 Prod.snd (decode type) := by
  cases type with
  | eof => exact Resumes.pure rfl
  | version => exact decodeWith_resumes Varint.decode_resumes _
  | bool => exact decodeWith_resumes (Codec.word_resumes 1 _ _) _
  | int => exact decodeWith_resumes Codec.signedVarint_resumes _
  | uint => exact decodeWith_resumes Varint.decode_resumes _
  | float => exact decodeWith_resumes (Codec.word_resumes 4 _ _) _
  | double => exact decodeWith_resumes (Codec.word_resumes 8 _ _) _
  | text => exact decodeWith_resumes Codec.closedText_resumes _
  | bytes => exact decodeWith_resumes Codec.bytes_resumes _
  | array => exact Resumes.fail trivial
  | map => exact Resumes.fail trivial

end Value

namespace Field

theorem typeOf_resumes (tag : Tag) (start : Nat) :
    Resumes start (fun _ => start) fun _ => typeOf tag := by
  unfold typeOf
  cases FieldType.ofCode? tag.typeCode with
  | none => exact Resumes.fail trivial
  | some type => exact Resumes.pure rfl

theorem decode_resumes : Resumes 0 Prod.snd decode :=
  Tag.decode_resumes.bind fun (tag, tagLength) =>
    (typeOf_resumes tag tagLength).bind fun type =>
      ((Value.decode_resumes type).drop).bind fun _ => Resumes.pure rfl

end Field

/-! ## What is there is counted whole -/

/-- Who lacks bytes has seen all the bytes that are there. -/
def CountsAll {α : Type} (decode : List UInt8 → Except WireError α) : Prop :=
  ∀ bytes needed remainder,
    decode bytes = .error (.unexpectedEnd needed remainder) →
      remainder = bytes.length

namespace CountsAll

variable {α β : Type}

theorem first : CountsAll Decoder.first := by
  intro bytes needed remainder lacking
  cases bytes <;> cases lacking
  rfl

theorem run (count : Nat) : CountsAll (Decoder.run count) := by
  intro bytes needed remainder lacking
  simp only [Decoder.run] at lacking
  split at lacking <;> cases lacking
  rfl

/-- Who only finds faults lacks nothing. -/
theorem of_fault {decode : List UInt8 → Except WireError α}
    (faults : ∀ {bytes error}, decode bytes = .error error → error.IsFault) :
    CountsAll decode := by
  intro bytes needed remainder lacking
  exact (faults lacking).elim

theorem bind {first : List UInt8 → Except WireError α}
    {next : α → List UInt8 → Except WireError β}
    (firstCounts : CountsAll first)
    (nextCounts : ∀ answer, CountsAll (next answer)) :
    CountsAll fun bytes => first bytes >>= fun answer => next answer bytes := by
  intro bytes needed remainder lacking
  simp only at lacking
  cases opened : first bytes with
  | error error =>
      rw [opened] at lacking
      cases lacking
      exact firstCounts _ _ _ opened
  | ok answer =>
      rw [opened] at lacking
      exact nextCounts answer _ _ _ lacking

theorem map {decode : List UInt8 → Except WireError α} (counts : CountsAll decode)
    (change : α → β) : CountsAll fun bytes => (decode bytes).map change := by
  intro bytes needed remainder lacking
  simp only at lacking
  cases read : decode bytes with
  | error error =>
      rw [read] at lacking
      cases lacking
      exact counts _ _ _ read
  | ok answer =>
      rw [read] at lacking
      cases lacking

theorem varint : CountsAll Varint.decode := by
  rw [Varint.decode_eq_steps]
  apply first.bind
  intro _
  apply (run _).bind
  intro taken
  apply of_fault
  intro bytes error failed
  simp only [Varint.spell] at failed
  split at failed <;> cases failed
  trivial

theorem tag : CountsAll Tag.decode := by
  rw [Tag.decode_eq_steps]
  apply first.bind
  intro lead
  cases Tag.tiers[Marker.leadingOnes lead]? with
  | none =>
      apply of_fault
      intro bytes error failed
      cases failed
      trivial
  | some tier => exact (run tier.length).map _

theorem within (start length : Nat) :
    CountsAll (Payload.Span.within start length) := by
  rw [Payload.Span.within_eq_run]
  exact (run (start + length)).map _

theorem locate : CountsAll Payload.locate := by
  apply varint.bind
  rintro ⟨length, start⟩
  simp only
  split
  · apply of_fault
    intro bytes error failed
    cases failed
    trivial
  · exact within start length.toNat

theorem locateFixed (width : Nat) : CountsAll (Payload.locateFixed width) := by
  rw [Payload.locateFixed_eq_steps]
  apply (run width).bind
  intro taken
  exact within taken.2 (BigEndian.decode taken.1)

theorem ofSpan {locate : List UInt8 → Except WireError Payload.Span}
    {read : List UInt8 → Except WireError α} (located : CountsAll locate)
    (faults : ∀ {payload error}, read payload = .error error →
      error.IsFault) :
    CountsAll (Decoder.ofSpan locate read) := by
  apply located.bind
  intro span
  apply of_fault
  intro bytes error failed
  cases judged : read (span.of bytes) <;> rw [judged] at failed <;>
    cases failed
  exact faults judged

theorem word (width : Nat) (toNat : α → Nat) (ofNat : Nat → α) :
    CountsAll (Codec.word width toNat ofNat).decode := by
  apply (run width).bind
  intro taken
  apply of_fault
  intro bytes error failed
  cases failed

theorem signedVarint : CountsAll Codec.signedVarint.decode := by
  apply varint.bind
  intro read
  apply of_fault
  intro bytes error failed
  cases failed

end CountsAll

/-! ## All decoders -/

/-- Numbers, tags, payloads behind either kind of length and whole records can
all be decoded while their bytes are still arriving. -/
theorem decoders_incremental :
    Incremental Prod.snd Varint.decode ∧
      Incremental Prod.snd Tag.decode ∧
      Incremental Payload.Span.stop Payload.locate ∧
      (∀ width, Incremental Payload.Span.stop (Payload.locateFixed width)) ∧
      Incremental Prod.snd Field.decode :=
  ⟨Varint.decode_resumes.incremental, Tag.decode_resumes.incremental,
    Payload.locate_resumes.incremental,
    fun width => (Payload.locateFixed_resumes width).incremental,
    Field.decode_resumes.incremental⟩

end TagWire
