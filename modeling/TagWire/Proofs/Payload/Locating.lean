import TagWire.Proofs.Forms
import TagWire.Proofs.Number.Word

/-!
# Where a payload stands

The prefix of a payload may announce any length that a word can hold, whatever
bytes there are.  A payload is found exactly if all of it is there.  Otherwise
the prefix does not decode, or the payload would end beyond every address, or
the bytes end before the payload does; and each of these has an error of its
own.  The end of the payload is formed in words, by an addition that is checked
for having wrapped around.
-/

namespace TagWire

namespace Varint

/-- A word is read exactly where the bytes start with its group. -/
theorem decode_ok_iff {bytes : List UInt8} {value : UInt64} {consumed : Nat} :
    decode bytes = .ok (value, consumed) ↔
      encode value <+: bytes ∧ consumed = (encode value).length := by
  constructor
  · intro read
    have group := take_of_decode read
    have announced : encode value <+: bytes :=
      group ▸ List.take_prefix consumed bytes
    obtain ⟨trailing, rfl⟩ := announced
    rw [decode_encode_append] at read
    cases read
    exact ⟨List.prefix_append _ _, (length_encode value).symm⟩
  · rintro ⟨⟨trailing, rfl⟩, rfl⟩
    rw [length_encode]
    exact decode_encode_append value trailing

theorem decode_of_announced {bytes : List UInt8} {value : UInt64}
    (announced : encode value <+: bytes) :
    decode bytes = .ok (value, (encode value).length) :=
  decode_ok_iff.mpr ⟨announced, rfl⟩

/-- Nothing is read exactly where the bytes start with no group at all. -/
theorem decode_refused_iff {bytes : List UInt8} :
    (∃ error, decode bytes = .error error) ↔
      ∀ value, ¬encode value <+: bytes := by
  constructor
  · rintro ⟨error, refused⟩ value announced
    rw [decode_of_announced announced] at refused
    cases refused
  · intro unannounced
    cases read : decode bytes with
    | error error => exact ⟨error, rfl⟩
    | ok answer =>
        obtain ⟨value, consumed⟩ := answer
        exact absurd (decode_ok_iff.mp read).1 (unannounced value)

end Varint

namespace Payload

variable {bytes : List UInt8} {length : UInt64} {span : Span}

/-- The bytes from one offset up to another, if these are offsets into the bytes
and in order. -/
def slice? (start stop : Nat) (bytes : List UInt8) : Option (List UInt8) :=
  if start ≤ stop ∧ stop ≤ bytes.length then
    some ((bytes.drop start).take (stop - start))
  else
    none

/-- Bytes that are taken are too few exactly if all of them are. -/
theorem length_take_lt_iff {count : Nat} :
    (bytes.take count).length < count ↔ bytes.length < count := by
  rw [List.length_take]
  omega

theorem locate_of_refused {error : WireError}
    (refused : Varint.decode bytes = .error error) :
    locate bytes = .error error := by
  rw [locate, refused]
  rfl

/-- Behind a prefix that decodes, the end of the payload decides alone. -/
theorem locate_of_announced {stop : Nat}
    (announced : Varint.encode length <+: bytes)
    (ends : stop = (Varint.encode length).length + length.toNat) :
    locate bytes =
      if Word.limit ≤ stop then .error (.lengthOverflow length)
      else if bytes.length < stop then
        .error (.unexpectedEnd stop bytes.length)
      else .ok { start := (Varint.encode length).length, stop } := by
  rw [locate, Varint.decode_of_announced announced]
  simp only [bind, Except.bind, Span.within, ← ends, length_take_lt_iff]

/-- Either the prefix is refused, or it announces a length. -/
theorem prefix_cases (bytes : List UInt8) :
    (∃ error, Varint.decode bytes = .error error) ∨
      ∃ length, Varint.encode length <+: bytes := by
  cases read : Varint.decode bytes with
  | error error => exact .inl ⟨error, rfl⟩
  | ok answer => exact .inr ⟨answer.1, (Varint.decode_ok_iff.mp read).1⟩

theorem locate_ok_iff :
    locate bytes = .ok span ↔
      ∃ length, Varint.encode length <+: bytes ∧
        span.start = (Varint.encode length).length ∧
        span.stop = span.start + length.toNat ∧
        span.stop ≤ bytes.length ∧ span.stop < Word.limit := by
  constructor
  · intro located
    rcases prefix_cases bytes with ⟨error, refused⟩ | ⟨length, announced⟩
    · rw [locate_of_refused refused] at located
      cases located
    · rw [locate_of_announced announced rfl] at located
      split at located
      · cases located
      · rename_i addressed
        split at located
        · cases located
        · rename_i present
          cases located
          exact ⟨length, announced, rfl, rfl, Nat.le_of_not_lt present,
            Nat.lt_of_not_le addressed⟩
  · obtain ⟨start, stop⟩ := span
    simp only
    rintro ⟨length, announced, rfl, rfl, present, addressed⟩
    rw [locate_of_announced announced rfl,
      if_neg (Nat.not_le_of_lt addressed), if_neg (Nat.not_lt_of_le present)]

/-- A length that no address is left for is refused, and nothing else is for
this reason. -/
theorem locate_eq_lengthOverflow_iff :
    locate bytes = .error (.lengthOverflow length) ↔
      Varint.encode length <+: bytes ∧
        Word.limit ≤ (Varint.encode length).length + length.toNat := by
  constructor
  · intro located
    rcases prefix_cases bytes with ⟨error, refused⟩ | ⟨other, announced⟩
    · rw [locate_of_refused refused] at located
      cases located
      rcases Varint.decode_error_cases refused with same | ⟨_, _, same⟩ <;>
        cases same
    · rw [locate_of_announced announced rfl] at located
      split at located
      · rename_i beyond
        cases located
        exact ⟨announced, beyond⟩
      · split at located <;> cases located
  · rintro ⟨announced, beyond⟩
    rw [locate_of_announced announced rfl, if_pos beyond]

theorem locate_eq_unexpectedEnd_iff {needed remainder : Nat}
    (announced : Varint.encode length <+: bytes) :
    locate bytes = .error (.unexpectedEnd needed remainder) ↔
      needed = (Varint.encode length).length + length.toNat ∧
        remainder = bytes.length ∧
        bytes.length < needed ∧ needed < Word.limit := by
  rw [locate_of_announced announced rfl]
  constructor
  · intro located
    split at located
    · cases located
    · rename_i addressed
      split at located
      · rename_i short
        cases located
        exact ⟨rfl, rfl, short, Nat.lt_of_not_le addressed⟩
      · cases located
  · rintro ⟨rfl, rfl, short, addressed⟩
    rw [if_neg (Nat.not_le_of_lt addressed), if_pos short]

/-- The payload of a span that was found is a slice of the bytes, and they start
with the payload behind its length. -/
theorem slice?_of_located (located : locate bytes = .ok span) :
    ∃ length payload, Varint.encode length <+: bytes ∧
      slice? span.start span.stop bytes = some payload ∧
      payload.length = length.toNat ∧
      Varint.encode length ++ payload = bytes.take span.stop := by
  obtain ⟨length, announced, start, stop, present, _⟩ :=
    locate_ok_iff.mp located
  refine ⟨length, span.of bytes, announced, if_pos ⟨by omega, present⟩, ?_, ?_⟩
  · rw [Span.of, List.length_take, List.length_drop]
    omega
  · have group : bytes.take span.start = Varint.encode length := by
      rw [start, ← List.prefix_iff_eq_take.mp announced]
    have cut : bytes.take span.stop =
        bytes.take span.start ++ span.of bytes := by
      rw [Span.of, ← List.take_add, stop, Nat.add_sub_cancel_left]
    rw [cut, group]

/-- Finds a payload with offsets that are words: the end is a checked sum, and it
is compared with the number of bytes there are. -/
def locateInWords (bytes : List UInt8) : Except WireError Span := do
  let (length, start) ← Varint.decode bytes
  match Word.sum? (UInt64.ofNat start) length with
  | none => .error (.lengthOverflow length)
  | some stop =>
    if UInt64.ofNat bytes.length < stop then
      .error (.unexpectedEnd stop.toNat bytes.length)
    else
      .ok { start, stop := stop.toNat }

/-- Where the bytes have addresses, no step of the search in words wraps
around. -/
theorem locateInWords_eq (addressed : bytes.length < Word.limit) :
    locateInWords bytes = locate bytes := by
  rcases prefix_cases bytes with ⟨error, refused⟩ | ⟨length, announced⟩
  · rw [locate_of_refused refused, locateInWords, refused]
    rfl
  · -- The prefix stands in the bytes, so where it ends is a word as well.
    generalize starts : (Varint.encode length).length = start
    have startWord : (UInt64.ofNat start).toNat = start := by
      apply UInt64.toNat_ofNat_of_lt'
      exact Nat.lt_of_le_of_lt (starts ▸ announced.length_le) addressed
    have counted : (UInt64.ofNat bytes.length).toNat = bytes.length :=
      UInt64.toNat_ofNat_of_lt' addressed
    rw [locate_of_announced announced rfl, locateInWords,
      Varint.decode_of_announced announced, starts]
    simp only [bind, Except.bind]
    by_cases beyond : Word.limit ≤ start + length.toNat
    · have wrapped : Word.sum? (UInt64.ofNat start) length = none :=
        Word.sum?_eq_none (by rwa [startWord])
      rw [wrapped, if_pos beyond]
    · have word : (UInt64.ofNat start).toNat + length.toNat < Word.limit := by
        rw [startWord]
        exact Nat.lt_of_not_le beyond
      obtain ⟨stop, formed, value⟩ := Word.sum?_eq_some word
      rw [startWord] at value
      have short : UInt64.ofNat bytes.length < stop ↔
          bytes.length < start + length.toNat := by
        rw [UInt64.lt_iff_toNat_lt, counted, value]
      rw [formed, if_neg beyond]
      simp only [short, value]

/-- A payload is found exactly where the bytes start with a length and have a
payload of that length behind it.  The prefix is refused exactly where it is no
number; a length is refused exactly where the payload would end beyond every
address; and the bytes are too few exactly where the payload would end behind
them.  Nothing wraps around on the way. -/
theorem payload_found_exactly (addressed : bytes.length < Word.limit) :
    (∀ span, locate bytes = .ok span ↔
      ∃ length, Varint.encode length <+: bytes ∧
        span.start = (Varint.encode length).length ∧
        span.stop = span.start + length.toNat ∧
        span.stop ≤ bytes.length) ∧
    (∀ span, locate bytes = .ok span →
      ∃ length payload, Varint.encode length <+: bytes ∧
        slice? span.start span.stop bytes = some payload ∧
        payload.length = length.toNat ∧
        Varint.encode length ++ payload = bytes.take span.stop) ∧
    (∀ error, Varint.decode bytes = .error error →
      locate bytes = .error error) ∧
    ((∃ error, Varint.decode bytes = .error error) ↔
      ∀ length, ¬Varint.encode length <+: bytes) ∧
    (∀ length, locate bytes = .error (.lengthOverflow length) ↔
      Varint.encode length <+: bytes ∧
        Word.limit ≤ (Varint.encode length).length + length.toNat) ∧
    (∀ length, Varint.encode length <+: bytes → ∀ needed remainder,
      locate bytes = .error (.unexpectedEnd needed remainder) ↔
        needed = (Varint.encode length).length + length.toNat ∧
          remainder = bytes.length ∧
          bytes.length < needed ∧ needed < Word.limit) ∧
    locateInWords bytes = locate bytes := by
  refine ⟨?_, fun _ => slice?_of_located, fun _ => locate_of_refused,
    Varint.decode_refused_iff, fun _ => locate_eq_lengthOverflow_iff,
    fun _ announced _ _ => locate_eq_unexpectedEnd_iff announced,
    locateInWords_eq addressed⟩
  intro span
  rw [locate_ok_iff]
  constructor
  · rintro ⟨length, announced, start, stop, present, _⟩
    exact ⟨length, announced, start, stop, present⟩
  · rintro ⟨length, announced, start, stop, present⟩
    exact ⟨length, announced, start, stop, present,
      Nat.lt_of_le_of_lt present addressed⟩

/-- Of two lengths next to each other the smaller would end at the last address,
so bytes are missing, and the larger behind it. -/
theorem longest_lengths_told_apart :
    [0xFF, 0xFE, 0xFD, 0xFB, 0xF7, 0xEF, 0xDF, 0xBF, 0x76].length <
        Word.limit ∧
      locate [0xFF, 0xFE, 0xFD, 0xFB, 0xF7, 0xEF, 0xDF, 0xBF, 0x76] =
        .error (.unexpectedEnd 0xFFFFFFFFFFFFFFFF 9) ∧
      locate [0xFF, 0xFE, 0xFD, 0xFB, 0xF7, 0xEF, 0xDF, 0xBF, 0x77] =
        .error (.lengthOverflow 0xFFFFFFFFFFFFFFF7) := by
  let truncated : List UInt8 :=
    [0xFF, 0xFE, 0xFD, 0xFB, 0xF7, 0xEF, 0xDF, 0xBF, 0x76]
  let unaddressed : List UInt8 :=
    [0xFF, 0xFE, 0xFD, 0xFB, 0xF7, 0xEF, 0xDF, 0xBF, 0x77]
  have small : truncated.length < Word.limit := by decide
  have smallToo : unaddressed.length < Word.limit := by decide
  refine ⟨small, ?_, ?_⟩
  · obtain ⟨_, _, _, _, _, short, _⟩ := payload_found_exactly small
    exact (short 0xFFFFFFFFFFFFFFF6 ⟨[], rfl⟩ _ _).mpr
      ⟨by decide, by decide, by decide, by decide⟩
  · obtain ⟨_, _, _, _, beyond, _⟩ := payload_found_exactly smallToo
    exact (beyond 0xFFFFFFFFFFFFFFF7).mpr ⟨⟨[], rfl⟩, by decide⟩

end Payload

end TagWire
