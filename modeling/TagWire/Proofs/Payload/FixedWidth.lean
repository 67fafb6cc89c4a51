import TagWire.Proofs.Buffer.Splicing
import TagWire.Proofs.Payload.Locating

/-!
# Lengths of a fixed width

A prefix that is narrower than a word is cut off the end of a whole word, and it
is read back by shifting one byte after the other into a word.  Nothing is lost
either way up to the limit of the width, which is computed for itself as a word
of as many set bits.
-/

namespace TagWire

namespace BigEndian

/-- A narrower number is the end of a wider one. -/
theorem drop_encode (extra width value : Nat) :
    (encode (extra + width) value).drop extra = encode width value := by
  induction extra with
  | zero => rw [Nat.zero_add, List.drop_zero]
  | succ extra induction =>
      rw [Nat.succ_add, encode, List.drop_succ_cons, induction]

/-- Shifts the byte into the word from below. -/
def shiftIn (word : UInt64) (byte : UInt8) : UInt64 :=
  (word <<< 8) ||| byte.toUInt64

/-- The word that the bytes are shifted into. -/
def gather (bytes : List UInt8) : UInt64 :=
  bytes.foldl shiftIn 0

/-- A word whose first byte is free takes one more byte without loss. -/
theorem toNat_shiftIn {word : UInt64} (free : word.toNat < Nat.pow 256 7)
    (byte : UInt8) :
    (shiftIn word byte).toNat = word.toNat * 256 + byte.toNat := by
  have digit : byte.toNat < 2 ^ 8 := byte.toNat_lt
  have room : Nat.pow 256 7 = 72057594037927936 := rfl
  have shifted : (word <<< 8).toNat = word.toNat <<< 8 := by
    rw [UInt64.toNat_shiftLeft]
    apply Nat.mod_eq_of_lt
    have bits : (8 : UInt64).toNat % 64 = 8 := rfl
    rw [bits, Nat.shiftLeft_eq]
    omega
  rw [shiftIn, UInt64.toNat_or, shifted, UInt8.toNat_toUInt64,
    ← Nat.shiftLeft_add_eq_or_of_lt digit, Nat.shiftLeft_eq]

/-- By induction on the bytes, each of which takes up some of the room that the
word still has. -/
theorem toNat_foldl_shiftIn {bytes : List UInt8} {word : UInt64} {free : Nat}
    (fits : bytes.length ≤ free) (narrow : free ≤ 8)
    (small : word.toNat < Nat.pow 256 (8 - free)) :
    (bytes.foldl shiftIn word).toNat =
      bytes.foldl (fun value byte => value * 256 + byte.toNat) word.toNat := by
  induction bytes generalizing word free with
  | nil => rfl
  | cons byte bytes induction =>
      obtain ⟨left, rfl⟩ : ∃ left, free = left + 1 := by
        rw [List.length_cons] at fits
        exact ⟨free - 1, by omega⟩
      have step : Nat.pow 256 (8 - left) =
          Nat.pow 256 (8 - (left + 1)) * 256 := by
        have next : 8 - left = 8 - (left + 1) + 1 := by omega
        rw [next]
        rfl
      have digit := byte.toNat_lt
      have taken : (shiftIn word byte).toNat =
          word.toNat * 256 + byte.toNat := by
        apply toNat_shiftIn
        exact Nat.lt_of_lt_of_le small
          (Nat.pow_le_pow_right (by decide) (by omega))
      rw [List.foldl_cons, List.foldl_cons, ← taken]
      apply induction (Nat.le_of_succ_le_succ fits) (Nat.le_of_succ_le narrow)
      rw [taken, step]
      omega

theorem toNat_gather {bytes : List UInt8} (fits : bytes.length ≤ 8) :
    (gather bytes).toNat = decode bytes :=
  toNat_foldl_shiftIn fits (Nat.le_refl 8) (by decide)

end BigEndian

namespace Payload

variable {width : Nat} {bytes payload : List UInt8} {span : Span}

/-- The length of the longest payload, as a word of eight set bits for each byte
of the prefix. -/
def limitInWords (width : Nat) : UInt64 :=
  ((1 : UInt64) <<< UInt64.ofNat (8 * width)) - 1

theorem toNat_limitInWords (narrower : width < 8) :
    (limitInWords width).toNat = fixedLimit width := by
  have table : ∀ width < 8,
      (limitInWords width).toNat = fixedLimit width := by decide
  exact table width narrower

/-- The last bytes of the length as a whole word. -/
def prefixInWords (width length : Nat) : List UInt8 :=
  (BigEndian.encode 8 length).drop (8 - width)

theorem prefixInWords_eq (narrower : width < 8) (length : Nat) :
    prefixInWords width length = BigEndian.encode width length := by
  obtain ⟨extra, whole⟩ : ∃ extra, 8 = extra + width :=
    ⟨8 - width, by omega⟩
  have cut : 8 - width = extra := by omega
  rw [prefixInWords, cut, whole]
  exact BigEndian.drop_encode extra width length

/-- A payload and the last bytes of its length before it, unless the length is
above the limit. -/
def piecesFixedInWords (width : Nat) (payload : List UInt8) :
    Except WireError (List (List UInt8)) :=
  let limit := limitInWords width
  if limit < UInt64.ofNat payload.length then
    .error (.lengthTooLarge payload.length limit.toNat)
  else
    .ok [prefixInWords width payload.length, payload]

theorem piecesFixedInWords_eq (narrower : width < 8)
    (addressed : payload.length < Word.limit) :
    piecesFixedInWords width payload = piecesFixed width payload := by
  have counted : (UInt64.ofNat payload.length).toNat = payload.length :=
    UInt64.toNat_ofNat_of_lt' addressed
  have long : limitInWords width < UInt64.ofNat payload.length ↔
      fixedLimit width < payload.length := by
    rw [UInt64.lt_iff_toNat_lt, toNat_limitInWords narrower, counted]
  simp only [piecesFixedInWords, piecesFixed, long,
    toNat_limitInWords narrower, prefixInWords_eq narrower]

/-- Finds a payload with offsets that are words. -/
def locateFixedInWords (width : Nat) (bytes : List UInt8) :
    Except WireError Span :=
  if bytes.length < width then
    .error (.unexpectedEnd width bytes.length)
  else
    let stop := UInt64.ofNat width + BigEndian.gather (bytes.take width)
    if UInt64.ofNat bytes.length < stop then
      .error (.unexpectedEnd stop.toNat bytes.length)
    else
      .ok { start := width, stop := stop.toNat }

/-- The announced end decides, once the prefix is there. -/
theorem locateFixed_eq (width : Nat) (bytes : List UInt8) :
    locateFixed width bytes =
      let stop := width + BigEndian.decode (bytes.take width)
      if bytes.length < width then
        .error (.unexpectedEnd width bytes.length)
      else if bytes.length < stop then
        .error (.unexpectedEnd stop bytes.length)
      else
        .ok { start := width, stop } := by
  simp only [locateFixed, Span.within, length_take_lt_iff]

/-- The end of a payload behind a prefix that is narrower than a word is a
word. -/
theorem fixedStop_lt (narrower : width < 8) (bytes : List UInt8) :
    width + BigEndian.decode (bytes.take width) < Word.limit := by
  have counted := BigEndian.decode_lt (bytes.take width)
  have least : Nat.pow 256 (bytes.take width).length ≤ Nat.pow 256 7 := by
    apply Nat.pow_le_pow_right (by decide)
    rw [List.length_take]
    omega
  have room : Nat.pow 256 7 = 72057594037927936 := rfl
  have size : Word.limit = 18446744073709551616 := rfl
  omega

theorem locateFixedInWords_eq (narrower : width < 8)
    (addressed : bytes.length < Word.limit) :
    locateFixedInWords width bytes = locateFixed width bytes := by
  have word := fixedStop_lt narrower bytes
  have counted : (UInt64.ofNat bytes.length).toNat = bytes.length :=
    UInt64.toNat_ofNat_of_lt' addressed
  have start : (UInt64.ofNat width).toNat = width := by
    apply UInt64.toNat_ofNat_of_lt'
    exact Nat.lt_of_le_of_lt (Nat.le_add_right _ _) word
  have gathered : (BigEndian.gather (bytes.take width)).toNat =
      BigEndian.decode (bytes.take width) := by
    apply BigEndian.toNat_gather
    rw [List.length_take]
    omega
  have ends : (UInt64.ofNat width +
      BigEndian.gather (bytes.take width)).toNat =
        width + BigEndian.decode (bytes.take width) := by
    rw [Word.toNat_add_of_lt (by rwa [start, gathered]), start, gathered]
  have short : UInt64.ofNat bytes.length < UInt64.ofNat width +
      BigEndian.gather (bytes.take width) ↔
        bytes.length < width + BigEndian.decode (bytes.take width) := by
    rw [UInt64.lt_iff_toNat_lt, counted, ends]
  rw [locateFixed_eq]
  simp only [locateFixedInWords, short, ends]

/-- A span that was found lies in the bytes, and the prefix is the form of its
length. -/
theorem prefix_of_locatedFixed (located : locateFixed width bytes = .ok span) :
    span.start = width ∧ width ≤ span.stop ∧ span.stop ≤ bytes.length ∧
      bytes.take width = BigEndian.encode width (span.stop - width) := by
  rw [locateFixed_eq] at located
  simp only at located
  split at located
  · cases located
  · rename_i whole
    split at located
    · cases located
    · rename_i present
      cases located
      refine ⟨rfl, Nat.le_add_right _ _, Nat.le_of_not_lt present, ?_⟩
      have sized : (bytes.take width).length = width := by
        rw [List.length_take]
        omega
      have spelled := BigEndian.encode_decode (bytes.take width)
      rw [sized] at spelled
      rw [Nat.add_sub_cancel_left, spelled]

theorem locateFixed_refused_iff :
    (∃ error, locateFixed width bytes = .error error) ↔
      bytes.length < width ∨
        bytes.length < width + BigEndian.decode (bytes.take width) := by
  rw [locateFixed_eq]
  constructor
  · rintro ⟨error, refused⟩
    simp only at refused
    split at refused
    · rename_i short
      exact .inl short
    · split at refused
      · rename_i short
        exact .inr short
      · cases refused
  · intro short
    simp only
    split
    · exact ⟨_, rfl⟩
    · rename_i whole
      rw [if_pos (short.resolve_left whole)]
      exact ⟨_, rfl⟩

end Payload

end TagWire
