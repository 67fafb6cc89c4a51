import TagWire.Number.Marker
import TagWire.Proofs.Number.BigEndian

/-!
# Groups behind a unary marker

A group is a big-endian number whose leading digits spell the group's own
length.  The first byte alone tells the length, whatever the payload is, and
every first byte announces some length from one to nine.
-/

namespace TagWire

namespace Marker

/-- How many payloads a group of the given length tells apart: seven bits for
each byte, and a full word behind the marker that uses up its byte. -/
def room (length : Nat) : Nat :=
  if length = 9 then Nat.pow 256 8 else Nat.pow 128 length

theorem leadingOnes_le (byte : UInt8) : leadingOnes byte ≤ 8 := by
  have counted := (List.takeWhile_sublist
    (fun bit => byte.toNat.testBit (7 - bit)) (l := List.range 8)).length_le
  simpa [leadingOnes] using counted

/-- The counted bits are set, and the bit behind them is clear. -/
theorem testBit_leadingOnes (byte : UInt8) :
    (∀ bit < leadingOnes byte, byte.toNat.testBit (7 - bit) = true) ∧
      (leadingOnes byte < 8 →
        byte.toNat.testBit (7 - leadingOnes byte) = false) := by
  have table : ∀ code < 256,
      (∀ bit < leadingOnes (UInt8.ofNat code), code.testBit (7 - bit) = true) ∧
        (leadingOnes (UInt8.ofNat code) < 8 →
          code.testBit (7 - leadingOnes (UInt8.ofNat code)) = false) := by
    decide +kernel
  simpa using table byte.toNat byte.toNat_lt

theorem le_leadingOnes_iff {count : Nat} (counted : count ≤ 8)
    (byte : UInt8) :
    count ≤ leadingOnes byte ↔
      ∀ bit < count, byte.toNat.testBit (7 - bit) = true := by
  obtain ⟨ones, behind⟩ := testBit_leadingOnes byte
  constructor
  · intro within bit early
    exact ones bit (Nat.lt_of_lt_of_le early within)
  · intro leading
    apply Nat.le_of_not_lt
    intro fewer
    have clear := behind (Nat.lt_of_lt_of_le fewer counted)
    rw [leading _ fewer] at clear
    cases clear

/-- The first bytes that announce a length are an interval. -/
theorem leadingOnes_eq_iff {length : Nat} (positive : 0 < length)
    (bounded : length ≤ 9) (byte : UInt8) :
    leadingOnes byte = length - 1 ↔
      lead length ≤ byte.toNat ∧
        (length = 9 ∨ byte.toNat < lead (length + 1)) := by
  have table : ∀ length < 10, 0 < length → ∀ code < 256,
      leadingOnes (UInt8.ofNat code) = length - 1 ↔
        lead length ≤ code ∧ (length = 9 ∨ code < lead (length + 1)) := by
    decide +kernel
  simpa using
    table length (by omega) positive byte.toNat byte.toNat_lt

/-- The payloads fill the first byte up to the next marker. -/
theorem room_eq {length : Nat} (positive : 0 < length)
    (bounded : length ≤ 9) :
    ∃ span, room length = span * Nat.pow 256 (length - 1) ∧
      lead length + span = if length = 9 then 256 else lead (length + 1) := by
  have table : ∀ length < 10, 0 < length →
      room length = (if length = 9 then 1 else Nat.pow 2 (8 - length)) *
          Nat.pow 256 (length - 1) ∧
        lead length + (if length = 9 then 1 else Nat.pow 2 (8 - length)) =
          if length = 9 then 256 else lead (length + 1) := by
    decide
  exact ⟨_, table length (by omega) positive⟩

theorem lead_le (length : Nat) : lead length ≤ 255 := by
  have positive : 0 < Nat.pow 2 (9 - length) := Nat.pow_pos (by decide)
  unfold lead
  omega

/-- Marker and payload together stay within the group. -/
theorem weight_add_lt {length payload : Nat} (positive : 0 < length)
    (bounded : length ≤ 9) (fits : payload < room length) :
    weight length + payload < Nat.pow 256 length := by
  obtain ⟨span, filled, upTo⟩ := room_eq positive bounded
  have nextLead := lead_le (length + 1)
  have spanned : lead length + span ≤ 256 := by
    rw [upTo]
    split <;> omega
  obtain ⟨width, rfl⟩ : ∃ width, length = width + 1 :=
    ⟨length - 1, by omega⟩
  calc
    weight (width + 1) + payload
        < lead (width + 1) * Nat.pow 256 width +
            span * Nat.pow 256 width := by
      rw [filled] at fits
      exact Nat.add_lt_add_left fits _
    _ = (lead (width + 1) + span) * Nat.pow 256 width :=
      (Nat.add_mul _ _ _).symm
    _ ≤ 256 * Nat.pow 256 width := Nat.mul_le_mul_right _ spanned
    _ = Nat.pow 256 (width + 1) := Nat.mul_comm _ _

/-- A group begins with the marker of its length. -/
theorem encode_eq_cons {length payload : Nat} (positive : 0 < length)
    (bounded : length ≤ 9) (fits : payload < room length) :
    ∃ first rest,
      BigEndian.encode length (weight length + payload) = first :: rest ∧
        leadingOnes first = length - 1 := by
  obtain ⟨span, filled, upTo⟩ := room_eq positive bounded
  obtain ⟨width, rfl⟩ : ∃ width, length = width + 1 :=
    ⟨length - 1, by omega⟩
  have nextLead := lead_le (width + 1 + 1)
  have positivePow : 0 < Nat.pow 256 width := Nat.pow_pos (by decide)
  have within : payload / Nat.pow 256 width < span := by
    rw [Nat.div_lt_iff_lt_mul positivePow]
    rw [filled] at fits
    exact fits
  have digit : (weight (width + 1) + payload) / Nat.pow 256 width =
      lead (width + 1) + payload / Nat.pow 256 width := by
    rw [weight, Nat.add_comm, Nat.add_sub_cancel,
      Nat.add_mul_div_right _ _ positivePow, Nat.add_comm]
  refine ⟨_, _, rfl, (leadingOnes_eq_iff positive bounded _).mpr ?_⟩
  rw [digit, UInt8.toNat_ofNat']
  generalize payload / Nat.pow 256 width = high at within
  split at upTo <;> omega

/-- Every complete group holds the marker of its length and a payload. -/
theorem decode_group {first : UInt8} {rest : List UInt8}
    (complete : rest.length = leadingOnes first) :
    weight (rest.length + 1) ≤ BigEndian.decode (first :: rest) ∧
      BigEndian.decode (first :: rest) - weight (rest.length + 1) <
        room (rest.length + 1) := by
  have announced := leadingOnes_le first
  have positive : 0 < rest.length + 1 := Nat.succ_pos _
  have bounded : rest.length + 1 ≤ 9 := by omega
  obtain ⟨leading, next⟩ :=
    (leadingOnes_eq_iff positive bounded first).mp (by omega)
  obtain ⟨span, filled, upTo⟩ := room_eq positive bounded
  have low := BigEndian.decode_lt rest
  have digit := first.toNat_lt
  have within : first.toNat + 1 ≤ lead (rest.length + 1) + span := by
    split at upTo <;> omega
  have marked : lead (rest.length + 1) * Nat.pow 256 rest.length ≤
      first.toNat * Nat.pow 256 rest.length :=
    Nat.mul_le_mul_right _ leading
  have covered := Nat.mul_le_mul_right (Nat.pow 256 rest.length) within
  rw [Nat.add_mul, Nat.add_mul, Nat.one_mul] at covered
  rw [BigEndian.decode_cons, filled, weight, Nat.add_sub_cancel]
  omega

/-- Bytes are empty, or stop inside the group that their first byte announces,
or begin with the whole group. -/
theorem cases_group (bytes : List UInt8) :
    bytes = [] ∨
      (∃ first rest, bytes = first :: rest ∧
        rest.length < leadingOnes first) ∨
      ∃ first rest trailing, bytes = first :: rest ++ trailing ∧
        rest.length = leadingOnes first := by
  cases bytes with
  | nil => exact .inl rfl
  | cons first rest =>
      by_cases short : rest.length < leadingOnes first
      · exact .inr (.inl ⟨first, rest, rfl, short⟩)
      · refine .inr (.inr ⟨first, rest.take (leadingOnes first),
          rest.drop (leadingOnes first), ?_, ?_⟩)
        · rw [List.cons_append, List.take_append_drop]
        · rw [List.length_take]
          omega

end Marker

end TagWire
