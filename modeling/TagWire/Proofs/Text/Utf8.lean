import TagWire.Text.Utf8

/-!
# Text reads back from its bytes

The machine takes the bytes of one character after another.  A first byte of a
long form fixes how many bytes follow and how far the second one may range; the
bounds leave out no second byte that a character has.  They do leave out every
other one, so bytes that read as a text are the bytes of this text.
-/

namespace TagWire

namespace Utf8

theorem Pending.next?_of_within {pending : Pending} {digit : Nat}
    (low : pending.low.toNat ≤ digit + 128)
    (high : digit + 128 ≤ pending.high.toNat) :
    pending.next? (UInt8.ofNat (digit + 128)) = some {
      taken := pending.taken + 1
      bits := pending.bits * 64 + digit
      owed := pending.owed - 1
      low := 0x80
      high := 0xBF } := by
  have top := pending.high.toNat_lt
  have byte : (UInt8.ofNat (digit + 128)).toNat = digit + 128 :=
    UInt8.toNat_ofNat_of_lt' (Nat.lt_of_le_of_lt high top)
  have within : pending.low ≤ UInt8.ofNat (digit + 128) ∧
      UInt8.ofNat (digit + 128) ≤ pending.high := by
    rw [UInt8.le_iff_toNat_le, UInt8.le_iff_toNat_le, byte]
    exact ⟨low, high⟩
  rw [Pending.next?, if_pos within, byte, Nat.add_sub_cancel]

theorem decodeFrom_owed {pending : Pending} {digit owed : Nat}
    (owes : pending.owed = owed + 2)
    (low : pending.low.toNat ≤ digit + 128)
    (high : digit + 128 ≤ pending.high.toNat)
    (soundLength : Nat) (read : List Char) (rest : List UInt8) :
    decodeFrom soundLength read (some pending)
        (UInt8.ofNat (digit + 128) :: rest) =
      decodeFrom soundLength read (some {
        taken := pending.taken + 1
        bits := pending.bits * 64 + digit
        owed := owed + 1
        low := 0x80
        high := 0xBF }) rest := by
  rw [decodeFrom, Pending.next?_of_within low high]
  simp only [owes, Nat.succ_ne_zero, if_false, Nat.succ_sub_one]

theorem decodeFrom_last {pending : Pending} {digit : Nat}
    (owes : pending.owed = 1)
    (low : pending.low.toNat ≤ digit + 128)
    (high : digit + 128 ≤ pending.high.toNat)
    (soundLength : Nat) (read : List Char) (rest : List UInt8) :
    decodeFrom soundLength read (some pending)
        (UInt8.ofNat (digit + 128) :: rest) =
      decodeFrom (soundLength + (pending.taken + 1))
        (Char.ofNat (pending.bits * 64 + digit) :: read) none rest := by
  rw [decodeFrom, Pending.next?_of_within low high]
  simp only [owes, Nat.sub_self, if_true]

theorem decodeFrom_lead {lead : UInt8} {pending : Pending}
    (begun : Pending.ofLead? lead = some pending)
    (owes : pending.owed ≠ 0)
    (soundLength : Nat) (read : List Char) (rest : List UInt8) :
    decodeFrom soundLength read none (lead :: rest) =
      decodeFrom soundLength read (some pending) rest := by
  rw [decodeFrom, begun]
  simp only [if_neg owes]

theorem ofLead?_two {high : Nat} (least : 2 ≤ high) (most : high < 32) :
    Pending.ofLead? (UInt8.ofNat (high + 192)) =
      some ⟨1, high, 1, 0x80, 0xBF⟩ := by
  have table : ∀ high < 32, 2 ≤ high →
      Pending.ofLead? (UInt8.ofNat (high + 192)) =
        some ⟨1, high, 1, 0x80, 0xBF⟩ := by
    decide
  exact table high most least

/-- Below the first bound the form would be over-long, and above the second it
would be a surrogate. -/
theorem ofLead?_three {high : Nat} (most : high < 16) :
    Pending.ofLead? (UInt8.ofNat (high + 224)) =
      some ⟨1, high, 2, if high = 0 then 0xA0 else 0x80,
        if high = 13 then 0x9F else 0xBF⟩ := by
  have table : ∀ high < 16,
      Pending.ofLead? (UInt8.ofNat (high + 224)) =
        some ⟨1, high, 2, if high = 0 then 0xA0 else 0x80,
          if high = 13 then 0x9F else 0xBF⟩ := by
    decide
  exact table high most

/-- Below the first bound the form would be over-long, and above the second it
would be beyond the last character. -/
theorem ofLead?_four {high : Nat} (most : high < 5) :
    Pending.ofLead? (UInt8.ofNat (high + 240)) =
      some ⟨1, high, 3, if high = 0 then 0x90 else 0x80,
        if high = 4 then 0x8F else 0xBF⟩ := by
  have table : ∀ high < 5,
      Pending.ofLead? (UInt8.ofNat (high + 240)) =
        some ⟨1, high, 3, if high = 0 then 0x90 else 0x80,
          if high = 4 then 0x8F else 0xBF⟩ := by
    decide
  exact table high most

private theorem toNat_ite (condition : Prop) [Decidable condition]
    (left right : UInt8) :
    (if condition then left else right).toNat =
      if condition then left.toNat else right.toNat := by
  split <;> rfl

theorem decodeFrom_char (character : Char) (soundLength : Nat)
    (read : List Char) (rest : List UInt8) :
    decodeFrom soundLength read none
        (String.utf8EncodeChar character ++ rest) =
      decodeFrom (soundLength + (String.utf8EncodeChar character).length)
        (character :: read) none rest := by
  have valid : character.val.toNat < 0xD800 ∨
      0xDFFF < character.val.toNat ∧ character.val.toNat < 0x110000 :=
    character.valid
  have restored : Char.ofNat character.val.toNat = character :=
    Char.ofNat_toNat character
  simp only [String.utf8EncodeChar]
  generalize character.val.toNat = code at valid restored
  split
  · rename_i one
    have lead : Pending.ofLead? (UInt8.ofNat code) =
        some ⟨1, code, 0, 0x80, 0xBF⟩ := by
      have byte : (UInt8.ofNat code).toNat = code :=
        UInt8.toNat_ofNat_of_lt' (Nat.lt_of_le_of_lt one (by decide))
      simp only [Pending.ofLead?, byte]
      rw [if_pos (by omega)]
    rw [List.cons_append, decodeFrom, lead]
    simp only [if_true, restored]
    rfl
  · split
    · have joined : code / 64 % 32 * 64 + code % 64 = code := by omega
      rw [List.cons_append, decodeFrom_lead
        (ofLead?_two (by omega) (by omega)) (Nat.succ_ne_zero _)]
      rw [List.cons_append, decodeFrom_last rfl
        (by simp only [UInt8.reduceToNat]; omega)
        (by simp only [UInt8.reduceToNat]; omega)]
      simp only [joined, restored]
      rfl
    · split
      · have joined : (code / 4096 % 16 * 64 + code / 64 % 64) * 64 +
            code % 64 = code := by omega
        rw [List.cons_append, decodeFrom_lead
          (ofLead?_three (by omega)) (Nat.succ_ne_zero _)]
        rw [List.cons_append, decodeFrom_owed rfl
          (by simp only [toNat_ite, UInt8.reduceToNat]; split <;> omega)
          (by simp only [toNat_ite, UInt8.reduceToNat]; split <;> omega)]
        rw [List.cons_append, decodeFrom_last rfl
          (by simp only [UInt8.reduceToNat]; omega)
          (by simp only [UInt8.reduceToNat]; omega)]
        simp only [joined, restored]
        rfl
      · have joined : ((code / 262144 % 8 * 64 + code / 4096 % 64) * 64 +
            code / 64 % 64) * 64 + code % 64 = code := by omega
        rw [List.cons_append, decodeFrom_lead
          (ofLead?_four (by omega)) (Nat.succ_ne_zero _)]
        rw [List.cons_append, decodeFrom_owed rfl
          (by simp only [toNat_ite, UInt8.reduceToNat]; split <;> omega)
          (by simp only [toNat_ite, UInt8.reduceToNat]; split <;> omega)]
        rw [List.cons_append, decodeFrom_owed rfl
          (by simp only [UInt8.reduceToNat]; omega)
          (by simp only [UInt8.reduceToNat]; omega)]
        rw [List.cons_append, decodeFrom_last rfl
          (by simp only [UInt8.reduceToNat]; omega)
          (by simp only [UInt8.reduceToNat]; omega)]
        simp only [joined, restored]
        rfl

theorem decodeFrom_characters (characters : List Char) (soundLength : Nat)
    (read : List Char) :
    decodeFrom soundLength read none
        (characters.flatMap String.utf8EncodeChar) =
      .ok (read.reverse ++ characters) := by
  induction characters generalizing soundLength read with
  | nil => rw [List.flatMap_nil, decodeFrom, List.append_nil]
  | cons character characters induction =>
      rw [List.flatMap_cons, decodeFrom_char, induction, List.reverse_cons,
        List.append_assoc, List.singleton_append]

theorem decode_encode (text : String) : decode (encode text) = .ok text := by
  rw [decode, encode, decodeFrom_characters]
  simp [Except.map]

theorem toNat_val_ofNat {code : Nat} (valid : code.isValidChar) :
    (Char.ofNat code).val.toNat = code := by
  rw [Char.ofNat, dif_pos valid]
  rfl

/-- A first byte stands alone, or no text has it, or it has the high digit of a
form of two, three or four bytes. -/
theorem lead_cases (lead : UInt8) :
    lead.toNat < 128 ∨ Pending.ofLead? lead = none ∨
      (∃ high < 32, 2 ≤ high ∧ lead = UInt8.ofNat (high + 192)) ∨
      (∃ high < 16, lead = UInt8.ofNat (high + 224)) ∨
      ∃ high < 5, lead = UInt8.ofNat (high + 240) := by
  have table : ∀ code < 256,
      code < 128 ∨ Pending.ofLead? (UInt8.ofNat code) = none ∨
        (∃ high < 32, 2 ≤ high ∧ UInt8.ofNat code = UInt8.ofNat (high + 192)) ∨
        (∃ high < 16, UInt8.ofNat code = UInt8.ofNat (high + 224)) ∨
        ∃ high < 5, UInt8.ofNat code = UInt8.ofNat (high + 240) := by
    decide +kernel
  simpa using table lead.toNat lead.toNat_lt

section Accepting

variable {soundLength high : Nat} {read characters : List Char}
  {bytes : List UInt8}

theorem exists_digit {pending : Pending} (least : 128 ≤ pending.low.toNat)
    (accepted : decodeFrom soundLength read (some pending) bytes =
      .ok characters) :
    ∃ digit rest, bytes = UInt8.ofNat (digit + 128) :: rest ∧
      pending.low.toNat ≤ digit + 128 ∧
        digit + 128 ≤ pending.high.toNat := by
  cases bytes with
  | nil => cases accepted
  | cons byte rest =>
      by_cases within : pending.low ≤ byte ∧ byte ≤ pending.high
      · obtain ⟨low, high⟩ := within
        rw [UInt8.le_iff_toNat_le] at low high
        have split : byte.toNat - 128 + 128 = byte.toNat := by omega
        refine ⟨byte.toNat - 128, rest, ?_, ?_, ?_⟩
        · rw [split, UInt8.ofNat_toNat]
        · rwa [split]
        · rwa [split]
      · rw [decodeFrom, Pending.next?, if_neg within] at accepted
        cases accepted

theorem exists_char_two (least : 2 ≤ high) (most : high < 32)
    (accepted : decodeFrom soundLength read none
      (UInt8.ofNat (high + 192) :: bytes) = .ok characters) :
    ∃ character rest, UInt8.ofNat (high + 192) :: bytes =
      String.utf8EncodeChar character ++ rest := by
  rw [decodeFrom_lead (ofLead?_two least most) (Nat.succ_ne_zero _)]
    at accepted
  obtain ⟨low, rest, rfl, _, below⟩ := exists_digit (Nat.le_refl _) accepted
  simp only [UInt8.reduceToNat] at below
  have code : (Char.ofNat (high * 64 + low)).val.toNat = high * 64 + low :=
    toNat_val_ofNat (.inl (by omega))
  refine ⟨Char.ofNat (high * 64 + low), rest, ?_⟩
  have first : (high * 64 + low) / 64 % 32 = high := by omega
  have last : (high * 64 + low) % 64 = low := by omega
  simp only [String.utf8EncodeChar, code, first, last]
  rw [if_neg (by omega), if_pos (by omega)]
  rfl

theorem exists_char_three (most : high < 16)
    (accepted : decodeFrom soundLength read none
      (UInt8.ofNat (high + 224) :: bytes) = .ok characters) :
    ∃ character rest, UInt8.ofNat (high + 224) :: bytes =
      String.utf8EncodeChar character ++ rest := by
  rw [decodeFrom_lead (ofLead?_three most) (Nat.succ_ne_zero _)] at accepted
  obtain ⟨middle, behind, rfl, above, below⟩ := exists_digit
    (by simp only [toNat_ite, UInt8.reduceToNat]; split <;> omega) accepted
  rw [decodeFrom_owed rfl above below] at accepted
  obtain ⟨low, rest, rfl, _, most⟩ := exists_digit (Nat.le_refl _) accepted
  simp only [toNat_ite, UInt8.reduceToNat] at above below most
  -- The bounds of the second byte leave out the over-long forms below and the
  -- surrogates above.
  obtain ⟨valid, long⟩ : ((high * 64 + middle) * 64 + low).isValidChar ∧
      2047 < (high * 64 + middle) * 64 + low := by
    simp only [Nat.isValidChar]
    split at above <;> split at below <;> omega
  have digits : middle < 64 ∧ low < 64 := by
    split at below <;> omega
  have code := toNat_val_ofNat valid
  generalize joined : (high * 64 + middle) * 64 + low = whole at *
  have first : whole / 4096 % 16 = high := by omega
  have second : whole / 64 % 64 = middle := by omega
  have third : whole % 64 = low := by omega
  refine ⟨Char.ofNat whole, rest, ?_⟩
  simp only [String.utf8EncodeChar, code, first, second, third]
  rw [if_neg (by omega), if_neg (by omega), if_pos (by omega)]
  rfl

theorem exists_char_four (most : high < 5)
    (accepted : decodeFrom soundLength read none
      (UInt8.ofNat (high + 240) :: bytes) = .ok characters) :
    ∃ character rest, UInt8.ofNat (high + 240) :: bytes =
      String.utf8EncodeChar character ++ rest := by
  rw [decodeFrom_lead (ofLead?_four most) (Nat.succ_ne_zero _)] at accepted
  obtain ⟨upper, behind, rfl, above, below⟩ := exists_digit
    (by simp only [toNat_ite, UInt8.reduceToNat]; split <;> omega) accepted
  rw [decodeFrom_owed rfl above below] at accepted
  obtain ⟨lower, behind, rfl, least, middle⟩ :=
    exists_digit (Nat.le_refl _) accepted
  rw [decodeFrom_owed rfl least middle] at accepted
  obtain ⟨low, rest, rfl, _, last⟩ := exists_digit (Nat.le_refl _) accepted
  simp only [toNat_ite, UInt8.reduceToNat] at above below middle last
  -- The bounds of the second byte leave out the over-long forms below and what
  -- is beyond the last character above.
  obtain ⟨valid, long⟩ :
      (((high * 64 + upper) * 64 + lower) * 64 + low).isValidChar ∧
        65535 < ((high * 64 + upper) * 64 + lower) * 64 + low := by
    simp only [Nat.isValidChar]
    split at above <;> split at below <;> omega
  have digits : upper < 64 ∧ lower < 64 ∧ low < 64 := by
    split at below <;> omega
  have code := toNat_val_ofNat valid
  generalize joined : ((high * 64 + upper) * 64 + lower) * 64 + low = whole
    at *
  have first : whole / 262144 % 8 = high := by omega
  have second : whole / 4096 % 64 = upper := by omega
  have third : whole / 64 % 64 = lower := by omega
  have fourth : whole % 64 = low := by omega
  refine ⟨Char.ofNat whole, rest, ?_⟩
  simp only [String.utf8EncodeChar, code, first, second, third, fourth]
  rw [if_neg (by omega), if_neg (by omega), if_neg (by omega)]
  rfl

/-- What reads as text begins with the bytes of a character. -/
theorem exists_char {lead : UInt8}
    (accepted : decodeFrom soundLength read none (lead :: bytes) =
      .ok characters) :
    ∃ character rest,
      lead :: bytes = String.utf8EncodeChar character ++ rest := by
  rcases lead_cases lead with
    alone | refused | ⟨high, most, least, rfl⟩ | ⟨high, most, rfl⟩ |
      ⟨high, most, rfl⟩
  · have code : (Char.ofNat lead.toNat).val.toNat = lead.toNat :=
      toNat_val_ofNat (.inl (by omega))
    refine ⟨Char.ofNat lead.toNat, bytes, ?_⟩
    simp only [String.utf8EncodeChar, code]
    rw [if_pos (by omega), UInt8.ofNat_toNat]
    rfl
  · rw [decodeFrom, refused] at accepted
    cases accepted
  · exact exists_char_two least most accepted
  · exact exists_char_three most accepted
  · exact exists_char_four most accepted

theorem decodeFrom_ok
    (accepted : decodeFrom soundLength read none bytes = .ok characters) :
    ∃ further, characters = read.reverse ++ further ∧
      bytes = further.flatMap String.utf8EncodeChar := by
  induction sized : bytes.length using Nat.strongRecOn
    generalizing soundLength read bytes with
  | _ size induction =>
      cases bytes with
      | nil =>
          cases accepted
          exact ⟨[], (List.append_nil _).symm, rfl⟩
      | cons lead bytes =>
          obtain ⟨character, rest, split⟩ := exists_char accepted
          have positive := character.utf8Size_pos
          rw [← String.length_utf8EncodeChar] at positive
          have shorter : rest.length < size := by
            rw [← sized, split, List.length_append]
            omega
          rw [split, decodeFrom_char] at accepted
          obtain ⟨further, whole, spelled⟩ := induction _ shorter accepted rfl
          refine ⟨character :: further, ?_, ?_⟩
          · rw [whole, List.reverse_cons, List.append_assoc,
              List.singleton_append]
          · rw [split, spelled, List.flatMap_cons]

end Accepting

theorem encode_of_decode {bytes : List UInt8} {text : String}
    (accepted : decode bytes = .ok text) : encode text = bytes := by
  rw [decode] at accepted
  cases read : decodeFrom 0 [] none bytes with
  | error fault =>
      rw [read] at accepted
      cases accepted
  | ok characters =>
      rw [read] at accepted
      cases accepted
      obtain ⟨further, rfl, rfl⟩ := decodeFrom_ok read
      rw [encode, String.toList_ofList]

theorem decode_ok_iff {bytes : List UInt8} {text : String} :
    decode bytes = .ok text ↔ encode text = bytes := by
  constructor
  · exact encode_of_decode
  · rintro rfl
    exact decode_encode text

/-- The bytes of a text are those that it is stored as. -/
theorem toByteArray_encode (text : String) :
    (encode text).toByteArray = text.toByteArray :=
  String.utf8Encode_toList

theorem length_encode (text : String) :
    (encode text).length = text.utf8ByteSize := by
  rw [String.utf8ByteSize, ← toByteArray_encode, List.size_toByteArray]

/-- Well-formed bytes are those of some text. -/
theorem isValidUTF8_iff {bytes : List UInt8} :
    bytes.toByteArray.IsValidUTF8 ↔ ∃ text, encode text = bytes := by
  constructor
  · intro valid
    refine ⟨String.ofByteArray bytes.toByteArray valid, ?_⟩
    apply List.toByteArray_inj.mp
    rw [toByteArray_encode]
  · rintro ⟨text, rfl⟩
    rw [toByteArray_encode]
    exact text.isValidUTF8

/-- The machine refuses exactly the bytes that are not well-formed. -/
theorem decode_refused_iff {bytes : List UInt8} :
    (∃ fault, decode bytes = .error fault) ↔
      ¬bytes.toByteArray.IsValidUTF8 := by
  rw [isValidUTF8_iff]
  constructor
  · rintro ⟨fault, refused⟩ ⟨text, encoded⟩
    rw [decode_ok_iff.mpr encoded] at refused
    cases refused
  · intro malformed
    cases read : decode bytes with
    | error fault => exact ⟨fault, rfl⟩
    | ok text => exact absurd ⟨text, encode_of_decode read⟩ malformed

end Utf8

end TagWire
