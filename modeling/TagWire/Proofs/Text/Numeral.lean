import TagWire.Text.Numeral

/-!
# Numerals read back

The digits of a number, most significant first, are read as this number, because
reading a last digit undoes cutting it off.  A digit is no sign, so the readers
of signed and of marked numerals come down to the same digits.
-/

namespace TagWire

theorem Hex.digitValue?_digitChar {value : Nat} (single : value < 16) :
    Hex.digitValue? value.digitChar.toNat = some value := by
  have table : ∀ value < 16,
      Hex.digitValue? (Nat.digitChar value).toNat = some value := by
    decide
  exact table value single

namespace Numeral

theorem digitsFrom?_append (radix value : Nat) (front behind : List Char) :
    digitsFrom? radix value (front ++ behind) =
      (digitsFrom? radix value front).bind fun middle =>
        digitsFrom? radix middle behind := by
  induction front generalizing value with
  | nil => rfl
  | cons char front induction =>
      simp only [List.cons_append, digitsFrom?]
      cases Hex.digitValue? char.toNat with
      | none => rfl
      | some digit =>
          by_cases inRadix : digit < radix
          · simp only [inRadix, if_true]
            exact induction (value * radix + digit)
          · simp only [inRadix, if_false, Option.bind_none]

theorem digitsFrom?_digitChar {radix digit : Nat} (value : Nat)
    (known : radix ≤ 16) (inRadix : digit < radix) :
    digitsFrom? radix value [digit.digitChar] =
      some (value * radix + digit) := by
  have single := Nat.lt_of_lt_of_le inRadix known
  simp only [digitsFrom?, Hex.digitValue?_digitChar single, inRadix, if_true]

theorem digitsFrom?_toDigits {radix : Nat} (positional : 1 < radix)
    (known : radix ≤ 16) (number : Nat) :
    digitsFrom? radix 0 (Nat.toDigits radix number) = some number := by
  induction number using Nat.base_induction radix positional with
  | single digit inRadix =>
      rw [Nat.toDigits_of_lt_base inRadix, digitsFrom?_digitChar 0 known inRadix,
        Nat.zero_mul, Nat.zero_add]
  | digit front last inRadix positive induction =>
      rw [← Nat.toDigits_append_toDigits positional positive inRadix,
        digitsFrom?_append, induction, Option.bind_some,
        Nat.toDigits_of_lt_base inRadix,
        digitsFrom?_digitChar front known inRadix, Nat.mul_comm]

theorem digits?_toDigits {radix : Nat} (positional : 1 < radix)
    (known : radix ≤ 16) (number : Nat) :
    digits? radix (Nat.toDigits radix number) = some number := by
  have read := digitsFrom?_toDigits positional known number
  cases digits : Nat.toDigits radix number with
  | nil => exact (Nat.toDigits_ne_nil digits).elim
  | cons char chars =>
      rw [digits] at read
      exact read

/-- A sign is no digit, so where digits are read there was none. -/
theorem digits?_sign {radix : Nat} {sign : Char} (chars : List Char)
    (unread : Hex.digitValue? sign.toNat = none) :
    digits? radix (sign :: chars) = none := by
  simp only [digits?, digitsFrom?, unread]

theorem natural?_of_digits {radix number : Nat} {chars : List Char}
    (read : digits? radix chars = some number) :
    natural? radix chars = some number := by
  unfold natural?
  split
  · rename_i behind
    rw [digits?_sign behind (by decide)] at read
    cases read
  · exact read

theorem integer?_of_digits {radix number : Nat} {chars : List Char}
    (read : digits? radix chars = some number) :
    integer? radix chars = some (number : Int) := by
  unfold integer?
  split
  · rename_i behind
    rw [digits?_sign behind (by decide)] at read
    cases read
  · rw [natural?_of_digits read]
    rfl

theorem toUInt64?_toNat (word : UInt64) : toUInt64? word.toNat = some word := by
  have fits : word.toNat < Word.limit := word.toNat_lt
  rw [toUInt64?, if_pos fits, UInt64.ofNat_toNat]

theorem toInt64?_toInt (word : Int64) : toInt64? word.toInt = some word := by
  have least : -(Word.signedLimit : Int) ≤ word.toInt := word.le_toInt
  have greatest : word.toInt < (Word.signedLimit : Int) := word.toInt_lt
  rw [toInt64?, if_pos ⟨least, greatest⟩, Int64.ofInt_toInt]

theorem unsignedDecimal?_unsignedDecimal (word : UInt64) :
    unsignedDecimal? (unsignedDecimal word) = some word := by
  have digits : (unsignedDecimal word).toList = Nat.toDigits 10 word.toNat :=
    Nat.toList_repr
  have read := digits?_toDigits (by decide : 1 < 10) (by decide) word.toNat
  rw [unsignedDecimal?, digits, natural?_of_digits read]
  exact toUInt64?_toNat word

theorem unsignedHex?_unsignedHex (word : UInt64) :
    unsignedHex? (unsignedHex word) = some word := by
  have digits : (unsignedHex word).toList =
      '0' :: 'x' :: Nat.toDigits 16 word.toNat := by
    simp [unsignedHex, Hex.ofNat]
  have read := digits?_toDigits (by decide : 1 < 16) (by decide) word.toNat
  rw [unsignedHex?, digits]
  simp only [afterMark?, Option.bind_eq_bind, Option.bind_some,
    natural?_of_digits read]
  exact toUInt64?_toNat word

theorem signedDecimal?_signedDecimal (word : Int64) :
    signedDecimal? (signedDecimal word) = some word := by
  have spelled : integer? 10 (signedDecimal word).toList =
      some word.toInt := by
    unfold signedDecimal
    cases value : word.toInt with
    | ofNat magnitude =>
        have digits : (toString (Int.ofNat magnitude)).toList =
            Nat.toDigits 10 magnitude := Nat.toList_repr
        have read := digits?_toDigits (by decide : 1 < 10) (by decide) magnitude
        rw [digits, integer?_of_digits read]
        rfl
    | negSucc previous =>
        have digits : (toString (Int.negSucc previous)).toList =
            '-' :: Nat.toDigits 10 (previous + 1) := by
          have shown : toString (Int.negSucc previous) =
              "-" ++ (previous + 1).repr := rfl
          rw [shown, String.toList_append, Nat.toList_repr]
          rfl
        have read :=
          digits?_toDigits (by decide : 1 < 10) (by decide) (previous + 1)
        simp only [digits, integer?, read]
        rfl
  rw [signedDecimal?, spelled]
  exact toInt64?_toInt word

/-- The magnitude of a signed word is a word, also that of the least one. -/
theorem toUInt64?_natAbs (word : Int64) :
    ∃ magnitude : UInt64, toUInt64? word.toInt.natAbs = some magnitude ∧
      magnitude.toNat = word.toInt.natAbs := by
  have least : -(Word.signedLimit : Int) ≤ word.toInt := word.le_toInt
  have greatest : word.toInt < (Word.signedLimit : Int) := word.toInt_lt
  have signed : Word.signedLimit < Word.limit := by decide
  have fits : word.toInt.natAbs < Word.limit := by omega
  exact ⟨UInt64.ofNat word.toInt.natAbs, if_pos fits,
    UInt64.toNat_ofNat_of_lt' fits⟩

theorem signedHex?_signedHex (word : Int64) :
    signedHex? (signedHex word) = some word := by
  have read := digits?_toDigits (by decide : 1 < 16) (by decide)
    word.toInt.natAbs
  have back := toInt64?_toInt word
  by_cases negative : word.toInt < 0
  · have digits : (signedHex word).toList =
        '-' :: '0' :: 'x' :: Nat.toDigits 16 word.toInt.natAbs := by
      simp [signedHex, negative, Hex.ofNat]
    obtain ⟨magnitude, fits, same⟩ := toUInt64?_natAbs word
    have value : -(magnitude.toNat : Int) = word.toInt := by
      rw [same]
      omega
    simp only [signedHex?, digits, afterMark?, Option.bind_eq_bind,
      Option.bind_some, natural?_of_digits read, fits, value, back]
  · have digits : (signedHex word).toList =
        '0' :: 'x' :: Nat.toDigits 16 word.toInt.natAbs := by
      simp [signedHex, negative, Hex.ofNat]
    have value : (word.toInt.natAbs : Int) = word.toInt :=
      Int.natAbs_of_nonneg (Int.not_lt.mp negative)
    have spelled := integer?_of_digits read
    rw [value] at spelled
    rw [signedHex?, digits]
    show (integer? 16 (Nat.toDigits 16 word.toInt.natAbs)).bind toInt64? =
      some word
    rw [spelled]
    exact back

end Numeral

end TagWire
