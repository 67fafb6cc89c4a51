import TagWire.Proofs.Text.Numeral

/-!
# Signs of hexadecimal numerals

A signed word in hexadecimal is said to be a mark and digits, and to have a minus
sign in front of the mark if it is below zero.  All such numerals are read.  But
what stands behind the mark is read as a numeral of its own, so it may bring a
sign once more, and with such a sign more is read than was said.
-/

namespace TagWire

/-! ## Digits -/

/-- A character is the digit of a value, as a small or a capital letter where it is
a letter. -/
def Hex.IsDigitOf (char : Char) (value : Nat) : Prop :=
  value < 16 ∧ (char = value.digitChar ∨ char = value.digitChar.toUpper)

theorem Hex.digitValue?_eq_some_iff {char : Char} {value : Nat} :
    digitValue? char.toNat = some value ↔ IsDigitOf char value := by
  constructor
  · intro read
    have small : char.toNat < 0x67 := by
      unfold digitValue? at read
      split at read
      · omega
      · split at read
        · omega
        · split at read
          · omega
          · cases read
    have table : ∀ code < 0x67, (digitValue? code).all fun value =>
        value < 16 ∧ (Char.ofNat code = value.digitChar ∨
          Char.ofNat code = value.digitChar.toUpper) := by
      decide
    have entry := table char.toNat small
    rw [read, Option.all_some, decide_eq_true_iff, Char.ofNat_toNat] at entry
    exact entry
  · rintro ⟨single, same⟩
    have table : ∀ value < 16,
        digitValue? value.digitChar.toNat = some value ∧
          digitValue? value.digitChar.toUpper.toNat = some value := by
      decide
    rcases same with rfl | rfl
    · exact (table value single).1
    · exact (table value single).2

namespace Numeral

/-- One or more digits, and the number that they spell. -/
inductive HexDigits : List Char → Nat → Prop where
  | single {char : Char} {value : Nat} (digit : Hex.IsDigitOf char value) :
      HexDigits [char] value
  | more {front : List Char} {number : Nat} {char : Char} {value : Nat}
      (spelled : HexDigits front number) (digit : Hex.IsDigitOf char value) :
      HexDigits (front ++ [char]) (16 * number + value)

theorem digits?_eq_digitsFrom? {radix : Nat} {chars : List Char}
    (some? : chars ≠ []) : digits? radix chars = digitsFrom? radix 0 chars := by
  cases chars with
  | nil => exact (some? rfl).elim
  | cons char rest => rfl

theorem digitsFrom?_single {char : Char} {value : Nat} (number : Nat)
    (digit : Hex.IsDigitOf char value) :
    digitsFrom? 16 number [char] = some (number * 16 + value) := by
  have read := Hex.digitValue?_eq_some_iff.mpr digit
  simp only [digitsFrom?, read, digit.1, if_true]

namespace HexDigits

theorem ne_nil {digits : List Char} {number : Nat}
    (spelled : HexDigits digits number) : digits ≠ [] := by
  cases spelled <;> simp

theorem digitsFrom? {digits : List Char} {number : Nat}
    (spelled : HexDigits digits number) :
    digitsFrom? 16 0 digits = some number := by
  induction spelled with
  | single digit =>
      rw [digitsFrom?_single 0 digit, Nat.zero_mul, Nat.zero_add]
  | more spelled digit induction =>
      rw [digitsFrom?_append, induction, Option.bind_some,
        digitsFrom?_single _ digit, Nat.mul_comm]

/-- Digits that go on with a number spell what is read of them all. -/
theorem append {front behind : List Char} {before number : Nat}
    (spelled : HexDigits front before)
    (read : Numeral.digitsFrom? 16 before behind = some number) :
    HexDigits (front ++ behind) number := by
  induction behind generalizing front before with
  | nil =>
      cases read
      rwa [List.append_nil]
  | cons char behind induction =>
      cases digit : Hex.digitValue? char.toNat with
      | none =>
          simp only [Numeral.digitsFrom?, digit] at read
          cases read
      | some value =>
          have isDigit := Hex.digitValue?_eq_some_iff.mp digit
          simp only [Numeral.digitsFrom?, digit, isDigit.1, if_true] at read
          rw [Nat.mul_comm] at read
          have longer := induction (spelled.more isDigit) read
          rwa [List.append_assoc, List.singleton_append] at longer

end HexDigits

theorem digits?_eq_some_iff {digits : List Char} {number : Nat} :
    digits? 16 digits = some number ↔ HexDigits digits number := by
  constructor
  · intro read
    cases digits with
    | nil => cases read
    | cons char rest =>
        cases digit : Hex.digitValue? char.toNat with
        | none =>
            simp only [digits?, digitsFrom?, digit] at read
            cases read
        | some value =>
            have isDigit := Hex.digitValue?_eq_some_iff.mp digit
            simp only [digits?, digitsFrom?, digit, isDigit.1, if_true,
              Nat.zero_mul, Nat.zero_add] at read
            exact (HexDigits.single isDigit).append read
  · intro spelled
    rw [digits?_eq_digitsFrom? spelled.ne_nil, spelled.digitsFrom?]

/-- No digits begin with a sign. -/
theorem not_hexDigits_sign {sign : Char} {rest : List Char} {number : Nat}
    (unread : Hex.digitValue? sign.toNat = none) :
    ¬HexDigits (sign :: rest) number := by
  intro spelled
  have read := digits?_eq_some_iff.mpr spelled
  rw [digits?_sign rest unread] at read
  cases read

/-! ## Signs -/

theorem natural?_eq_some_iff {chars : List Char} {number : Nat} :
    natural? 16 chars = some number ↔
      HexDigits chars number ∨
        ∃ digits, chars = '+' :: digits ∧ HexDigits digits number := by
  constructor
  · intro read
    unfold natural? at read
    split at read
    · exact .inr ⟨_, rfl, digits?_eq_some_iff.mp read⟩
    · exact .inl (digits?_eq_some_iff.mp read)
  · rintro (spelled | ⟨digits, rfl, spelled⟩)
    · exact natural?_of_digits (digits?_eq_some_iff.mpr spelled)
    · exact digits?_eq_some_iff.mpr spelled

theorem integer?_minus (radix : Nat) (chars : List Char) :
    integer? radix ('-' :: chars) =
      (digits? radix chars).map fun magnitude : Nat => -(magnitude : Int) := by
  simp only [integer?]
  cases digits? radix chars <;> rfl

theorem integer?_eq_some_iff {chars : List Char} {number : Int} :
    integer? 16 chars = some number ↔
      (∃ magnitude : Nat, natural? 16 chars = some magnitude ∧
        number = magnitude) ∨
      ∃ digits, ∃ magnitude : Nat, chars = '-' :: digits ∧
        HexDigits digits magnitude ∧ number = -magnitude := by
  constructor
  · intro read
    by_cases minus : ∃ digits, chars = '-' :: digits
    · obtain ⟨digits, rfl⟩ := minus
      rw [integer?_minus] at read
      obtain ⟨magnitude, spelled, rfl⟩ := Option.map_eq_some_iff.mp read
      exact .inr ⟨_, magnitude, rfl, digits?_eq_some_iff.mp spelled, rfl⟩
    · unfold integer? at read
      split at read
      · exact (minus ⟨_, rfl⟩).elim
      · obtain ⟨magnitude, spelled, rfl⟩ := Option.map_eq_some_iff.mp read
        exact .inl ⟨magnitude, spelled, rfl⟩
  · rintro (⟨magnitude, read, rfl⟩ | ⟨digits, magnitude, rfl, spelled, rfl⟩)
    · unfold integer?
      split
      · -- A minus sign is neither a plus sign nor a digit.
        rcases natural?_eq_some_iff.mp read with spelled | ⟨_, other, _⟩
        · exact (not_hexDigits_sign (by decide) spelled).elim
        · cases other
      · rw [read]
        rfl
    · rw [integer?_minus, digits?_eq_some_iff.mpr spelled, Option.map_some]

theorem afterMark?_eq_some_iff {chars rest : List Char} :
    afterMark? chars = some rest ↔ chars = '0' :: 'x' :: rest := by
  unfold afterMark?
  split
  · simp
  · rename_i unmarked
    constructor
    · nofun
    · rintro rfl
      exact (unmarked rest rfl).elim

/-! ## Words -/

theorem toInt64?_eq_some_iff {number : Int} {word : Int64} :
    toInt64? number = some word ↔ word.toInt = number := by
  constructor
  · unfold toInt64?
    intro read
    split at read
    · rename_i inside
      cases read
      exact Int64.toInt_ofInt_of_le inside.1 inside.2
    · cases read
  · rintro rfl
    exact toInt64?_toInt word

theorem toUInt64?_eq_some_iff {number : Nat} {word : UInt64} :
    toUInt64? number = some word ↔ word.toNat = number := by
  constructor
  · unfold toUInt64?
    intro read
    split at read
    · rename_i fits
      cases read
      exact UInt64.toNat_ofNat_of_lt' fits
    · cases read
  · rintro rfl
    exact toUInt64?_toNat word

/-! ## What is read -/

/-- A mark and digits, behind a minus sign if the number is below zero.  Below
zero there is room for one number more. -/
inductive MarkedHex : List Char → Int → Prop where
  | positive {digits : List Char} {magnitude : Nat}
      (spelled : HexDigits digits magnitude)
      (inside : magnitude < Word.signedLimit) :
      MarkedHex ('0' :: 'x' :: digits) magnitude
  | negative {digits : List Char} {magnitude : Nat}
      (spelled : HexDigits digits magnitude)
      (inside : magnitude ≤ Word.signedLimit) :
      MarkedHex ('-' :: '0' :: 'x' :: digits) (-magnitude)

/-- The same with a sign behind the mark, which is a plus sign if there is a minus
sign in front of it. -/
inductive SignedBehindMark : List Char → Int → Prop where
  | plus {digits : List Char} {magnitude : Nat}
      (spelled : HexDigits digits magnitude)
      (inside : magnitude < Word.signedLimit) :
      SignedBehindMark ('0' :: 'x' :: '+' :: digits) magnitude
  | minus {digits : List Char} {magnitude : Nat}
      (spelled : HexDigits digits magnitude)
      (inside : magnitude ≤ Word.signedLimit) :
      SignedBehindMark ('0' :: 'x' :: '-' :: digits) (-magnitude)
  | minusPlus {digits : List Char} {magnitude : Nat}
      (spelled : HexDigits digits magnitude)
      (inside : magnitude ≤ Word.signedLimit) :
      SignedBehindMark ('-' :: '0' :: 'x' :: '+' :: digits) (-magnitude)

theorem natAbs_of_negated {word : Int64} {magnitude : Nat}
    (value : word.toInt = -magnitude) : word.toInt.natAbs = magnitude := by
  rw [value, Int.natAbs_neg, Int.natAbs_natCast]

/-- Behind a minus sign the magnitude is read as a word, which it is for every
signed word. -/
theorem signedHex?_eq_some_iff {text : String} {word : Int64} :
    signedHex? text = some word ↔
      (∃ digits, text.toList = '0' :: 'x' :: digits ∧
        integer? 16 digits = some word.toInt) ∨
      ∃ digits, ∃ magnitude : Nat,
        text.toList = '-' :: '0' :: 'x' :: digits ∧
          natural? 16 digits = some magnitude ∧ word.toInt = -magnitude := by
  unfold signedHex?
  split
  · rename_i chars minus
    simp only [minus, Option.bind_eq_bind, Option.bind_eq_some_iff,
      afterMark?_eq_some_iff, toUInt64?_eq_some_iff, toInt64?_eq_some_iff]
    constructor
    · rintro ⟨magnitude, ⟨number, ⟨digits, rfl, read⟩, rfl⟩, value⟩
      exact .inr ⟨digits, _, rfl, read, value⟩
    · rintro (⟨_, other, _⟩ | ⟨digits, number, same, read, value⟩)
      · cases other
      · obtain ⟨magnitude, _, fits⟩ := toUInt64?_natAbs word
        rw [natAbs_of_negated value] at fits
        refine ⟨magnitude, ⟨number, ⟨digits, ?_, read⟩, fits⟩, ?_⟩
        · exact (List.cons.inj same).2
        · rw [fits, value]
  · rename_i chars unsigned
    simp only [Option.bind_eq_bind, Option.bind_eq_some_iff,
      afterMark?_eq_some_iff, toInt64?_eq_some_iff]
    constructor
    · rintro ⟨number, ⟨digits, marked, read⟩, rfl⟩
      exact .inl ⟨digits, marked, read⟩
    · rintro (⟨digits, marked, read⟩ | ⟨_, _, minus, _⟩)
      · exact ⟨_, ⟨digits, marked, read⟩, rfl⟩
      · exact (unsigned _ minus).elim

/-- What is read is a mark and digits behind a sign, or has a sign behind the
mark. -/
theorem signedHex?_eq_some_iff_marked {text : String} {word : Int64} :
    signedHex? text = some word ↔
      MarkedHex text.toList word.toInt ∨
        SignedBehindMark text.toList word.toInt := by
  have least : -(Word.signedLimit : Int) ≤ word.toInt := word.le_toInt
  have greatest : word.toInt < Word.signedLimit := word.toInt_lt
  rw [signedHex?_eq_some_iff]
  generalize text.toList = chars, word.toInt = number at least greatest ⊢
  constructor
  · rintro (⟨digits, rfl, read⟩ | ⟨digits, magnitude, rfl, read, rfl⟩)
    · rcases integer?_eq_some_iff.mp read with
        ⟨magnitude, unsigned, rfl⟩ | ⟨digits, magnitude, rfl, spelled, rfl⟩
      · have inside : magnitude < Word.signedLimit := by omega
        rcases natural?_eq_some_iff.mp unsigned with
          spelled | ⟨digits, rfl, spelled⟩
        · exact .inl (.positive spelled inside)
        · exact .inr (.plus spelled inside)
      · exact .inr (.minus spelled (by omega))
    · have inside : magnitude ≤ Word.signedLimit := by omega
      rcases natural?_eq_some_iff.mp read with spelled | ⟨digits, rfl, spelled⟩
      · exact .inl (.negative spelled inside)
      · exact .inr (.minusPlus spelled inside)
  · have plain : ∀ {digits : List Char} {magnitude : Nat},
        HexDigits digits magnitude → natural? 16 digits = some magnitude :=
      fun spelled => natural?_eq_some_iff.mpr (.inl spelled)
    have plus : ∀ {digits : List Char} {magnitude : Nat},
        HexDigits digits magnitude →
          natural? 16 ('+' :: digits) = some magnitude :=
      fun spelled => natural?_eq_some_iff.mpr (.inr ⟨_, rfl, spelled⟩)
    rintro (documented | again)
    · cases documented with
      | positive spelled inside =>
          refine .inl ⟨_, rfl, integer?_eq_some_iff.mpr ?_⟩
          exact .inl ⟨_, plain spelled, rfl⟩
      | negative spelled inside =>
          exact .inr ⟨_, _, rfl, plain spelled, rfl⟩
    · cases again with
      | plus spelled inside =>
          refine .inl ⟨_, rfl, integer?_eq_some_iff.mpr ?_⟩
          exact .inl ⟨_, plus spelled, rfl⟩
      | minus spelled inside =>
          refine .inl ⟨_, rfl, integer?_eq_some_iff.mpr ?_⟩
          exact .inr ⟨_, _, rfl, spelled, rfl⟩
      | minusPlus spelled inside =>
          exact .inr ⟨_, _, rfl, plus spelled, rfl⟩

theorem MarkedHex.inside {chars : List Char} {number : Int}
    (marked : MarkedHex chars number) :
    -(Word.signedLimit : Int) ≤ number ∧ number < Word.signedLimit := by
  cases marked with
  | positive spelled inside => omega
  | negative spelled inside =>
      have room : 0 < Word.signedLimit := by decide
      omega

theorem SignedBehindMark.inside {chars : List Char} {number : Int}
    (again : SignedBehindMark chars number) :
    -(Word.signedLimit : Int) ≤ number ∧ number < Word.signedLimit := by
  have room : 0 < Word.signedLimit := by decide
  cases again with
  | plus spelled inside => omega
  | minus spelled inside => omega
  | minusPlus spelled inside => omega

theorem SignedBehindMark.not_marked {chars : List Char} {number other : Int}
    (again : SignedBehindMark chars number) : ¬MarkedHex chars other := by
  intro marked
  cases again with
  | plus =>
      cases marked with
      | positive spelled => exact not_hexDigits_sign (by decide) spelled
  | minus =>
      cases marked with
      | positive spelled => exact not_hexDigits_sign (by decide) spelled
  | minusPlus =>
      cases marked with
      | negative spelled => exact not_hexDigits_sign (by decide) spelled

theorem signedHex?_map_eq_some_iff {text : String} {number : Int} :
    (signedHex? text).map Int64.toInt = some number ↔
      MarkedHex text.toList number ∨ SignedBehindMark text.toList number := by
  constructor
  · intro read
    obtain ⟨word, spelled, rfl⟩ := Option.map_eq_some_iff.mp read
    exact signedHex?_eq_some_iff_marked.mp spelled
  · intro spelled
    have inside := spelled.elim MarkedHex.inside SignedBehindMark.inside
    have same : (Int64.ofInt number).toInt = number :=
      Int64.toInt_ofInt_of_le inside.1 inside.2
    rw [← same] at spelled
    exact Option.map_eq_some_iff.mpr
      ⟨_, signedHex?_eq_some_iff_marked.mpr spelled, same⟩

/-- A text is read as a signed word exactly if it is a mark and one or more digits,
with a minus sign in front if need be, of a number with room in the word, or if
it is such a numeral with a sign behind the mark.  So just what was said is read,
except of the texts that have this sign. -/
theorem signed_hex_read_iff_marked_or_signed_behind (text : String) :
    (∀ number, (signedHex? text).map Int64.toInt = some number ↔
      MarkedHex text.toList number ∨
        SignedBehindMark text.toList number) ∧
    ((∀ number, (signedHex? text).map Int64.toInt = some number ↔
        MarkedHex text.toList number) ↔
      ∀ number, ¬SignedBehindMark text.toList number) := by
  refine ⟨fun _ => signedHex?_map_eq_some_iff, ?_⟩
  constructor
  · intro said number again
    have read := signedHex?_map_eq_some_iff.mpr (.inr again)
    exact again.not_marked ((said number).mp read)
  · intro never number
    rw [signedHex?_map_eq_some_iff, or_iff_left (never number)]

/-- Five is read from a numeral with a plus sign behind its mark, and the number
opposite from one with a minus sign there. -/
theorem sign_behind_mark_read :
    signedHex? "0x+5" = some 5 ∧ signedHex? "0x-5" = some (-5) ∧
      ¬∀ text number, (signedHex? text).map Int64.toInt = some number ↔
        MarkedHex text.toList number := by
  have plus : signedHex? "0x+5" = some 5 := by decide
  have minus : signedHex? "0x-5" = some (-5) := by decide
  have five : HexDigits ['5'] 5 := .single ⟨by decide, by decide⟩
  have again : SignedBehindMark "0x+5".toList 5 := .plus five (by decide)
  refine ⟨plus, minus, ?_⟩
  intro said
  have marked := (said "0x+5" 5).mp (congrArg (Option.map Int64.toInt) plus)
  exact again.not_marked marked

end Numeral

end TagWire
