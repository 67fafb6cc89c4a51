import TagWire.Json.Lexer
import TagWire.Proofs.Text.Numeral

/-!
# Spellings of tokens

The lexical rules of the grammar, and that cutting a text into tokens follows
them: whatever the rules spell is read.  A string is a row of units, each of
which is spelled by itself; a number is followed by nothing that could go on
with it.
-/

namespace TagWire

namespace Json

/-! ## Strings -/

/-- How one unit stands between quotes: as the character itself, as a short
escape, or as an escaped code of four digits. -/
inductive UnitSpelling : Nat → List Char → Prop
  | plain {char : Char} (printable : 0x20 ≤ char.toNat)
      (notQuote : char ≠ '"') (notBackslash : char ≠ '\\') :
      UnitSpelling char.toNat [char]
  | short {char : Char} {unit : Nat} (known : simpleEscape? char = some unit) :
      UnitSpelling unit ['\\', char]
  | code {a b c d : Char} {unit : Nat}
      (digits : Numeral.digits? 16 [a, b, c, d] = some unit) :
      UnitSpelling unit ['\\', 'u', a, b, c, d]

/-- What stands between quotes. -/
inductive StringSpelling : List Nat → List Char → Prop
  | nil : StringSpelling [] []
  | cons {unit : Nat} {units : List Nat} {front behind : List Char}
      (first : UnitSpelling unit front)
      (others : StringSpelling units behind) :
      StringSpelling (unit :: units) (front ++ behind)

theorem stringFrom_unit {unit : Nat} {text : List Char}
    (spelling : UnitSpelling unit text) (read : List Nat) (rest : List Char) :
    stringFrom read (text ++ rest) = stringFrom (unit :: read) rest := by
  cases spelling with
  | @plain char printable notQuote notBackslash =>
      have notControl : ¬ char.toNat < 0x20 := Nat.not_lt.mpr printable
      rw [List.singleton_append, stringFrom.eq_def]
      split
      · rename_i empty
        cases empty
      · rename_i same
        cases same
        exact (notQuote rfl).elim
      · rename_i same
        cases same
        exact (notBackslash rfl).elim
      · rename_i same
        cases same
        exact (notBackslash rfl).elim
      · rename_i same
        cases same
        rw [if_neg notControl]
  | @short char unit known =>
      rw [List.cons_append, List.singleton_append, stringFrom.eq_def]
      split
      · rename_i empty
        cases empty
      · rename_i same
        cases same
      · rename_i same
        cases same
        cases known
      · rename_i same
        cases same
        rw [known]
      · rename_i notQuote notCode notShort same
        cases same
        exact (notShort _ _ rfl rfl).elim
  | @code a b c d unit digits =>
      have four : fourDigits? [a, b, c, d] = some unit := digits
      simp only [List.cons_append, List.nil_append, stringFrom, four]

theorem stringFrom_of_spelling {units : List Nat} {text : List Char}
    (spelling : StringSpelling units text) (read : List Nat)
    (rest : List Char) :
    stringFrom read (text ++ '"' :: rest) =
      some (read.reverse ++ units, rest) := by
  induction spelling generalizing read with
  | nil => simp only [List.nil_append, stringFrom, List.append_nil]
  | cons first others induction =>
      rw [List.append_assoc, stringFrom_unit first, induction,
        List.reverse_cons, List.append_assoc, List.singleton_append]

/-! ## Numbers -/

def AreDigits (digits : List Char) : Prop :=
  digits ≠ [] ∧ ∀ char ∈ digits, char.isDigit = true

/-- The digits of a number before a fraction.  A zero in front stands alone. -/
structure WholeSpelling (value : Nat) (digits : List Char) : Prop where
  areDigits : AreDigits digits
  zeroAlone : ∀ behind, digits = '0' :: behind → behind = []
  value : Numeral.digits? 10 digits = some value

inductive FractionSpelling : List Char → Prop
  | absent : FractionSpelling []
  | given {digits : List Char} (areDigits : AreDigits digits) :
      FractionSpelling ('.' :: digits)

inductive ExponentSpelling : List Char → Prop
  | absent : ExponentSpelling []
  | given {mark : Char} {sign digits : List Char}
      (marked : mark = 'e' ∨ mark = 'E')
      (signed : sign = [] ∨ sign = ['+'] ∨ sign = ['-'])
      (areDigits : AreDigits digits) :
      ExponentSpelling (mark :: (sign ++ digits))

/-- A number is written as a natural one by its digits alone. -/
inductive NumberSpelling : Option Nat → List Char → Prop
  | natural {value : Nat} {digits : List Char}
      (whole : WholeSpelling value digits) :
      NumberSpelling (some value) digits
  | scaled {value : Nat} {digits fraction exponent : List Char}
      (whole : WholeSpelling value digits)
      (fractional : FractionSpelling fraction)
      (exponential : ExponentSpelling exponent)
      (more : fraction ++ exponent ≠ []) :
      NumberSpelling none (digits ++ (fraction ++ exponent))
  | negative {value : Nat} {digits fraction exponent : List Char}
      (whole : WholeSpelling value digits)
      (fractional : FractionSpelling fraction)
      (exponential : ExponentSpelling exponent) :
      NumberSpelling none ('-' :: (digits ++ (fraction ++ exponent)))

/-- Nothing in front of the text goes on with a number. -/
def EndsNumber (text : List Char) : Prop :=
  ∀ char ∈ text.head?,
    char.isDigit = false ∧ char ≠ '.' ∧ char ≠ 'e' ∧ char ≠ 'E'

theorem digitSpan_append {digits rest : List Char}
    (allDigits : ∀ char ∈ digits, char.isDigit = true)
    (ends : ∀ char ∈ rest.head?, char.isDigit = false) :
    digitSpan (digits ++ rest) = (digits, rest) := by
  have stops : rest.takeWhile Char.isDigit = [] ∧
      rest.dropWhile Char.isDigit = rest := by
    cases rest with
    | nil => exact ⟨rfl, rfl⟩
    | cons char behind =>
        have other := ends char rfl
        simp [other]
  simp only [digitSpan, List.takeWhile_append_of_pos allDigits,
    List.dropWhile_append_of_pos allDigits, stops, List.append_nil]

theorem afterSign_append {sign digits rest : List Char}
    (signed : sign = [] ∨ sign = ['+'] ∨ sign = ['-'])
    (areDigits : AreDigits digits) :
    afterSign (sign ++ digits ++ rest) = digits ++ rest := by
  obtain ⟨some, all⟩ := areDigits
  rcases signed with rfl | rfl | rfl
  · cases digits with
    | nil => exact (some rfl).elim
    | cons char behind =>
        have digit := all char List.mem_cons_self
        rw [List.nil_append, List.cons_append, afterSign.eq_def]
        split
        · rename_i same
          cases same
          exact (Bool.false_ne_true digit).elim
        · rename_i same
          cases same
          exact (Bool.false_ne_true digit).elim
        · rfl
  · rfl
  · rfl

theorem exponentFrom_of_spelling {exponent rest : List Char}
    (spelling : ExponentSpelling exponent) (ends : EndsNumber rest) :
    exponentFrom (exponent ++ rest) = some (!exponent.isEmpty, rest) := by
  cases spelling with
  | absent =>
      cases rest with
      | nil => rfl
      | cons char behind =>
          obtain ⟨_, _, lower, upper⟩ := ends char rfl
          simp only [List.nil_append, exponentFrom, lower, upper, or_self,
            if_false]
          rfl
  | @given mark sign digits marked signed areDigits =>
      have spanned := digitSpan_append areDigits.2
        fun char head => (ends char head).1
      simp only [List.cons_append, exponentFrom, if_pos marked,
        afterSign_append signed areDigits, spanned]
      cases digits with
      | nil => exact (areDigits.1 rfl).elim
      | cons char digits => rfl

theorem fractionFrom_of_spelling {fraction rest : List Char}
    (spelling : FractionSpelling fraction)
    (ends : ∀ char ∈ rest.head?, char.isDigit = false ∧ char ≠ '.') :
    fractionFrom (fraction ++ rest) = some (!fraction.isEmpty, rest) := by
  cases spelling with
  | absent =>
      rw [List.nil_append, fractionFrom.eq_def]
      split
      · exact ((ends '.' rfl).2 rfl).elim
      · rfl
  | @given digits areDigits =>
      have spanned := digitSpan_append areDigits.2
        fun char head => (ends char head).1
      simp only [List.cons_append, fractionFrom, spanned]
      cases digits with
      | nil => exact (areDigits.1 rfl).elim
      | cons char digits => rfl

theorem ExponentSpelling.ends {exponent rest : List Char}
    (spelling : ExponentSpelling exponent) (ends : EndsNumber rest) :
    ∀ char ∈ (exponent ++ rest).head?, char.isDigit = false ∧ char ≠ '.' := by
  intro char head
  cases spelling with
  | absent =>
      obtain ⟨notDigit, notPoint, _⟩ := ends char head
      exact ⟨notDigit, notPoint⟩
  | given marked signed areDigits =>
      cases head
      rcases marked with rfl | rfl <;> decide

theorem FractionSpelling.ends {fraction rest : List Char}
    (spelling : FractionSpelling fraction)
    (ends : ∀ char ∈ rest.head?, char.isDigit = false ∧ char ≠ '.') :
    ∀ char ∈ (fraction ++ rest).head?, char.isDigit = false := by
  intro char head
  cases spelling with
  | absent => exact (ends char head).1
  | given areDigits =>
      cases head
      rfl

theorem unsignedFrom_of_spelling {value : Nat}
    {digits fraction exponent rest : List Char}
    (whole : WholeSpelling value digits)
    (fractional : FractionSpelling fraction)
    (exponential : ExponentSpelling exponent) (ends : EndsNumber rest) :
    unsignedFrom (digits ++ (fraction ++ (exponent ++ rest))) =
      some (if !fraction.isEmpty || !exponent.isEmpty then none
        else some value, rest) := by
  have behindFraction := exponential.ends ends
  have behindDigits := fractional.ends behindFraction
  have spanned := digitSpan_append whole.areDigits.2 behindDigits
  have point := fractionFrom_of_spelling fractional behindFraction
  have scale := exponentFrom_of_spelling exponential ends
  obtain ⟨⟨some, _⟩, zeroAlone, value⟩ := whole
  cases digits with
  | nil => exact (some rfl).elim
  | cons char digits =>
      by_cases zero : char = '0'
      · subst zero
        obtain rfl := zeroAlone digits rfl
        simp only [unsignedFrom, List.singleton_append, value, point, scale,
          Option.bind_eq_bind, Option.bind_some]
        rfl
      · rw [List.cons_append] at spanned ⊢
        simp only [unsignedFrom]
        split
        · rename_i same
          exact (zero (List.cons.inj same).1).elim
        · simp only [spanned, value, point, scale, Option.bind_eq_bind,
            Option.bind_some]
          rfl

/-- A digit is no minus sign. -/
theorem numberFrom_digit {char : Char} (digit : char.isDigit = true)
    (rest : List Char) :
    numberFrom (char :: rest) = unsignedFrom (char :: rest) := by
  rw [numberFrom.eq_def]
  split
  · rename_i same
    cases same
    exact (Bool.false_ne_true digit).elim
  · rfl

theorem WholeSpelling.head {value : Nat} {digits : List Char}
    (whole : WholeSpelling value digits) :
    ∃ char behind, digits = char :: behind ∧ char.isDigit = true := by
  cases digits with
  | nil => exact (whole.areDigits.1 rfl).elim
  | cons char behind =>
      exact ⟨char, behind, rfl, whole.areDigits.2 char List.mem_cons_self⟩

/-- What is read of a number, and that it begins with a digit or a minus sign. -/
theorem numberFrom_of_spelling {natural? : Option Nat} {text : List Char}
    (spelling : NumberSpelling natural? text) {rest : List Char}
    (ends : EndsNumber rest) :
    numberFrom (text ++ rest) = some (natural?, rest) ∧
      ∃ char behind, text = char :: behind ∧
        (char.isDigit = true ∨ char = '-') := by
  cases spelling with
  | @natural value _ whole =>
      obtain ⟨char, behind, rfl, digit⟩ := whole.head
      have read := unsignedFrom_of_spelling whole .absent .absent ends
      refine ⟨?_, char, behind, rfl, .inl digit⟩
      rw [List.cons_append, numberFrom_digit digit]
      exact read
  | @scaled value _ fraction exponent whole fractional exponential more =>
      obtain ⟨char, behind, rfl, digit⟩ := whole.head
      have read := unsignedFrom_of_spelling whole fractional exponential ends
      have notNatural : (!fraction.isEmpty || !exponent.isEmpty) = true := by
        cases fraction with
        | cons _ _ => rfl
        | nil =>
            cases exponent with
            | cons _ _ => rfl
            | nil => exact (more rfl).elim
      rw [notNatural, if_pos rfl] at read
      refine ⟨?_, char, behind ++ (fraction ++ exponent), rfl, .inl digit⟩
      rw [List.append_assoc, List.append_assoc, List.cons_append,
        numberFrom_digit digit]
      exact read
  | negative whole fractional exponential =>
      have read := unsignedFrom_of_spelling whole fractional exponential ends
      refine ⟨?_, '-', _, rfl, .inr rfl⟩
      rw [List.cons_append, List.append_assoc, List.append_assoc, numberFrom,
        read, Option.map_some]

/-! ## Tokens -/

inductive TokenSpelling : Token → List Char → Prop
  | leftBrace : TokenSpelling .leftBrace ['{']
  | rightBrace : TokenSpelling .rightBrace ['}']
  | leftBracket : TokenSpelling .leftBracket ['[']
  | rightBracket : TokenSpelling .rightBracket [']']
  | colon : TokenSpelling .colon [':']
  | comma : TokenSpelling .comma [',']
  | null : TokenSpelling .null ['n', 'u', 'l', 'l']
  | true : TokenSpelling (.bool true) ['t', 'r', 'u', 'e']
  | false : TokenSpelling (.bool false) ['f', 'a', 'l', 's', 'e']
  | string {units : List Nat} {text : List Char}
      (content : StringSpelling units text) :
      TokenSpelling (.string (joinHalves [] units)) ('"' :: (text ++ ['"']))
  | number {natural? : Option Nat} {text : List Char}
      (spelling : NumberSpelling natural? text) :
      TokenSpelling (.number natural?) text

/-- Tokens in their order, with blanks anywhere between them. -/
inductive TextSpelling : List Token → List Char → Prop
  | nil : TextSpelling [] []
  | blank {char : Char} {found : List Token} {behind : List Char}
      (blank : isBlank char = true) (others : TextSpelling found behind) :
      TextSpelling found (char :: behind)
  | token {token : Token} {found : List Token} {front behind : List Char}
      (first : TokenSpelling token front)
      (ends : ∀ natural?, token = .number natural? → EndsNumber behind)
      (others : TextSpelling found behind) :
      TextSpelling (token :: found) (front ++ behind)

/-- A digit or a minus sign begins no other token than a number. -/
theorem tokenFrom_number {char : Char}
    (begins : char.isDigit = true ∨ char = '-') (rest : List Char) :
    isBlank char = false ∧
      tokenFrom char rest =
        (numberFrom (char :: rest)).map fun (natural?, rest) =>
          (.number natural?, rest) := by
  rcases begins with digit | rfl
  · constructor
    · cases blank : isBlank char with
      | false => rfl
      | true =>
          simp only [isBlank, Bool.or_eq_true, decide_eq_true_eq] at blank
          obtain ((rfl | rfl) | rfl) | rfl := blank <;>
            exact (Bool.false_ne_true digit).elim
    · unfold tokenFrom
      split
      case h_11 => rfl
      all_goals exact (Bool.false_ne_true digit).elim
  · exact ⟨rfl, rfl⟩

theorem tokenFrom_of_spelling {token : Token} {text : List Char}
    (spelling : TokenSpelling token text) {rest : List Char}
    (ends : ∀ natural?, token = .number natural? → EndsNumber rest) :
    ∃ char behind, text = char :: behind ∧ isBlank char = false ∧
      tokenFrom char (behind ++ rest) = some (token, rest) := by
  cases spelling with
  | string content =>
      have read := stringFrom_of_spelling content [] rest
      refine ⟨_, _, rfl, rfl, ?_⟩
      rw [List.append_assoc, List.singleton_append]
      simp only [tokenFrom, read, Option.map_some, List.reverse_nil,
        List.nil_append]
  | @number natural? _ spelling =>
      obtain ⟨read, char, behind, rfl, begins⟩ :=
        numberFrom_of_spelling spelling (ends natural? rfl)
      obtain ⟨visible, cut⟩ := tokenFrom_number begins (behind ++ rest)
      refine ⟨char, behind, rfl, visible, ?_⟩
      rw [List.cons_append] at read
      rw [cut, read, Option.map_some]
  | _ => exact ⟨_, _, rfl, rfl, rfl⟩

theorem tokensFrom_of_spelling {found : List Token} {text : List Char}
    (spelling : TextSpelling found text) {fuel : Nat}
    (enough : text.length ≤ fuel) (read : List Token) :
    tokensFrom fuel read text = some (read.reverse ++ found) := by
  induction spelling generalizing fuel read with
  | nil => rw [tokensFrom, List.append_nil]
  | blank blank others induction =>
      cases fuel with
      | zero => exact (Nat.not_succ_le_zero _ enough).elim
      | succ fuel =>
          rw [tokensFrom, if_pos blank]
          exact induction (Nat.le_of_succ_le_succ enough) read
  | @token token found front behind first ends others induction =>
      obtain ⟨char, front, rfl, visible, cut⟩ :=
        tokenFrom_of_spelling first ends
      rw [List.cons_append] at enough ⊢
      cases fuel with
      | zero => exact (Nat.not_succ_le_zero _ enough).elim
      | succ fuel =>
          have shorter : behind.length ≤ fuel := by
            rw [List.length_cons, List.length_append] at enough
            omega
          rw [tokensFrom, visible]
          simp only [Bool.false_eq_true, if_false, cut]
          rw [induction shorter, List.reverse_cons, List.append_assoc,
            List.singleton_append]

/-- Whatever the rules spell is cut into its tokens. -/
theorem tokens_of_spelling {found : List Token} {text : List Char}
    (spelling : TextSpelling found text) : tokens text = some found :=
  tokensFrom_of_spelling spelling (Nat.le_refl _) []

end Json

end TagWire
