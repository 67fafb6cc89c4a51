import TagWire.Json.Printer
import TagWire.Proofs.Json.Grammar

/-!
# Written objects are in the grammar

What is written of a text, a number or an object is spelled by the rules of the
grammar, in front of anything that does not go on with a number.  No character
is half of a surrogate pair, so the units of a string join to the very text.
-/

namespace TagWire

namespace Json

/-! ## Strings -/

theorem digits?_control {code : Nat} (control : code < 0x20) :
    Numeral.digits? 16 ('0' :: '0' :: Hex.byteDigits (UInt8.ofNat code)) =
      some code := by
  have table : ∀ code < 0x20,
      Numeral.digits? 16 ('0' :: '0' :: Hex.byteDigits (UInt8.ofNat code)) =
        some code := by
    decide
  exact table code control

theorem escape_spelling (char : Char) :
    UnitSpelling char.toNat (escape char) := by
  unfold escape
  split
  · exact .short rfl
  · exact .short rfl
  · exact .short rfl
  · exact .short rfl
  · exact .short rfl
  · exact .short rfl
  · exact .short rfl
  · rename_i notQuote notBackslash _ _ _ _ _
    by_cases control : char.toNat < 0x20
    · rw [if_pos control]
      exact .code (digits?_control control)
    · rw [if_neg control]
      exact .plain (Nat.not_lt.mp control) notQuote notBackslash

theorem escapes_spelling (chars : List Char) :
    StringSpelling (chars.map Char.toNat) (chars.flatMap escape) := by
  induction chars with
  | nil => exact .nil
  | cons char chars induction => exact .cons (escape_spelling char) induction

/-- No character is half of a surrogate pair. -/
theorem not_half (char : Char) :
    ¬(0xD800 ≤ char.toNat ∧ char.toNat < 0xE000) := by
  intro half
  have code : char.val.toNat = char.toNat := rfl
  rcases char.valid with below | ⟨above, _⟩
  · have bound : char.val.toNat < 0xD800 := below
    omega
  · have bound : 0xDFFF < char.val.toNat := above
    omega

theorem joinHalves_points (chars read : List Char) :
    joinHalves read (chars.map Char.toNat) =
      some (String.ofList (read.reverse ++ chars)) := by
  induction chars generalizing read with
  | nil => rw [List.map_nil, joinHalves, List.append_nil]
  | cons char chars induction =>
      have whole := not_half char
      cases chars with
      | nil =>
          simp only [List.map_cons, List.map_nil, joinHalves, whole, if_false,
            Char.ofNat_toNat, List.reverse_cons]
      | cons next chars =>
          have notHigh : ¬(0xD800 ≤ char.toNat ∧ char.toNat < 0xDC00) := by
            omega
          have notLow : ¬(0xDC00 ≤ char.toNat ∧ char.toNat < 0xE000) := by
            omega
          have rest := induction (char :: read)
          simp only [List.map_cons, List.reverse_cons, List.append_assoc,
            List.singleton_append] at rest ⊢
          simp only [joinHalves, notHigh, notLow, if_false, Char.ofNat_toNat,
            rest]

theorem quote_spelling (content : String) :
    TokenSpelling (.string (some content)) (quote content) := by
  have joined := joinHalves_points content.toList []
  rw [List.reverse_nil, List.nil_append, String.ofList_toList] at joined
  rw [← joined]
  exact .string (escapes_spelling content.toList)

/-! ## Numbers -/

/-- Only zero is written with a zero in front. -/
theorem toDigits_head {number : Nat} {digits : List Char}
    (written : Nat.toDigits 10 number = '0' :: digits) : digits = [] := by
  induction number using Nat.base_induction 10 (by decide) generalizing digits with
  | single digit inRadix =>
      rw [Nat.toDigits_of_lt_base inRadix] at written
      exact (List.cons.inj written).2.symm
  | digit front last inRadix positive induction =>
      rw [← Nat.toDigits_append_toDigits (by decide) positive inRadix,
        Nat.toDigits_of_lt_base inRadix] at written
      cases shape : Nat.toDigits 10 front with
      | nil => exact (Nat.toDigits_ne_nil shape).elim
      | cons char chars =>
          rw [shape, List.cons_append] at written
          obtain ⟨rfl, rfl⟩ := List.cons.inj written
          -- The front would be zero.
          have nothing := induction shape
          have value := Numeral.digits?_toDigits (by decide : 1 < 10)
            (by decide) front
          rw [shape, nothing] at value
          cases value
          exact (Nat.lt_irrefl 0 positive).elim

theorem toDigits_spelling (number : Nat) :
    NumberSpelling (some number) (Nat.toDigits 10 number) := by
  have allDigits : ∀ char ∈ Nat.toDigits 10 number, char.isDigit = true :=
    fun _ member => Nat.isDigit_of_mem_toDigits (by decide) (by decide) member
  exact .natural {
    areDigits := ⟨Nat.toDigits_ne_nil, allDigits⟩
    zeroAlone := fun _ written => toDigits_head written
    value := Numeral.digits?_toDigits (by decide) (by decide) number }

/-! ## Values in front of other text -/

theorem EndsNumber.cons {char : Char} (other : char.isDigit = false)
    (notPoint : char ≠ '.') (notLower : char ≠ 'e') (notUpper : char ≠ 'E')
    (behind : List Char) : EndsNumber (char :: behind) := by
  rintro _ ⟨⟩
  exact ⟨other, notPoint, notLower, notUpper⟩

theorem EndsNumber.comma (behind : List Char) : EndsNumber (',' :: behind) :=
  .cons rfl (by decide) (by decide) (by decide) behind

theorem EndsNumber.rightBrace (behind : List Char) :
    EndsNumber ('}' :: behind) :=
  .cons rfl (by decide) (by decide) (by decide) behind

theorem EndsNumber.lineEnd (behind : List Char) :
    EndsNumber ('\n' :: behind) :=
  .cons rfl (by decide) (by decide) (by decide) behind

/-- The text is cut into these tokens in front of whatever does not go on with a
number. -/
def Cuts (text : List Char) (found : List Token) : Prop :=
  ∀ {others : List Token} {rest : List Char},
    EndsNumber rest → TextSpelling others rest →
      TextSpelling (found ++ others) (text ++ rest)

/-- The text spells the value in front of whatever does not go on with a number. -/
def Writes (text : List Char) (value : Value) : Prop :=
  ∃ found, ValueTokens value found ∧ Cuts text found

theorem TextSpelling.sign {token : Token} {text : List Char}
    (spelling : TokenSpelling token text)
    (notNumber : ∀ natural?, token ≠ .number natural?) {others : List Token}
    {rest : List Char} (behind : TextSpelling others rest) :
    TextSpelling (token :: others) (text ++ rest) :=
  .token spelling (fun natural? same => (notNumber natural? same).elim) behind

theorem TextSpelling.blanks {chars : List Char}
    (blank : ∀ char ∈ chars, isBlank char = true) {others : List Token}
    {rest : List Char} (behind : TextSpelling others rest) :
    TextSpelling others (chars ++ rest) := by
  induction chars with
  | nil => exact behind
  | cons char chars induction =>
      have spelled := induction fun other member =>
        blank other (List.mem_cons_of_mem _ member)
      exact .blank (blank char List.mem_cons_self) spelled

/-- What a scalar says. -/
def Scalar.value : Scalar → Value
  | text content => .string (some content)
  | natural number => .number (some number)

theorem Scalar.print_writes (scalar : Scalar) :
    Writes scalar.print scalar.value := by
  cases scalar with
  | text content =>
      refine ⟨_, .string (some content), ?_⟩
      intro others rest _ behind
      exact .sign (quote_spelling content) nofun behind
  | natural number =>
      refine ⟨_, .number (some number), ?_⟩
      intro others rest ends behind
      exact .token (.number (toDigits_spelling number)) (fun _ _ => ends) behind

/-! ## Objects -/

/-- What an object with these members says. -/
def objectValue (members : List (String × Scalar)) : Value :=
  .object (members.map fun member => (some member.1, member.2.value))

/-- One member stands before a comma or before the end. -/
theorem printMember_cuts (member : String × Scalar) :
    ∃ found, ValueTokens member.2.value found ∧
      Cuts (printMember member) (.string (some member.1) :: .colon :: found) := by
  obtain ⟨found, written, cuts⟩ := member.2.print_writes
  refine ⟨found, written, ?_⟩
  intro others rest ends behind
  have value := cuts ends behind
  have colon := TextSpelling.sign .colon nofun value
  have key := TextSpelling.sign (quote_spelling member.1) nofun colon
  rw [printMember, List.append_assoc]
  exact key

theorem printMembers_cuts (member : String × Scalar)
    (members : List (String × Scalar)) :
    ∃ found,
      MemberTokens ((member :: members).map fun member =>
        (some member.1, member.2.value)) found ∧
      Cuts ([','].intercalate ((member :: members).map printMember)) found := by
  induction members generalizing member with
  | nil =>
      obtain ⟨found, written, cuts⟩ := printMember_cuts member
      refine ⟨_, .last _ written, ?_⟩
      rw [List.map_singleton, List.intercalate_singleton]
      exact cuts
  | cons next members induction =>
      obtain ⟨front, written, cuts⟩ := printMember_cuts member
      obtain ⟨behind, writtenBehind, cutsBehind⟩ := induction next
      refine ⟨_, .more _ written writtenBehind, ?_⟩
      intro others rest ends spelled
      have comma := TextSpelling.sign .comma nofun (cutsBehind ends spelled)
      have whole := cuts (.comma _) comma
      simpa only [List.map_cons, List.intercalate_cons_cons, List.cons_append,
        List.append_assoc, List.append_eq, List.nil_append] using whole

theorem printObject_writes (members : List (String × Scalar)) :
    Writes (printObject members) (objectValue members) := by
  cases members with
  | nil =>
      refine ⟨_, .emptyObject, ?_⟩
      intro others rest _ behind
      exact .sign .leftBrace nofun (.sign .rightBrace nofun behind)
  | cons member members =>
      obtain ⟨found, written, cuts⟩ := printMembers_cuts member members
      refine ⟨_, .object written, ?_⟩
      intro others rest _ behind
      have closed := TextSpelling.sign .rightBrace nofun behind
      have inside := cuts (.rightBrace rest) closed
      have whole := TextSpelling.sign .leftBrace nofun inside
      simpa only [printObject, List.cons_append, List.append_assoc,
        List.nil_append] using whole

/-! ## Lines -/

theorem not_mem_escape (char : Char) : '\n' ∉ escape char := by
  unfold escape
  split
  case h_8 =>
    rename_i notFeed _ _
    by_cases control : char.toNat < 0x20
    · have table : ∀ code < 0x20, '\n' ∉
          ['\\', 'u', '0', '0'] ++ Hex.byteDigits (UInt8.ofNat code) := by
        decide
      rw [if_pos control]
      exact table _ control
    · rw [if_neg control]
      intro member
      exact notFeed (List.mem_singleton.mp member).symm
  all_goals decide

theorem not_mem_quote (content : String) : '\n' ∉ quote content := by
  intro member
  rcases List.mem_cons.mp member with same | member
  · cases same
  · rcases List.mem_append.mp member with escaped | closing
    · obtain ⟨char, _, inside⟩ := List.mem_flatMap.mp escaped
      exact not_mem_escape char inside
    · cases List.mem_singleton.mp closing

theorem Scalar.not_mem_print (scalar : Scalar) : '\n' ∉ scalar.print := by
  cases scalar with
  | text content => exact not_mem_quote content
  | natural number =>
      intro member
      have digit : '\n'.isDigit = true :=
        Nat.isDigit_of_mem_toDigits (by decide) (by decide) member
      exact Bool.false_ne_true digit

theorem not_mem_printMember (member : String × Scalar) :
    '\n' ∉ printMember member := by
  intro inside
  rcases List.mem_append.mp inside with key | behind
  · exact not_mem_quote member.1 key
  · rcases List.mem_cons.mp behind with same | value
    · cases same
    · exact member.2.not_mem_print value

/-- An object is written on one line. -/
theorem not_mem_printObject (members : List (String × Scalar)) :
    '\n' ∉ printObject members := by
  have inside : '\n' ∉ [','].intercalate (members.map printMember) := by
    induction members with
    | nil => exact List.not_mem_nil
    | cons member members induction =>
        cases members with
        | nil =>
            rw [List.map_singleton, List.intercalate_singleton]
            exact not_mem_printMember member
        | cons next members =>
            rw [List.map_cons, List.map_cons, List.intercalate_cons_cons]
            intro found
            rcases List.mem_append.mp found with first | others
            · rcases List.mem_append.mp first with printed | comma
              · exact not_mem_printMember member printed
              · cases List.mem_singleton.mp comma
            · exact induction others
  intro found
  rcases List.mem_cons.mp found with same | found
  · cases same
  · rcases List.mem_append.mp found with printed | closing
    · exact inside printed
    · cases List.mem_singleton.mp closing

end Json

end TagWire
