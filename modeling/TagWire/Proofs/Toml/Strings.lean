import TagWire.Proofs.Text.Numeral
import TagWire.Toml.Printer
import TagWire.Toml.Scalar

/-!
# Strings of TOML are read back

What stands between the delimiters of a string is a row of units, each of which is
spelled by itself, and of quotes that stand for themselves.  There are at most
two such quotes in a row, and only in a string over several lines, so the
delimiter behind them is found.  A string is written by these rules in whatever
way its characters ask for.
-/

namespace TagWire

namespace Toml

/-! ## What stands in a string -/

/-- How one character stands between the delimiters: as itself, as the end of a
line, or as an escape that is read whatever follows it. -/
inductive UnitSpelling (delimiter : Delimiter) : Char → List Char → Prop where
  | plain {char : Char} (printable : isPlain char = true)
      (notQuote : char ≠ delimiter.quote)
      (notEscape : char = '\\' → delimiter.literal = true) :
      UnitSpelling delimiter char [char]
  | lineEnd (multiline : delimiter.multiline = true) :
      UnitSpelling delimiter '\n' ['\n']
  | escape {char : Char} {code : List Char}
      (escapes : delimiter.literal = false)
      (named : ∀ rest, escapeFrom (code ++ rest) = some (char, rest)) :
      UnitSpelling delimiter char ('\\' :: code)

/-- What stands between the delimiters behind some quotes in a row that stand for
themselves. -/
inductive TextSpelling (delimiter : Delimiter) :
    (quotes : Nat) → List Char → List Char → Prop where
  | nil {quotes : Nat} : TextSpelling delimiter quotes [] []
  | unit {quotes : Nat} {char : Char} {chars front behind : List Char}
      (first : UnitSpelling delimiter char front)
      (others : TextSpelling delimiter 0 chars behind) :
      TextSpelling delimiter quotes (char :: chars) (front ++ behind)
  | quote {quotes : Nat} {chars behind : List Char}
      (multiline : delimiter.multiline = true) (few : quotes < 2)
      (others : TextSpelling delimiter (quotes + 1) chars behind) :
      TextSpelling delimiter quotes (delimiter.quote :: chars)
        (delimiter.quote :: behind)

/-- Double quotes stand around a text with escapes. -/
def Delimiter.double (multiline : Bool) : Delimiter :=
  { quote := '"', multiline, literal := false }

/-- Single quotes stand around a text without. -/
def Delimiter.single (multiline : Bool) : Delimiter :=
  { quote := '\'', multiline, literal := true }

/-- The characters that may delimit strings. -/
def Delimiter.IsQuoted (delimiter : Delimiter) : Prop :=
  delimiter.quote = '"' ∨ delimiter.quote = '\''

section Reading

variable {delimiter : Delimiter} {fuel quotes : Nat} {char : Char}
  {chars front text read rest : List Char}

theorem Delimiter.IsQuoted.ne {other : Char} (quoted : delimiter.IsQuoted)
    (double : other ≠ '"') (single : other ≠ '\'') :
    other ≠ delimiter.quote := by
  rcases quoted with same | same
  · rwa [same]
  · rwa [same]

/-! ## Reading units -/

/-- No escape is the end of a line. -/
theorem afterLineEnd?_of_escapeFrom {found : Char × List Char}
    (named : escapeFrom chars = some found) : afterLineEnd? chars = none := by
  unfold escapeFrom at named
  split at named
  case h_10 => cases named
  all_goals rfl

theorem stringFrom_unit (quoted : delimiter.IsQuoted)
    (spelling : UnitSpelling delimiter char front) :
    stringFrom delimiter (fuel + 1) read (front ++ rest) =
      stringFrom delimiter fuel (char :: read) rest := by
  cases spelling with
  | plain printable notQuote notEscape =>
      have unescaped : ¬(char = '\\' ∧ ¬delimiter.literal = true) := by
        rintro ⟨same, escapes⟩
        exact escapes (notEscape same)
      rw [List.singleton_append, stringFrom, if_neg notQuote,
        if_neg unescaped, if_pos printable]
  | lineEnd multiline =>
      have notQuote : '\n' ≠ delimiter.quote :=
        quoted.ne (by decide) (by decide)
      rw [List.singleton_append, stringFrom, if_neg notQuote,
        if_neg (by simp), if_neg (by decide), if_pos multiline]
      rfl
  | @escape _ code escapes named =>
      have notQuote : '\\' ≠ delimiter.quote :=
        quoted.ne (by decide) (by decide)
      have notEnd := afterLineEnd?_of_escapeFrom (named rest)
      have unended : (if delimiter.multiline = true then
          afterLineEnd? (code ++ rest) else none) = none := by
        rw [notEnd, ite_self]
      rw [List.cons_append, stringFrom, if_neg notQuote,
        if_pos ⟨rfl, by simp [escapes]⟩, unended, named]

theorem UnitSpelling.head (quoted : delimiter.IsQuoted)
    (spelling : UnitSpelling delimiter char front) :
    ∃ first behind, front = first :: behind ∧ first ≠ delimiter.quote := by
  cases spelling with
  | plain printable notQuote notEscape => exact ⟨_, _, rfl, notQuote⟩
  | lineEnd multiline => exact ⟨_, _, rfl, quoted.ne (by decide) (by decide)⟩
  | escape escapes named =>
      exact ⟨_, _, rfl, quoted.ne (by decide) (by decide)⟩

/-! ## Reading quotes -/

/-- Where a string over several lines goes on with quotes, all quotes in a row are
looked at together. -/
theorem stringFrom_run (multiline : delimiter.multiline = true)
    (ends : delimiter.quote ∉ rest.head?) :
    stringFrom delimiter (fuel + 1) read
        (List.replicate (quotes + 1) delimiter.quote ++ rest) =
      if quotes + 1 < 3 then
        stringFrom delimiter fuel
          (List.replicate (quotes + 1) delimiter.quote ++ read) rest
      else
        some ((List.replicate (min (quotes + 1) 5 - 3) delimiter.quote ++
            read).reverse,
          List.replicate (quotes + 1 - 5) delimiter.quote ++ rest) := by
  have stops : rest.takeWhile (· = delimiter.quote) = [] := by
    cases rest with
    | nil => rfl
    | cons char behind =>
        have other : char ≠ delimiter.quote := fun same => ends (by simp [same])
        simp [other]
  have run : (delimiter.quote ::
        (List.replicate quotes delimiter.quote ++ rest)).takeWhile
          (· = delimiter.quote) =
      delimiter.quote :: List.replicate quotes delimiter.quote := by
    rw [← List.cons_append, List.takeWhile_append_of_pos (by simp), stops,
      List.append_nil]
  rw [List.replicate_succ, List.cons_append, stringFrom, if_pos rfl,
    if_pos multiline]
  dsimp only
  have whole : delimiter.quote ::
      (List.replicate quotes delimiter.quote ++ rest) =
        List.replicate (quotes + 1) delimiter.quote ++ rest := rfl
  have dropped : (List.replicate (quotes + 1) delimiter.quote ++ rest).drop
      (quotes + 1) = rest := List.drop_left' List.length_replicate
  have inside : min (quotes + 1) 5 ≤
      (List.replicate (quotes + 1) delimiter.quote).length := by
    rw [List.length_replicate]
    exact Nat.min_le_left _ _
  rw [run, whole, ← List.replicate_succ, List.length_replicate, dropped,
    List.take_replicate, List.drop_append_of_le_length inside,
    List.drop_replicate]
  have taken : min (min (quotes + 1) 5 - 3) (quotes + 1) =
      min (quotes + 1) 5 - 3 := by omega
  have behind : quotes + 1 - min (quotes + 1) 5 = quotes + 1 - 5 := by omega
  rw [taken, behind]

/-- One or two quotes that no third one follows stand for themselves. -/
theorem stringFrom_quotes (multiline : delimiter.multiline = true)
    (few : quotes ≤ 2) (enough : quotes ≤ fuel) (read : List Char)
    (ends : delimiter.quote ∉ rest.head?) :
    ∃ left, fuel ≤ left + quotes ∧
      stringFrom delimiter fuel read
          (List.replicate quotes delimiter.quote ++ rest) =
        stringFrom delimiter left
          (List.replicate quotes delimiter.quote ++ read) rest := by
  cases quotes with
  | zero => exact ⟨fuel, Nat.le_refl _, rfl⟩
  | succ more =>
      obtain ⟨left, rfl⟩ : ∃ left, fuel = left + 1 := ⟨fuel - 1, by omega⟩
      refine ⟨left, by omega, ?_⟩
      rw [stringFrom_run multiline ends, if_pos (by omega)]

/-- The last three quotes in a row delimit the string, and those before them stand
for themselves. -/
theorem stringFrom_close (multiline : delimiter.multiline = true)
    (few : quotes ≤ 2) (ends : delimiter.quote ∉ rest.head?) :
    stringFrom delimiter (fuel + 1) read
        (List.replicate (quotes + 3) delimiter.quote ++ rest) =
      some (read.reverse ++ List.replicate quotes delimiter.quote, rest) := by
  have whole : min (quotes + 3) 5 - 3 = quotes := by omega
  have none? : quotes + 3 - 5 = 0 := by omega
  rw [stringFrom_run multiline ends, if_neg (by omega), whole, none?,
    List.reverse_append, List.reverse_replicate]
  rfl

/-! ## Reading what is spelled -/

theorem stringFrom_line (quoted : delimiter.IsQuoted)
    (line : delimiter.multiline = false)
    (spelling : TextSpelling delimiter quotes chars text)
    (enough : text.length < fuel) :
    stringFrom delimiter fuel read (text ++ delimiter.quote :: rest) =
      some (read.reverse ++ chars, rest) := by
  induction spelling generalizing fuel read with
  | nil =>
      obtain ⟨left, rfl⟩ : ∃ left, fuel = left + 1 := ⟨fuel - 1, by omega⟩
      rw [List.nil_append, stringFrom, if_pos rfl, if_neg (by simp [line]),
        List.append_nil]
  | @unit quotes char chars front behind first others induction =>
      obtain ⟨start, more, rfl, _⟩ := first.head quoted
      rw [List.length_append, List.length_cons] at enough
      obtain ⟨left, rfl⟩ : ∃ left, fuel = left + 1 := ⟨fuel - 1, by omega⟩
      rw [List.append_assoc, stringFrom_unit quoted first,
        induction (by omega), List.reverse_cons, List.append_assoc,
        List.singleton_append]
  | quote multiline few others induction =>
      rw [line] at multiline
      cases multiline

/-- Over several lines the quotes before the text are still to be read. -/
theorem stringFrom_lines (quoted : delimiter.IsQuoted)
    (multiline : delimiter.multiline = true)
    (spelling : TextSpelling delimiter quotes chars text)
    (few : quotes ≤ 2) (enough : quotes + text.length < fuel)
    (ends : delimiter.quote ∉ rest.head?) :
    stringFrom delimiter fuel read
        (List.replicate quotes delimiter.quote ++
          (text ++ (List.replicate 3 delimiter.quote ++ rest))) =
      some (read.reverse ++
        (List.replicate quotes delimiter.quote ++ chars), rest) := by
  induction spelling generalizing fuel read with
  | @nil quotes =>
      obtain ⟨left, rfl⟩ : ∃ left, fuel = left + 1 := ⟨fuel - 1, by omega⟩
      rw [List.nil_append, ← List.append_assoc, List.replicate_append_replicate,
        stringFrom_close multiline few ends, List.append_nil]
  | @unit quotes char chars front behind first others induction =>
      obtain ⟨start, more, rfl, other⟩ := first.head quoted
      rw [List.length_append, List.length_cons] at enough
      have stops : delimiter.quote ∉ ((start :: more) ++ (behind ++
          (List.replicate 3 delimiter.quote ++ rest))).head? := by
        simpa using other
      obtain ⟨left, remains, same⟩ :=
        stringFrom_quotes multiline few (by omega : quotes ≤ fuel) read stops
      obtain ⟨last, rfl⟩ : ∃ last, left = last + 1 := ⟨left - 1, by omega⟩
      have unquoted := @induction last
        (char :: (List.replicate quotes delimiter.quote ++ read))
        (by omega) (by omega)
      rw [List.replicate_zero, List.nil_append, List.nil_append] at unquoted
      rw [List.append_assoc, same, stringFrom_unit quoted first, unquoted,
        List.reverse_cons, List.reverse_append, List.reverse_replicate]
      simp only [List.append_assoc, List.singleton_append]
  | @quote quotes chars behind _ fewer others induction =>
      rw [List.length_cons] at enough
      have more := @induction fuel read (by omega) (by omega)
      rw [List.replicate_succ', List.append_assoc, List.append_assoc] at more
      exact more

theorem stringAfter_line (quoted : delimiter.IsQuoted)
    (line : delimiter.multiline = false)
    (spelling : TextSpelling delimiter quotes chars text) :
    stringAfter delimiter (text ++ delimiter.quote :: rest) =
      some (String.ofList chars, rest) := by
  have enough : text.length < (text ++ delimiter.quote :: rest).length := by
    rw [List.length_append, List.length_cons]
    omega
  have found : stringFrom delimiter (text ++ delimiter.quote :: rest).length []
      (text ++ delimiter.quote :: rest) = some (chars, rest) :=
    stringFrom_line quoted line spelling enough
  simp only [stringAfter, line, Bool.false_eq_true, if_false, found,
    Option.map_some]

/-- A text on one line does not begin with the end of a line. -/
theorem TextSpelling.afterNewline?_eq_none (quoted : delimiter.IsQuoted)
    (spelling : TextSpelling delimiter quotes chars text)
    (line : '\n' ∉ chars) (behind : List Char) :
    afterNewline? (text ++ delimiter.quote :: behind) = none := by
  have starts : ∀ {first : Char} {more : List Char}, first ≠ '\n' →
      first ≠ '\r' → afterNewline? (first :: more) = none := by
    intro first more notFeed notReturn
    unfold afterNewline?
    split
    · rename_i same
      exact (notFeed (List.cons.inj same).1).elim
    · rename_i same
      exact (notReturn (List.cons.inj same).1).elim
    · rfl
  have quote : ∀ {more : List Char},
      afterNewline? (delimiter.quote :: more) = none :=
    starts (quoted.ne (by decide) (by decide)).symm
      (quoted.ne (by decide) (by decide)).symm
  cases spelling with
  | nil => exact quote
  | unit first others =>
      cases first with
      | plain printable notQuote notEscape =>
          refine starts ?_ ?_
          · rintro rfl
            exact line List.mem_cons_self
          · rintro rfl
            exact Bool.false_ne_true printable
      | lineEnd multiline => exact (line List.mem_cons_self).elim
      | escape escapes named => exact starts (by decide) (by decide)
  | quote multiline few others => exact quote

/-- The first line of a string over several lines may stay empty, and has to if the
text begins with the end of a line. -/
theorem stringAfter_lines (quoted : delimiter.IsQuoted)
    (multiline : delimiter.multiline = true)
    (spelling : TextSpelling delimiter 0 chars text)
    (ends : delimiter.quote ∉ rest.head?) {opening : List Char}
    (opens : opening = ['\n'] ∨ opening = [] ∧ '\n' ∉ chars) :
    stringAfter delimiter
        (opening ++ (text ++ (List.replicate 3 delimiter.quote ++ rest))) =
      some (String.ofList chars, rest) := by
  let body := text ++ (List.replicate 3 delimiter.quote ++ rest)
  have opened : (afterNewline? (opening ++ body)).getD (opening ++ body) =
      body := by
    rcases opens with rfl | ⟨rfl, line⟩
    · rfl
    · have unopened := spelling.afterNewline?_eq_none quoted line
        (List.replicate 2 delimiter.quote ++ rest)
      exact congrArg (·.getD body) unopened
  have enough : 0 + text.length < body.length := by
    simp only [body, List.length_append, List.length_replicate]
    omega
  have found : stringFrom delimiter body.length [] body =
      some (chars, rest) :=
    stringFrom_lines quoted multiline spelling (by omega) enough ends
  simp only [stringAfter, multiline, if_true, body] at opened found ⊢
  rw [opened, found]
  rfl

/-- Three quotes in a row begin no string on one line. -/
theorem TextSpelling.not_quotes (quoted : delimiter.IsQuoted)
    (line : delimiter.multiline = false)
    (spelling : TextSpelling delimiter quotes chars text)
    (ends : delimiter.quote ∉ rest.head?) (behind : List Char) :
    text ++ delimiter.quote :: rest ≠
      delimiter.quote :: delimiter.quote :: behind := by
  intro same
  cases spelling with
  | nil =>
      rw [List.nil_append] at same
      cases (List.cons.inj same).2
      exact ends rfl
  | unit first others =>
      obtain ⟨start, more, rfl, other⟩ := first.head quoted
      exact other (List.cons.inj same).1
  | quote multiline few others =>
      rw [line] at multiline
      cases multiline

theorem string_double_line
    (spelling : TextSpelling (.double false) quotes chars text)
    (ends : '"' ∉ rest.head?) :
    string ('"' :: (text ++ '"' :: rest)) =
      some (String.ofList chars, rest) := by
  have notThree := spelling.not_quotes (.inl rfl) rfl ends
  unfold string
  split
  · rename_i same
    exact (notThree _ (List.cons.inj same).2).elim
  · rename_i same
    cases (List.cons.inj same).1
  · exact stringAfter_line (.inl rfl) rfl spelling

theorem string_single_line
    (spelling : TextSpelling (.single false) quotes chars text)
    (ends : '\'' ∉ rest.head?) :
    string ('\'' :: (text ++ '\'' :: rest)) =
      some (String.ofList chars, rest) := by
  have notThree := spelling.not_quotes (.inr rfl) rfl ends
  unfold string
  split
  · rename_i same
    cases (List.cons.inj same).1
  · rename_i same
    exact (notThree _ (List.cons.inj same).2).elim
  · exact stringAfter_line (.inr rfl) rfl spelling

end Reading

end Toml

end TagWire
