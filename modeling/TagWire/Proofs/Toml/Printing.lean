import TagWire.Proofs.Toml.Strings

/-!
# Written strings are spelled by the rules

Between double quotes every text can be written, since whatever may not stand for
itself is escaped.  Between single quotes nothing is, so a text is written there
only if it has no control characters, and no more quotes in a row than may stand
for themselves.
-/

namespace TagWire

namespace Toml

/-! ## Double quotes -/

theorem scalarValue?_control {char : Char}
    (control : char.toNat < 0x20 ∨ char.toNat = 0x7F) :
    scalarValue? ('0' :: '0' ::
        (Hex.byteDigits (UInt8.ofNat char.toNat)).map Char.toUpper) =
      some char := by
  have table : ∀ code < 0x20, scalarValue? ('0' :: '0' ::
      (Hex.byteDigits (UInt8.ofNat code)).map Char.toUpper) =
        some (Char.ofNat code) := by
    decide
  have last : scalarValue? ('0' :: '0' ::
      (Hex.byteDigits (UInt8.ofNat 0x7F)).map Char.toUpper) =
        some (Char.ofNat 0x7F) := by
    decide
  rcases control with low | delete
  · rw [table _ low, Char.ofNat_toNat]
  · rw [delete, last, ← delete, Char.ofNat_toNat]

theorem escapeFrom_control {char : Char}
    (control : char.toNat < 0x20 ∨ char.toNat = 0x7F) (rest : List Char) :
    escapeFrom (['u', '0', '0']
        ++ (Hex.byteDigits (UInt8.ofNat char.toNat)).map Char.toUpper
        ++ rest) =
      some (char, rest) := by
  have named := scalarValue?_control control
  simp only [Hex.byteDigits, List.map_cons, List.map_nil] at named ⊢
  simp only [escapeFrom, List.cons_append, List.nil_append, List.take_succ_cons,
    List.take_zero, List.length_cons, List.length_nil, named, Option.map_some,
    List.drop_succ_cons, List.drop_zero, if_true]

/-- Every character but a double quote is spelled by its escape, or by itself if it
has none. -/
theorem escape?_spelling (multiline : Bool) {char : Char}
    (notQuote : char ≠ '"') :
    UnitSpelling (.double multiline) char
      ((escape? multiline char).getD [char]) := by
  unfold escape?
  split
  · exact .escape rfl fun _ => rfl
  · exact .escape rfl fun _ => rfl
  · cases multiline with
    | true => exact .lineEnd rfl
    | false => exact .escape rfl fun _ => rfl
  · exact .escape rfl fun _ => rfl
  · exact .escape rfl fun _ => rfl
  · exact .escape rfl fun _ => rfl
  · rename_i notTab _ _ _ notBackslash
    by_cases control : char.toNat < 0x20 ∨ char.toNat = 0x7F
    · rw [if_pos control, Option.getD_some]
      exact .escape rfl (escapeFrom_control control)
    · rw [if_neg control, Option.getD_none]
      have printable : isPlain char = true := by
        simp only [isPlain, Bool.or_eq_true, Bool.and_eq_true, decide_eq_true_eq]
        omega
      exact .plain printable notQuote fun same => (notBackslash same).elim

theorem escaped_spelling (multiline : Bool) (quotes : Nat)
    (chars : List Char) :
    TextSpelling (.double multiline) quotes chars
      (escaped multiline quotes chars) := by
  fun_induction escaped multiline quotes chars with
  | case1 => exact .nil
  | case2 quotes rest few induction => exact .quote few.1 few.2 induction
  | case3 quotes rest many induction =>
      have escape : UnitSpelling (.double multiline) '"' ['\\', '"'] :=
        .escape rfl fun _ => rfl
      exact .unit escape induction
  | case4 quotes char rest notQuote induction =>
      exact .unit (escape?_spelling multiline notQuote) induction

/-! ## Single quotes -/

theorem le_longestRun (char : Char) (current : Nat) (chars : List Char) :
    current ≤ longestRun char current chars := by
  induction chars generalizing current with
  | nil => exact Nat.le_refl _
  | cons first rest induction =>
      unfold longestRun
      split
      · exact Nat.le_of_succ_le (induction (current + 1))
      · exact Nat.le_max_left _ _

theorem isPlain_of_not_control {char : Char} (printable : isControl char = false)
    (notEnd : char ≠ '\n') : isPlain char = true := by
  have tab : '\t'.toNat = 9 := rfl
  by_cases blank : char = '\t'
  · simp [isPlain, blank]
  · simp only [isControl, ne_eq, blank, not_false_eq_true, decide_true, notEnd,
      Bool.true_and, Bool.or_eq_false_iff, decide_eq_false_iff_not] at printable
    simp only [isPlain, Bool.or_eq_true, Bool.and_eq_true, decide_eq_true_eq]
    omega

/-- A text stands for itself between single quotes if all its characters may and no
run of quotes is too long. -/
theorem single_spelling {multiline : Bool} {quotes : Nat} {chars : List Char}
    (printable : ∀ char ∈ chars, isControl char = false)
    (lines : multiline = true ∨ '\n' ∉ chars)
    (run : longestRun '\'' quotes chars ≤ if multiline then 2 else 0) :
    TextSpelling (.single multiline) quotes chars chars := by
  induction chars generalizing quotes with
  | nil => exact .nil
  | cons char chars induction =>
      have others : ∀ {quotes : Nat},
          (longestRun '\'' quotes chars ≤ if multiline then 2 else 0) →
            TextSpelling (.single multiline) quotes chars chars :=
        induction
          (fun other member => printable other (List.mem_cons_of_mem _ member))
          (lines.imp_right fun line member =>
            line (List.mem_cons_of_mem _ member))
      unfold longestRun at run
      split at run
      · rename_i same
        have longer := le_longestRun '\'' (quotes + 1) chars
        subst same
        cases multiline with
        | true =>
            rw [if_pos rfl] at run
            exact .quote rfl (by omega) (others run)
        | false =>
            rw [if_neg Bool.false_ne_true] at run
            omega
      · rename_i notQuote
        have rest := others (Nat.le_trans (Nat.le_max_right quotes _) run)
        have unit : UnitSpelling (.single multiline) char [char] := by
          by_cases lineEnd : char = '\n'
          · subst lineEnd
            exact .lineEnd (lines.resolve_right fun line =>
              line List.mem_cons_self)
          · exact .plain (isPlain_of_not_control
              (printable char List.mem_cons_self) lineEnd) notQuote fun _ => rfl
        exact .unit unit rest

/-! ## Strings -/

theorem Traits.style_eq_literal {traits : Traits}
    (style : traits.style = .literal) :
    traits.hasControl = false ∧ traits.singleRun = 0 ∧
      traits.hasNewline = false := by
  unfold Traits.style at style
  split at style
  · cases style
  · split at style
    · rename_i fits
      simpa using fits
    · split at style
      · cases style
      · split at style
        · cases style
        · split at style <;> cases style

theorem Traits.style_eq_multilineLiteral {traits : Traits}
    (style : traits.style = .multilineLiteral) :
    traits.hasControl = false ∧ traits.singleRun ≤ 2 := by
  unfold Traits.style at style
  split at style
  · cases style
  · split at style
    · cases style
    · split at style
      · cases style
      · split at style
        · rename_i fits
          simpa using fits
        · split at style <;> cases style

theorem Traits.printable_of {chars : List Char}
    (none? : (Traits.of chars).hasControl = false) :
    ∀ char ∈ chars, isControl char = false := by
  simpa [Traits.of] using none?

/-- Nothing stands in front of the first line of a text unless it has more. -/
theorem Traits.opening_of {chars : List Char} :
    (if (Traits.of chars).hasNewline then ['\n'] else []) = ['\n'] ∨
      (if (Traits.of chars).hasNewline then ['\n'] else []) = [] ∧
        '\n' ∉ chars := by
  cases lines : (Traits.of chars).hasNewline with
  | true => exact .inl rfl
  | false =>
      refine .inr ⟨rfl, ?_⟩
      simpa [Traits.of] using lines

theorem printString_head (text : String) :
    ∃ quote behind, printString text = quote :: behind ∧
      (quote = '"' ∨ quote = '\'') := by
  unfold printString
  dsimp only
  split
  · exact ⟨_, _, rfl, .inl rfl⟩
  · exact ⟨_, _, rfl, .inr rfl⟩
  · exact ⟨_, _, rfl, .inl rfl⟩
  · exact ⟨_, _, rfl, .inr rfl⟩

/-- A text is read from the string that is written of it, in front of whatever does
not go on with quotes. -/
theorem string_printString (text : String) {rest : List Char}
    (noDouble : '"' ∉ rest.head?) (noSingle : '\'' ∉ rest.head?) :
    string (printString text ++ rest) = some (text, rest) := by
  have same : some (String.ofList text.toList, rest) = some (text, rest) := by
    rw [String.ofList_toList]
  rw [← same]
  unfold printString
  dsimp only
  cases style : (Traits.of text.toList).style with
  | basic =>
      have spelling := escaped_spelling false 0 text.toList
      have found := string_double_line spelling noDouble
      simpa using found
  | literal =>
      obtain ⟨noControl, noQuote, line⟩ := Traits.style_eq_literal style
      have spelling : TextSpelling (.single false) 0 text.toList text.toList :=
        single_spelling (Traits.printable_of noControl)
          (.inr (by simpa [Traits.of] using line)) (Nat.le_of_eq noQuote)
      have found := string_single_line spelling noSingle
      simpa using found
  | multilineBasic =>
      have spelling := escaped_spelling true 0 text.toList
      have found := stringAfter_lines (.inl rfl) rfl spelling noDouble
        Traits.opening_of
      simp only [List.append_assoc]
      exact found
  | multilineLiteral =>
      obtain ⟨noControl, fewQuotes⟩ := Traits.style_eq_multilineLiteral style
      have spelling : TextSpelling (.single true) 0 text.toList text.toList :=
        single_spelling (Traits.printable_of noControl) (.inl rfl) fewQuotes
      have found := stringAfter_lines (.inr rfl) rfl spelling noSingle
        Traits.opening_of
      simp only [List.append_assoc]
      exact found

end Toml

end TagWire
