import TagWire.Proofs.Toml.Printing
import TagWire.Toml.Document

/-!
# Documents of settings are read back

A document may be made of lines that each give a value to a bare key.  If every
value is read from its text up to the end of the line, and no key is given twice,
the document is read as the table of these keys and values.  Strings and arrays
of strings are such values.
-/

namespace TagWire

namespace Toml

variable {rest : List Char}

/-! ## Strings -/

/-- What follows does not go on with the quotes of a string. -/
def EndsString (rest : List Char) : Prop :=
  '"' ∉ rest.head? ∧ '\'' ∉ rest.head?

theorem EndsString.cons {char : Char} (double : char ≠ '"')
    (single : char ≠ '\'') (rest : List Char) : EndsString (char :: rest) :=
  ⟨by simpa using double, by simpa using single⟩

theorem valueFrom_string {quote : Char} (quoted : quote = '"' ∨ quote = '\'')
    (fuel room : Nat) (chars : List Char) :
    valueFrom (fuel + 1) room (quote :: chars) =
      (string (quote :: chars)).map fun (text, rest) => (.text text, rest) := by
  rcases quoted with rfl | rfl
  · cases room <;> rfl
  · cases room <;> rfl

theorem valueFrom_printString (fuel room : Nat) (text : String)
    (ends : EndsString rest) :
    valueFrom (fuel + 1) room (printString text ++ rest) =
      some (.text text, rest) := by
  have found := string_printString text ends.1 ends.2
  obtain ⟨quote, behind, printed, quoted⟩ := printString_head text
  rw [printed, List.cons_append] at found ⊢
  rw [valueFrom_string quoted, found, Option.map_some]

theorem skipVoid_printString (text : String) (rest : List Char) :
    skipVoid false (printString text ++ rest) = printString text ++ rest := by
  obtain ⟨quote, behind, printed, quoted⟩ := printString_head text
  rw [printed, List.cons_append]
  rcases quoted with rfl | rfl
  · rfl
  · rfl

/-! ## Arrays -/

/-- An element on a line of its own. -/
def printElement (text : String) : List Char :=
  "    ".toList ++ printString text ++ [',', '\n']

theorem elementsFrom_close (fuel room : Nat) (read : List Value)
    (rest : List Char) :
    elementsFrom (fuel + 1) room read (']' :: rest) =
      some (.array read.reverse, rest) := rfl

theorem elementsFrom_lineEnd (fuel room : Nat) (read : List Value)
    (rest : List Char) :
    elementsFrom fuel room read ('\n' :: rest) =
      elementsFrom fuel room read rest := by
  cases fuel with
  | zero => rw [elementsFrom, elementsFrom]
  | succ fuel => rw [elementsFrom, elementsFrom, skipVoid]

theorem printString_ne_bracket (text : String) (rest behind : List Char) :
    printString text ++ rest ≠ ']' :: behind := by
  obtain ⟨quote, inside, printed, quoted⟩ := printString_head text
  rw [printed, List.cons_append]
  intro same
  have bracket := (List.cons.inj same).1
  rcases quoted with rfl | rfl
  · cases bracket
  · cases bracket

section Elements

variable {fuel room : Nat} {read : List Value} {chars : List Char}
  {text : String}

theorem elementsFrom_comma
    (there : skipVoid false chars = printString text ++ ',' :: rest) :
    elementsFrom (fuel + 2) room read chars =
      elementsFrom (fuel + 1) room (.text text :: read) rest := by
  have found := valueFrom_printString fuel room text
    (.cons (by decide) (by decide) rest : EndsString (',' :: rest))
  rw [elementsFrom, there]
  split
  · rename_i same
    exact (printString_ne_bracket text _ _ same).elim
  · rw [found]
    rfl

theorem elementsFrom_last
    (there : skipVoid false chars = printString text ++ ']' :: rest) :
    elementsFrom (fuel + 2) room read chars =
      some (.array (.text text :: read).reverse, rest) := by
  have found := valueFrom_printString fuel room text
    (.cons (by decide) (by decide) rest : EndsString (']' :: rest))
  rw [elementsFrom, there]
  split
  · rename_i same
    exact (printString_ne_bracket text _ _ same).elim
  · rw [found]
    rfl

end Elements

theorem elementsFrom_printElement (fuel room : Nat) (read : List Value)
    (text : String) (rest : List Char) :
    elementsFrom (fuel + 2) room read (printElement text ++ rest) =
      elementsFrom (fuel + 1) room (.text text :: read) rest := by
  have there : skipVoid false (printElement text ++ rest) =
      printString text ++ ',' :: '\n' :: rest := by
    rw [printElement, List.append_assoc, List.append_assoc]
    exact skipVoid_printString text (',' :: '\n' :: rest)
  rw [elementsFrom_comma there, elementsFrom_lineEnd]

theorem elementsFrom_printElements (texts : List String) {fuel : Nat}
    (enough : texts.length < fuel) (room : Nat) (read : List Value)
    (rest : List Char) :
    elementsFrom fuel room read (texts.flatMap printElement ++ ']' :: rest) =
      some (.array (read.reverse ++ texts.map .text), rest) := by
  -- Each element takes one unit of fuel away; the string in it needs a second
  -- one, which is still there for what follows.
  induction texts generalizing fuel read with
  | nil =>
      obtain ⟨left, rfl⟩ : ∃ left, fuel = left + 1 := ⟨fuel - 1, by omega⟩
      rw [List.flatMap_nil, List.nil_append, elementsFrom_close, List.map_nil,
        List.append_nil]
  | cons text texts induction =>
      rw [List.length_cons] at enough
      obtain ⟨left, rfl⟩ : ∃ left, fuel = left + 2 := ⟨fuel - 2, by omega⟩
      rw [List.flatMap_cons, List.append_assoc, elementsFrom_printElement,
        induction (by omega), List.reverse_cons, List.append_assoc,
        List.singleton_append, List.map_cons]

theorem length_le_printElements (texts : List String) :
    texts.length ≤ (texts.flatMap printElement).length := by
  induction texts with
  | nil => exact Nat.le_refl _
  | cons text texts induction =>
      rw [List.flatMap_cons, List.length_append, List.length_cons]
      have some? : 1 ≤ (printElement text).length := by
        simp only [printElement, List.length_append, List.length_cons]
        omega
      omega

/-- An array has fuel for twice as many elements as it has characters. -/
theorem value_array {chars : List Char} {content : Value}
    (found : ∀ fuel room, chars.length < fuel →
      elementsFrom fuel room [] chars = some (content, rest)) :
    value ('[' :: chars) = some (content, rest) := by
  have opened : value ('[' :: chars) =
      elementsFrom (2 * (chars.length + 1)) 78 [] chars := rfl
  rw [opened]
  exact found _ _ (by omega)

/-! ## Values -/

/-- The text is read as the value where it ends a line. -/
structure Writes (text : List Char) (content : Value) : Prop where
  starts : ∀ char ∈ text.head?, isBlank char = false
  reads : ∀ rest, value (text ++ '\n' :: rest) = some (content, '\n' :: rest)

theorem Writes.starts_line {text : List Char} {content : Value}
    (writes : Writes text content) (rest : List Char) :
    ∀ char ∈ (text ++ '\n' :: rest).head?, isBlank char = false := by
  intro char starts
  cases text with
  | nil =>
      cases starts
      rfl
  | cons first behind => exact writes.starts char starts

theorem printString_writes (text : String) :
    Writes (printString text) (.text text) where
  starts := by
    intro char starts
    obtain ⟨quote, behind, printed, quoted⟩ := printString_head text
    rw [printed] at starts
    cases starts
    rcases quoted with rfl | rfl <;> rfl
  reads := fun rest =>
    valueFrom_printString _ _ _ (.cons (by decide) (by decide) rest)

theorem printArray_starts (texts : List String) :
    ∃ behind, printArray texts = '[' :: behind := by
  unfold printArray
  split <;> exact ⟨_, rfl⟩

theorem printArray_single (text : String) (rest : List Char) :
    printArray [text] ++ rest = '[' :: (printString text ++ ']' :: rest) := by
  simp [printArray]

theorem printArray_many (first second : String) (texts : List String)
    (rest : List Char) :
    printArray (first :: second :: texts) ++ rest =
      '[' :: '\n' ::
        ((first :: second :: texts).flatMap printElement ++ ']' :: rest) := by
  have lines : printArray (first :: second :: texts) =
      '[' :: '\n' ::
        ((first :: second :: texts).flatMap printElement ++ [']']) := rfl
  rw [lines, List.cons_append, List.cons_append, List.append_assoc,
    List.singleton_append]

theorem value_printArray (texts : List String) (rest : List Char) :
    value (printArray texts ++ rest) = some (.array (texts.map .text), rest) := by
  rcases texts with _ | ⟨text, _ | ⟨second, texts⟩⟩
  · rfl
  · rw [printArray_single]
    refine value_array fun fuel room enough => ?_
    rw [List.length_append, List.length_cons] at enough
    obtain ⟨left, rfl⟩ : ∃ left, fuel = left + 2 := ⟨fuel - 2, by omega⟩
    exact elementsFrom_last (skipVoid_printString text (']' :: rest))
  · rw [printArray_many]
    refine value_array fun fuel room enough => ?_
    have counted := length_le_printElements (text :: second :: texts)
    rw [List.length_cons, List.length_append] at enough
    rw [elementsFrom_lineEnd, elementsFrom_printElements _ (by omega)]
    rfl

theorem printArray_writes (texts : List String) :
    Writes (printArray texts) (.array (texts.map .text)) where
  starts := by
    intro char starts
    obtain ⟨behind, printed⟩ := printArray_starts texts
    rw [printed] at starts
    cases starts
    rfl
  reads := fun rest => value_printArray texts ('\n' :: rest)

/-! ## Lines -/

/-- A key that is written without quotes. -/
structure IsBare (key : String) : Prop where
  some? : key.toList ≠ []
  chars : key.toList.all isKeyChar = true

/-- A line that gives a value to a key. -/
structure Line where
  key : String
  text : List Char
  content : Value
  bare : IsBare key
  writes : Writes text content

namespace Line

variable (line : Line)

def print : List Char := printSetting line.key line.text

def statement : Statement := .setting [line.key] line.content

def entry : String × Value := (line.key, line.content)

/-- A line that gives a string. -/
def ofText (key : String) (bare : IsBare key) (text : String) : Line :=
  { key, bare
    text := printString text
    content := .text text
    writes := printString_writes text }

/-- A line that gives an array of strings. -/
def ofTexts (key : String) (bare : IsBare key) (texts : List String) : Line :=
  { key, bare
    text := printArray texts
    content := .array (texts.map .text)
    writes := printArray_writes texts }

end Line

theorem skipBlanks_of_starts {chars : List Char}
    (starts : ∀ char ∈ chars.head?, isBlank char = false) :
    skipBlanks chars = chars := by
  cases chars with
  | nil => rfl
  | cons char chars =>
      have dark := starts char rfl
      simp [skipBlanks, dark]

theorem IsBare.starts {key : String} (bare : IsBare key) :
    ∃ first behind, key.toList = first :: behind ∧ isKeyChar first = true := by
  cases named : key.toList with
  | nil => exact (bare.some? named).elim
  | cons first behind =>
      refine ⟨first, behind, rfl, List.all_eq_true.mp bare.chars first ?_⟩
      exact named ▸ List.mem_cons_self

theorem ne_of_isKeyChar {char other : Char} (inKey : isKeyChar char = true)
    (special : isKeyChar other = false) : char ≠ other := by
  rintro rfl
  rw [inKey] at special
  cases special

theorem not_isBlank_of_isKeyChar {char : Char}
    (inKey : isKeyChar char = true) : isBlank char = false := by
  simp [isBlank, ne_of_isKeyChar inKey (rfl : isKeyChar ' ' = false),
    ne_of_isKeyChar inKey (rfl : isKeyChar '\t' = false)]

theorem keyPart_bare {key : String} (bare : IsBare key) (rest : List Char) :
    keyPart (key.toList ++ ' ' :: rest) = some (key, ' ' :: rest) := by
  have taken : (key.toList ++ ' ' :: rest).takeWhile isKeyChar =
      key.toList := by
    rw [List.takeWhile_append_of_pos (List.all_eq_true.mp bare.chars)]
    have stops : (' ' :: rest).takeWhile isKeyChar = [] := rfl
    rw [stops, List.append_nil]
  unfold keyPart
  rw [taken]
  split
  · rename_i none?
    exact (bare.some? none?).elim
  · rw [List.drop_left, String.ofList_toList]

theorem key_bare {name : String} (bare : IsBare name) (rest : List Char) :
    key (name.toList ++ ' ' :: '=' :: rest) = some ([name], '=' :: rest) := by
  obtain ⟨first, behind, named, inKey⟩ := bare.starts
  have there : skipBlanks (name.toList ++ ' ' :: '=' :: rest) =
      name.toList ++ ' ' :: '=' :: rest := by
    refine skipBlanks_of_starts fun char starts => ?_
    rw [named] at starts
    cases starts
    exact not_isBlank_of_isKeyChar inKey
  have parts : key (name.toList ++ ' ' :: '=' :: rest) =
      keyPartsFrom (78 + 1) (name.toList ++ ' ' :: '=' :: rest) := rfl
  rw [parts, keyPartsFrom, there, keyPart_bare bare]
  rfl

namespace Line

variable (line : Line)

theorem print_append (rest : List Char) :
    line.print ++ rest =
      line.key.toList ++ ' ' :: '=' :: ' ' :: (line.text ++ '\n' :: rest) := by
  simp [print, printSetting]

theorem print_starts :
    ∃ first behind, line.print = first :: behind ∧ isKeyChar first = true := by
  obtain ⟨first, behind, named, inKey⟩ := line.bare.starts
  exact ⟨first, _, congrArg (· ++ " = ".toList ++ line.text ++ ['\n']) named,
    inKey⟩

theorem statement_print (rest : List Char) :
    Toml.statement (line.print ++ rest) =
      some (line.statement, '\n' :: rest) := by
  obtain ⟨first, behind, printed, inKey⟩ := line.print_starts
  have notHeader : first ≠ '[' := ne_of_isKeyChar inKey rfl
  have named := key_bare line.bare (' ' :: (line.text ++ '\n' :: rest))
  rw [← print_append] at named
  have there : skipBlanks (' ' :: (line.text ++ '\n' :: rest)) =
      line.text ++ '\n' :: rest :=
    skipBlanks_of_starts (line.writes.starts_line rest)
  have found := line.writes.reads rest
  unfold Toml.statement
  split
  · rename_i same
    rw [printed] at same
    exact (notHeader (List.cons.inj same).1).elim
  · rename_i same
    rw [printed] at same
    exact (notHeader (List.cons.inj same).1).elim
  · rw [named]
    simp only [Option.bind_eq_bind, Option.bind_some, after?, if_true, there,
      found]
    rfl

end Line

theorem statementsFrom_line (line : Line) (fuel : Nat)
    (read : List Statement) (rest : List Char) :
    statementsFrom (fuel + 1) read (line.print ++ rest) =
      statementsFrom fuel (line.statement :: read) rest := by
  have stated := line.statement_print rest
  obtain ⟨first, behind, printed, inKey⟩ := line.print_starts
  have starts : ¬(first = '#' ∨ first = '\n' ∨ first = '\r') := by
    simp [ne_of_isKeyChar inKey (rfl : isKeyChar '#' = false),
      ne_of_isKeyChar inKey (rfl : isKeyChar '\n' = false),
      ne_of_isKeyChar inKey (rfl : isKeyChar '\r' = false)]
  rw [printed, List.cons_append] at stated ⊢
  have there : skipBlanks (first :: (behind ++ rest)) =
      first :: (behind ++ rest) := by
    simp [skipBlanks, not_isBlank_of_isKeyChar inKey]
  rw [statementsFrom, there]
  dsimp only
  rw [if_neg starts, stated]
  rfl

theorem statementsFrom_lines (lines : List Line) {fuel : Nat}
    (enough : lines.length < fuel) (read : List Statement) :
    statementsFrom fuel read (lines.flatMap Line.print) =
      some (read.reverse ++ lines.map Line.statement) := by
  induction lines generalizing fuel read with
  | nil =>
      obtain ⟨left, rfl⟩ : ∃ left, fuel = left + 1 := ⟨fuel - 1, by omega⟩
      rw [List.map_nil, List.append_nil]
      rfl
  | cons line lines induction =>
      rw [List.length_cons] at enough
      obtain ⟨left, rfl⟩ : ∃ left, fuel = left + 1 := ⟨fuel - 1, by omega⟩
      rw [List.flatMap_cons, statementsFrom_line, induction (by omega),
        List.reverse_cons, List.append_assoc, List.singleton_append,
        List.map_cons]

theorem length_le_lines (lines : List Line) :
    lines.length ≤ (lines.flatMap Line.print).length := by
  induction lines with
  | nil => exact Nat.le_refl _
  | cons line lines induction =>
      obtain ⟨first, behind, printed, _⟩ := line.print_starts
      rw [List.flatMap_cons, List.length_append, List.length_cons, printed,
        List.length_cons]
      omega

theorem statements_lines (lines : List Line) :
    statements (lines.flatMap Line.print) =
      some (lines.map Line.statement) := by
  have counted := length_le_lines lines
  have unmarked : ∀ behind, lines.flatMap Line.print ≠ '\uFEFF' :: behind := by
    intro behind same
    cases lines with
    | nil => cases same
    | cons line lines =>
        obtain ⟨first, inside, printed, inKey⟩ := line.print_starts
        rw [List.flatMap_cons, printed] at same
        exact ne_of_isKeyChar inKey rfl (List.cons.inj same).1
  unfold statements
  split
  · rename_i same
    exact (unmarked _ same).elim
  · rw [statementsFrom_lines lines (by omega)]
    rfl

/-! ## Tables -/

theorem get?_eq_none_iff {entries : Entries} {key : String} :
    entries.get? key = none ↔ key ∉ entries.map Prod.fst := by
  rw [Entries.get?, Option.map_eq_none_iff, List.find?_eq_none, List.mem_map]
  constructor
  · rintro absent ⟨entry, member, named⟩
    exact absent entry member (beq_iff_eq.mpr named)
  · intro absent entry member named
    exact absent ⟨entry, member, beq_iff_eq.mp named⟩

theorem get?_of_mem {entries : Entries} {key : String} {content : Value}
    (distinct : (entries.map Prod.fst).Nodup)
    (member : (key, content) ∈ entries) : entries.get? key = some content := by
  induction entries with
  | nil => cases member
  | cons entry entries induction =>
      rw [List.map_cons, List.nodup_cons] at distinct
      rcases List.mem_cons.mp member with rfl | behind
      · simp [Entries.get?]
      · have other : entry.1 ≠ key := by
          rintro rfl
          exact distinct.1 (List.mem_map.mpr ⟨_, behind, rfl⟩)
        have found := induction distinct.2 behind
        rw [Entries.get?] at found ⊢
        rw [List.find?_cons_of_neg (by simpa using other), found]

theorem mem_of_get? {entries : Entries} {key : String} {content : Value}
    (found : entries.get? key = some content) : (key, content) ∈ entries := by
  obtain ⟨entry, first, rfl⟩ := Option.map_eq_some_iff.mp found
  have passed := List.find?_some first
  rw [← beq_iff_eq.mp passed]
  exact List.mem_of_find?_eq_some first

/-- Where keys are distinct, their order says nothing. -/
theorem get?_of_perm {entries others : Entries} (same : entries.Perm others)
    (distinct : (entries.map Prod.fst).Nodup) (key : String) :
    entries.get? key = others.get? key := by
  cases found : others.get? key with
  | none =>
      rw [get?_eq_none_iff] at found ⊢
      exact fun member => found ((same.map Prod.fst).mem_iff.mp member)
  | some content =>
      exact get?_of_mem distinct (same.mem_iff.mpr (mem_of_get? found))

theorem add_of_new {entries : Entries} {key : String}
    (new : key ∉ entries.map Prod.fst) (content : Value) :
    entries.add key content = some (entries ++ [(key, content)]) := by
  have absent := get?_eq_none_iff.mpr new
  have nowhere : (entries.any fun entry => entry.1 == key) = false := by
    rw [List.any_eq_false]
    intro entry member named
    exact new (List.mem_map.mpr ⟨entry, member, beq_iff_eq.mp named⟩)
  rw [Entries.add, absent, Entries.put, nowhere]
  rfl

namespace Line

theorem next?_statement {entries : Entries} (line : Line)
    (new : line.key ∉ entries.map Prod.fst) :
    Progress.next? { entries, path := [] } line.statement =
      some { entries := entries ++ [line.entry], path := [] } := by
  have added := add_of_new new line.content
  simp [Progress.next?, statement, splitKey, Entries.changeAt,
    Entries.addDotted, added, entry]

theorem next?_statements (entries : Entries) (lines : List Line)
    (distinct : (entries.map Prod.fst ++ lines.map Line.key).Nodup) :
    (lines.map Line.statement).foldlM Progress.next? { entries, path := [] } =
      some { entries := entries ++ lines.map Line.entry, path := [] } := by
  induction lines generalizing entries with
  | nil => rw [List.map_nil, List.map_nil, List.append_nil]; rfl
  | cons line lines induction =>
      have new : line.key ∉ entries.map Prod.fst := fun member =>
        (List.nodup_append.mp distinct).2.2 _ member _ List.mem_cons_self rfl
      rw [List.map_cons, List.foldlM_cons, next?_statement line new,
        Option.bind_eq_bind, Option.bind_some, induction, List.map_cons,
        List.append_assoc, List.singleton_append]
      rw [List.map_append, List.map_singleton, List.append_assoc,
        List.singleton_append]
      exact distinct

end Line

/-- The text of lines that each give a value to a key of its own is read as the
table of these keys and values. -/
theorem parse_lines {lines : List Line}
    (distinct : (lines.map Line.key).Nodup) :
    parse (String.ofList (lines.flatMap Line.print)) =
      some (lines.map Line.entry) := by
  have whole := Line.next?_statements [] lines distinct
  rw [parse, String.toList_ofList, statements_lines, Option.bind_eq_bind,
    Option.bind_some, whole]
  rfl

end Toml

end TagWire
