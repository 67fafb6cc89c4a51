import TagWire.Proofs.Files.Tree
import TagWire.Proofs.Vector.Conformance
import TagWire.Proofs.Vector.Members
import TagWire.Vector.Directory

/-!
# Written cases read back

The text of a vector file spells one object, whose one member holds the cases in
their order, and reading this object gives the cases back.  Strings are escaped,
so a line ends only where the layout ends one: each case has a line of its own.
-/

namespace TagWire

namespace VectorFile

variable {kind : Kind}

/-! ## What a file says -/

/-- What the text of a file says. -/
def document (cases : List kind.Case) : Json.Value :=
  .object [(some "cases", .array (cases.map Kind.Case.value))]

/-- One or more cases are the elements of an array.  A comma or the end of the
line is behind each of them. -/
theorem caseLines_spelling (one : kind.Case) (cases : List kind.Case)
    {others : List Json.Token} {rest : List Char}
    (behind : Json.TextSpelling others rest) :
    ∃ found, Json.ElementTokens ((one :: cases).map Kind.Case.value) found ∧
      Json.TextSpelling (found ++ others)
        (caseLines ((one :: cases).map Kind.Case.print) ++ rest) := by
  have indent : ∀ char ∈ "    ".toList, Json.isBlank char = true := by
    have shape : "    ".toList = List.replicate 4 ' ' := rfl
    intro char member
    rw [shape] at member
    cases List.eq_of_mem_replicate member
    rfl
  induction cases generalizing one with
  | nil =>
      obtain ⟨found, written, cuts⟩ := one.print_writes
      refine ⟨found, .last written, ?_⟩
      have ended := cuts (.lineEnd rest) (.blank rfl behind)
      have line := ended.blanks indent
      rw [List.map_singleton, caseLines, List.append_assoc, List.append_assoc]
      exact line
  | cons next cases induction =>
      obtain ⟨front, written, cuts⟩ := one.print_writes
      obtain ⟨found, writtenBehind, spelled⟩ := induction next
      refine ⟨_, .more written writtenBehind, ?_⟩
      have comma := Json.TextSpelling.sign .comma nofun
        (.blank (rfl : Json.isBlank '\n' = true) spelled)
      have line := (cuts (.comma _) comma).blanks indent
      simp only [List.map_cons, caseLines, List.append_assoc,
        List.cons_append, List.nil_append] at line ⊢
      exact line

theorem opening_spelling {found : List Json.Token} {rest : List Char}
    (behind : Json.TextSpelling found rest) :
    Json.TextSpelling
      (.leftBrace :: .string (some "cases") :: .colon :: .leftBracket :: found)
      ("\x7b\n  \"cases\": [\n".toList ++ rest) := by
  have shape : "\x7b\n  \"cases\": [\n".toList =
      ['{', '\n', ' ', ' '] ++ Json.quote "cases" ++ [':', ' ', '[', '\n'] := by
    decide
  have bracket : Json.TextSpelling (.leftBracket :: found)
      ('[' :: '\n' :: rest) := .sign .leftBracket nofun (.blank rfl behind)
  have colon : Json.TextSpelling (.colon :: .leftBracket :: found)
      (':' :: ' ' :: '[' :: '\n' :: rest) :=
    .sign .colon nofun (.blank rfl bracket)
  have key := Json.TextSpelling.sign (Json.quote_spelling "cases") nofun colon
  rw [shape, List.append_assoc, List.append_assoc]
  exact .sign .leftBrace nofun (.blank rfl (.blank rfl (.blank rfl key)))

theorem closing_spelling :
    Json.TextSpelling [.rightBracket, .rightBrace] "  ]\n\x7d\n".toList := by
  have shape : "  ]\n\x7d\n".toList = [' ', ' ', ']', '\n', '}', '\n'] := rfl
  have brace : Json.TextSpelling [.rightBrace] ['}', '\n'] :=
    .sign .rightBrace nofun (.blank rfl .nil)
  rw [shape]
  exact .blank rfl (.blank rfl (.sign .rightBracket nofun (.blank rfl brace)))

theorem toList_render (cases : List kind.Case) :
    (render cases).toList =
      "\x7b\n  \"cases\": [\n".toList ++
        (caseLines (cases.map Kind.Case.print) ++ "  ]\n\x7d\n".toList) := by
  rw [← List.append_assoc]
  exact String.toList_ofList

/-- The text of a file spells an object that holds the cases. -/
theorem render_spells (cases : List kind.Case) :
    Json.Spells (render cases).toList (document cases) := by
  rw [toList_render]
  cases cases with
  | nil =>
      rw [List.map_nil, caseLines, List.nil_append]
      refine ⟨_, opening_spelling closing_spelling, ?_⟩
      exact .object (.last (some "cases") .emptyArray)
  | cons one cases =>
      obtain ⟨found, written, spelled⟩ :=
        caseLines_spelling one cases closing_spelling
      refine ⟨_, opening_spelling spelled, ?_⟩
      have member := Json.MemberTokens.last (some "cases") (.array written)
      have whole := Json.ValueTokens.object member
      simp only [List.cons_append, List.append_assoc, List.nil_append] at whole
      exact whole

theorem parse_render (cases : List kind.Case) :
    parse kind (render cases) = some cases := by
  have read := Json.parse_of_spells (render_spells cases)
  have asked : members? ["cases"] (document cases) =
      some [.array (cases.map Kind.Case.value)] :=
    members?_object [("cases", .array (cases.map Kind.Case.value))]
      (List.nodup_cons.mpr ⟨List.not_mem_nil, List.nodup_nil⟩)
  have elements : (cases.map Kind.Case.value).mapM (case? kind) =
      some cases := mapM_restores fun one _ => one.case?_value
  simp only [parse, read, Option.bind_eq_bind, Option.bind_some, asked]
  exact elements

/-- Reading a file leaves the tree as it is. -/
theorem verify_of_read {directory : String} {tree : Tree} {text : String}
    (read : tree.read (path directory kind) = .ok (Utf8.encode text)) :
    (verify directory kind : ExceptT VectorFileError (StateM Tree) Nat) tree =
      (checkText (path directory kind) kind text, tree) :=
  run_bind_ok (run_adapt (Tree.readText_of_read read) _)

/-! ## Lines -/

/-- The lines of some cases, without their ends. -/
def textLines : List (List Char) → List (List Char)
  | [] => []
  | [line] => ["    ".toList ++ line]
  | line :: lines => ("    ".toList ++ line ++ [',']) :: textLines lines

/-- All lines of a file, without their ends. -/
def fileLines (cases : List kind.Case) : List (List Char) :=
  "\x7b".toList :: "  \"cases\": [".toList ::
    (textLines (cases.map Kind.Case.print) ++ ["  ]".toList, "\x7d".toList])

/-- Every line but the last has a comma. -/
theorem getElem?_textLines (lines : List (List Char)) (place : Nat) :
    (textLines lines)[place]? = lines[place]?.map fun line =>
      "    ".toList ++ line ++ if place + 1 < lines.length then [','] else [] := by
  induction lines generalizing place with
  | nil => rfl
  | cons line lines induction =>
      cases lines with
      | nil =>
          cases place with
          | zero => simp [textLines]
          | succ place => simp [textLines]
      | cons next lines =>
          cases place with
          | zero => simp [textLines]
          | succ place =>
              have others := induction place
              simp only [textLines, List.getElem?_cons_succ, others,
                List.length_cons, Nat.add_lt_add_iff_right]

theorem length_textLines (lines : List (List Char)) :
    (textLines lines).length = lines.length := by
  induction lines with
  | nil => rfl
  | cons line lines induction =>
      cases lines with
      | nil => rfl
      | cons next lines =>
          rw [textLines, List.length_cons, List.length_cons, induction]
          exact nofun

theorem not_mem_textLines {lines : List (List Char)}
    (single : ∀ line ∈ lines, '\n' ∉ line) :
    ∀ line ∈ textLines lines, '\n' ∉ line := by
  intro line inside
  obtain ⟨place, found⟩ := List.mem_iff_getElem?.mp inside
  rw [getElem?_textLines, Option.map_eq_some_iff] at found
  obtain ⟨printed, there, rfl⟩ := found
  have bare := single printed (List.mem_of_getElem? there)
  have noIndent : '\n' ∉ "    ".toList := by decide
  simp only [List.mem_append, not_or]
  refine ⟨⟨noIndent, bare⟩, ?_⟩
  split <;> decide

theorem not_mem_fileLines (cases : List kind.Case) :
    ∀ line ∈ fileLines cases, '\n' ∉ line := by
  have printed : ∀ line ∈ cases.map Kind.Case.print, '\n' ∉ line := by
    intro line inside
    obtain ⟨one, _, rfl⟩ := List.mem_map.mp inside
    exact one.not_mem_print
  simp only [fileLines, List.forall_mem_cons, List.forall_mem_append]
  exact ⟨by decide, by decide, not_mem_textLines printed, by decide, by decide,
    List.forall_mem_nil _⟩

theorem caseLines_eq (lines : List (List Char)) :
    caseLines lines = (textLines lines).flatMap fun line => line ++ ['\n'] := by
  induction lines with
  | nil => rfl
  | cons line lines induction =>
      cases lines with
      | nil => simp [caseLines, textLines]
      | cons next lines => simp [caseLines, textLines, induction]

theorem toList_render_eq (cases : List kind.Case) :
    (render cases).toList =
      (fileLines cases).flatMap fun line => line ++ ['\n'] := by
  have opening : "\x7b\n  \"cases\": [\n".toList =
      "\x7b".toList ++ ['\n'] ++ ("  \"cases\": [".toList ++ ['\n']) := by
    decide
  have closing : "  ]\n\x7d\n".toList =
      "  ]".toList ++ ['\n'] ++ ("\x7d".toList ++ ['\n']) := by
    decide
  rw [toList_render, opening, closing, caseLines_eq]
  simp only [fileLines, List.flatMap_cons, List.flatMap_append,
    List.flatMap_nil, List.append_assoc, List.append_nil]

theorem intercalate_lines (lines : List (List Char)) :
    ['\n'].intercalate (lines ++ [[]]) =
      lines.flatMap fun line => line ++ ['\n'] := by
  induction lines with
  | nil => rfl
  | cons line lines induction =>
      have others : lines ++ [[]] ≠ [] := List.append_ne_nil_of_right_ne_nil _ nofun
      rw [List.cons_append, List.intercalate_cons_of_ne_nil others, induction,
        List.flatMap_cons]

theorem count_lines {lines : List (List Char)}
    (single : ∀ line ∈ lines, '\n' ∉ line) :
    (lines.flatMap fun line => line ++ ['\n']).count '\n' = lines.length := by
  induction lines with
  | nil => rfl
  | cons line lines induction =>
      have others := induction fun other inside =>
        single other (List.mem_cons_of_mem _ inside)
      have none := List.count_eq_zero_of_not_mem
        (single line List.mem_cons_self)
      rw [List.flatMap_cons, List.count_append, List.count_append, none, others,
        List.count_singleton_self, List.length_cons, Nat.zero_add, Nat.add_comm]

/-- The lines of the text are those of the layout, and nothing is behind the end
of the last one. -/
theorem splitOn_render (cases : List kind.Case) :
    (render cases).toList.splitOn '\n' = fileLines cases ++ [[]] := by
  rw [toList_render_eq, ← intercalate_lines]
  apply List.splitOn_intercalate
  · intro line inside
    rcases List.mem_append.mp inside with line | last
    · exact not_mem_fileLines cases _ line
    · rw [List.mem_singleton.mp last]
      exact List.not_mem_nil
  · exact List.append_ne_nil_of_right_ne_nil _ nofun

theorem count_render (cases : List kind.Case) :
    (render cases).toList.count '\n' = cases.length + 4 := by
  rw [toList_render_eq, count_lines (not_mem_fileLines cases)]
  simp only [fileLines, List.length_cons, List.length_append, List.length_nil,
    length_textLines, List.length_map]

theorem line_of_case {cases : List kind.Case} {place : Nat} {one : kind.Case}
    (found : cases[place]? = some one) :
    ((render cases).toList.splitOn '\n')[place + 2]? =
      some ("    ".toList ++ one.print ++
        if place + 1 < cases.length then [','] else []) := by
  have line := getElem?_textLines (cases.map Kind.Case.print) place
  rw [List.getElem?_map, found, Option.map_some, Option.map_some,
    List.length_map] at line
  obtain ⟨within, _⟩ := List.getElem?_eq_some_iff.mp line
  rw [splitOn_render, fileLines, List.cons_append, List.cons_append,
    List.getElem?_cons_succ, List.getElem?_cons_succ, List.append_assoc,
    List.getElem?_append_left within, line]

/-- The text of a file is in the grammar and gives its cases back, so checking
the file comes to checking them.  Each case has a line of its own, whatever the
strings are. -/
theorem written_cases_read_back (cases : List kind.Case) :
    Json.Spells (render cases).toList (document cases) ∧
      parse kind (render cases) = some cases ∧
      (∀ directory tree,
        tree.read (path directory kind) =
            .ok (Utf8.encode (render cases)) →
          (verify directory kind :
              ExceptT VectorFileError (StateM Tree) Nat) tree =
            ((Check.cases cases).mapError
              (.nonconforming (path directory kind)), tree)) ∧
      (∀ place one, cases[place]? = some one →
        ((render cases).toList.splitOn '\n')[place + 2]? =
          some ("    ".toList ++ one.print ++
            if place + 1 < cases.length then [','] else [])) ∧
      (render cases).toList.count '\n' = cases.length + 4 := by
  refine ⟨render_spells cases, parse_render cases, ?_,
    fun _ _ found => line_of_case found, count_render cases⟩
  intro directory tree read
  rw [verify_of_read read, checkText, parse_render]

/-- Quotes, line ends and control characters stay inside their strings. -/
theorem written_cases_read_back_from_file :
    let one : Kind.Case .text := TextCase.ofText "\"a\"\n" "\\\x01é"
    let cases := [one, one]
    let place : Location := { names := ["work", "varlen_strings.json"] }
    let file := Node.file (Utf8.encode (render cases))
    let tree : Tree :=
      { working := { names := ["work"] }, nodes := [(place, file)] }
    tree.read (path "" .text) = .ok (Utf8.encode (render cases)) ∧
      (verify "" .text : ExceptT VectorFileError (StateM Tree) Nat) tree =
        (.ok 2, tree) ∧
      cases[1]? = some one ∧
      ((render cases).toList.splitOn '\n')[3]? =
        some ("    \x7b\"id\":\"\\\"a\\\"\\n\",\"utf8\":\"\\\\\\u0001é\",".toList ++
          "\"encoded_hex\":\"055c01c3a900\"\x7d".toList) ∧
      (render cases).toList.count '\n' = 6 := by
  intro one cases place file tree
  have read : tree.read (path "" .text) =
      .ok (Utf8.encode (render cases)) := by
    rfl
  have conforms : Check.verdict one = .ok () := by decide +kernel
  have passed : Check.cases cases = .ok 2 := by
    apply Check.cases_of_ok
    intro other member
    have same : other = one := by simpa [cases] using member
    rw [same]
    exact conforms
  obtain ⟨_, _, verified, lines, counted⟩ := written_cases_read_back cases
  refine ⟨read, ?_, rfl, ?_, counted⟩
  · rw [verified "" tree read, passed]
    rfl
  · rw [lines 1 one rfl]
    decide

end VectorFile

end TagWire
