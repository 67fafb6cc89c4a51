import TagWire.Proofs.Files.Directories
import TagWire.Proofs.Vector.Building
import TagWire.Proofs.Vector.Layout
import TagWire.Vector.Directory

/-!
# Directories that are written and checked

Writing a directory makes it, and then puts the canonical file of each kind into
it until one cannot be put.  The canonical cases conform and are read back from
their file, so the files that were written pass; they are where they were, so
writing them again changes nothing.
-/

namespace TagWire

/-! ## Canonical files -/

namespace Canonical

/-- What the canonical cases of a kind are about, under the names of the
cases. -/
def subjects : (kind : Kind) → List (String × kind.Subject)
  | .unsigned => words
  | .signed => signedWords
  | .tag => tags
  | .bytes => payloads
  | .text => texts

theorem cases_eq (kind : Kind) :
    cases kind = (subjects kind).mapM fun named =>
      Kind.Case.build named.1 named.2 := by
  have built : ∀ {α : Type} (one : String → α → kind.Case)
      (list : List (String × α)),
      list.mapM (fun named => (.ok (one named.1 named.2) :
        Except WireError kind.Case)) =
      .ok (list.map fun named => one named.1 named.2) :=
    fun _ _ => List.mapM_pure
  cases kind with
  | unsigned => exact (built NumberCase.ofUnsigned words).symm
  | signed => exact (built NumberCase.ofSigned signedWords).symm
  | tag => rfl
  | bytes => exact (built BytesCase.ofPayload payloads).symm
  | text => exact (built TextCase.ofText texts).symm

theorem subjects_encodable (kind : Kind) :
    ∀ named ∈ subjects kind, named.2.Encodable := by
  cases kind with
  | tag =>
      have table : ∀ named ∈ tags, named.2.index.toNat ≤ Tag.maxIndex := by
        decide
      exact table
  | unsigned => exact fun _ _ => trivial
  | signed => exact fun _ _ => trivial
  | bytes => exact fun _ _ => trivial
  | text => exact fun _ _ => trivial

theorem subjects_available (kind : Kind) :
    ∀ named ∈ subjects kind, named.2.Available := by
  intro named member room needed
  cases kind with
  | unsigned => cases needed; decide
  | signed => cases needed; decide
  | tag => cases needed
  | bytes =>
      cases needed
      have table : ∀ named ∈ payloads,
          named.2.length + 9 ≤ Buffer.allocationLimit := by decide
      exact table named member
  | text =>
      cases needed
      have table : ∀ named ∈ texts,
          (Utf8.encode named.2).length + 10 ≤ Buffer.allocationLimit := by
        decide
      exact table named member

theorem cases_ok (kind : Kind) :
    ∃ list, cases kind = .ok list ∧ Check.cases list = .ok list.length := by
  have builds : ∀ named ∈ subjects kind,
      ∃ one, Kind.Case.build named.1 named.2 = .ok one := by
    intro named member
    obtain ⟨form, encoded⟩ := (Kind.Case.encodable_iff named.2).mp
      (subjects_encodable kind named member)
    rw [Kind.Case.build_eq, encoded]
    exact ⟨_, rfl⟩
  obtain ⟨list, made, origin⟩ := mapM_ok builds
  refine ⟨list, (cases_eq kind).trans made, Kind.Case.cases_of_build ?_⟩
  intro one member
  obtain ⟨named, among, built⟩ := origin one member
  exact ⟨_, _, subjects_available kind named among, built⟩

end Canonical

namespace VectorFile

/-- A kind has a canonical file, and its text passes. -/
theorem renderCanonical_ok (kind : Kind) :
    ∃ text count, renderCanonical kind = .ok text ∧
      ∀ path, checkText path kind text = .ok count := by
  obtain ⟨list, canonical, conform⟩ := Canonical.cases_ok kind
  refine ⟨render list, list.length, ?_, ?_⟩
  · rw [renderCanonical, canonical]
    rfl
  · intro path
    rw [checkText, parse_render]
    dsimp only
    rw [conform]
    rfl

/-- What is done with vector files, done in a tree. -/
abbrev OnTree (α : Type) : Type := ExceptT VectorFileError (StateM Tree) α

section Writing

variable {directory : String} {kind : Kind} {kinds : List Kind}
  {tree after : Tree} {location : Location}

/-! ## One file -/

theorem write_of_takes {text : String}
    (canonical : renderCanonical kind = .ok text)
    (written : tree.write (path directory kind) (Utf8.encode text) =
      .ok after) :
    (write directory kind : OnTree String) tree =
      (.ok (path directory kind), after) := by
  simp only [write, canonical]
  refine (run_bind_ok rfl).trans ?_
  exact run_bind_ok (run_adapt (Tree.writeText_of_write written) _)

theorem write_of_blocked {text : String} {error : AccessError}
    (canonical : renderCanonical kind = .ok text)
    (blocked : tree.write (path directory kind) (Utf8.encode text) =
      .error error) :
    (write directory kind : OnTree String) tree =
      (.error (.inaccessible (path directory kind)), tree) := by
  simp only [write, canonical]
  refine (run_bind_ok rfl).trans ?_
  exact run_bind_error (run_adapt (Tree.writeText_of_error blocked) _)

/-- A file is at its name. -/
theorem getLast?_of_location
    (located : tree.locate (path directory kind) = .ok location) :
    location.names.getLast? = some kind.fileName := by
  have plain : '/' ∉ kind.fileName.toList := by
    cases kind <;> decide
  have leading : Path.isVoid kind.fileName = false ∧
      kind.fileName ≠ ".." := by
    cases kind <;> decide
  obtain ⟨base, rfl⟩ := Tree.locate_join plain leading located
  exact List.getLast?_concat

/-- A file of one kind is at no place of another. -/
theorem kind_of_location {other : Kind}
    (located : tree.locate (path directory kind) = .ok location)
    (again : tree.locate (path directory other) = .ok location) :
    other = kind := by
  have distinct : ∀ kind other : Kind,
      other.fileName = kind.fileName → other = kind := by
    intro kind other
    cases kind <;> cases other <;> decide
  have last := getLast?_of_location again
  rw [getLast?_of_location located, Option.some.injEq] at last
  exact distinct kind other last.symm

/-! ## Several files -/

/-- The canonical files of the kinds are in the directory. -/
def Holds (directory : String) (kinds : List Kind) (tree : Tree) : Prop :=
  ∀ kind ∈ kinds, ∃ text, renderCanonical kind = .ok text ∧
    tree.read (path directory kind) = .ok (Utf8.encode text)

/-- The canonical files of the kinds have been put where there was no directory,
and all else is as it was. -/
structure Placed (directory : String) (kinds : List Kind) (tree after : Tree) :
    Prop where
  holds : Holds directory kinds after
  stays : tree.Stays after
  back : after.Stays tree
  elsewhere : ∀ location,
    (∀ kind ∈ kinds, tree.locate (path directory kind) ≠ .ok location) →
      after.node? location = tree.node? location

theorem Placed.nil (directory : String) (tree : Tree) :
    Placed directory [] tree tree where
  holds := nofun
  stays := .refl tree
  back := .refl tree
  elsewhere := fun _ _ => rfl

/-- One more file is put first, and none of the others takes its place. -/
theorem Placed.cons {text : String} {middle : Tree}
    (canonical : renderCanonical kind = .ok text)
    (written : tree.write (path directory kind) (Utf8.encode text) =
      .ok middle)
    (placed : Placed directory kinds middle after) :
    Placed directory (kind :: kinds) tree after where
  holds := by
    intro one member
    by_cases later : one ∈ kinds
    · exact placed.holds one later
    · have same : one = kind :=
        (List.mem_cons.mp member).resolve_right later
      subst same
      refine ⟨text, canonical, ?_⟩
      obtain ⟨place, located, found⟩ :=
        Tree.read_ok_iff.mp (Tree.read_of_write written)
      refine Tree.read_ok_iff.mpr ⟨place, placed.stays.locate located, ?_⟩
      rw [placed.elsewhere place, found]
      intro other among taken
      exact later (kind_of_location located taken ▸ among)
  stays := (Tree.stays_of_write written).trans placed.stays
  back := placed.back.trans (Tree.stays_back_of_write written)
  elsewhere := by
    intro place apart
    rw [placed.elsewhere place, Tree.node?_of_write written
      (apart kind List.mem_cons_self)]
    intro other among located
    exact apart other (List.mem_cons_of_mem _ among)
      ((Tree.locate_iff_of_write written).mp located)

/-- Files are put in order until one cannot be put. -/
inductive Progress (directory : String) (kinds : List Kind) (tree after : Tree) :
    Except VectorFileError (List String) → Prop where
  | complete (takes : ∀ kind ∈ kinds, tree.Takes (path directory kind))
      (placed : Placed directory kinds tree after) :
      Progress directory kinds tree after (.ok (kinds.map (path directory)))
  | blocked {front behind : List Kind} {kind : Kind}
      (split : kinds = front ++ kind :: behind)
      (takes : ∀ earlier ∈ front, tree.Takes (path directory earlier))
      (refuses : ¬tree.Takes (path directory kind))
      (placed : Placed directory front tree after) :
      Progress directory kinds tree after
        (.error (.inaccessible (path directory kind)))

/-- Whether a file can be put does not depend on the one put before. -/
theorem Progress.cons {text : String} {middle : Tree}
    {outcome : Except VectorFileError (List String)}
    (canonical : renderCanonical kind = .ok text)
    (written : tree.write (path directory kind) (Utf8.encode text) =
      .ok middle)
    (progress : Progress directory kinds middle after outcome) :
    Progress directory (kind :: kinds) tree after
      (outcome.map (List.cons (path directory kind))) := by
  have first : ∀ {later : List Kind},
      (∀ one ∈ later, middle.Takes (path directory one)) →
        ∀ one ∈ kind :: later, tree.Takes (path directory one) := by
    intro later takes one member
    rcases List.mem_cons.mp member with rfl | among
    · exact Tree.takes_of_write written
    · exact (Tree.takes_iff_of_write written).mp (takes one among)
  cases progress with
  | complete takes placed =>
      exact .complete (first takes) (placed.cons canonical written)
  | blocked split takes refuses placed =>
      refine .blocked (congrArg (List.cons kind) split) (first takes) ?_
        (placed.cons canonical written)
      exact fun accepts =>
        refuses ((Tree.takes_iff_of_write written).mpr accepts)

theorem write_progress (directory : String) (kinds : List Kind) (tree : Tree) :
    ∃ outcome after,
      (kinds.mapM (write directory) : OnTree (List String)) tree =
          (outcome, after) ∧
        Progress directory kinds tree after outcome := by
  induction kinds generalizing tree with
  | nil => exact ⟨_, tree, rfl, .complete nofun (.nil directory tree)⟩
  | cons kind kinds induction =>
      obtain ⟨text, _, canonical, _⟩ := renderCanonical_ok kind
      rw [List.mapM_cons]
      cases written : tree.write (path directory kind) (Utf8.encode text) with
      | error error =>
          refine ⟨_, tree,
            run_bind_error (write_of_blocked canonical written), ?_⟩
          exact .blocked (List.nil_append _).symm nofun
            (Tree.not_takes_of_error written) (.nil directory tree)
      | ok middle =>
          obtain ⟨outcome, after, ran, progress⟩ := induction middle
          refine ⟨outcome.map (List.cons (path directory kind)), after, ?_,
            progress.cons canonical written⟩
          refine (run_bind_ok (write_of_takes canonical written)).trans ?_
          cases outcome with
          | error error => exact run_bind_error ran
          | ok paths => exact run_bind_ok ran

/-- Files that are there already are put again and change nothing. -/
theorem write_again (holds : Holds directory kinds tree) :
    (kinds.mapM (write directory) : OnTree (List String)) tree =
      (.ok (kinds.map (path directory)), tree) := by
  induction kinds with
  | nil => rfl
  | cons kind kinds induction =>
      obtain ⟨text, canonical, reads⟩ := holds kind List.mem_cons_self
      have first := write_of_takes canonical (Tree.write_of_read reads)
      have rest := induction fun other member =>
        holds other (List.mem_cons_of_mem _ member)
      rw [List.mapM_cons]
      exact (run_bind_ok first).trans (run_bind_ok rest)

/-! ## Checking -/

theorem verify_of_holds (holds : Holds directory kinds tree)
    (member : kind ∈ kinds) :
    ∃ count, (verify directory kind : OnTree Nat) tree =
      (.ok count, tree) := by
  obtain ⟨text, canonical, reads⟩ := holds kind member
  obtain ⟨same, count, rendered, passes⟩ := renderCanonical_ok kind
  rw [canonical] at rendered
  cases rendered
  refine ⟨count, ?_⟩
  rw [verify_of_read reads, passes]

/-- Checks the file of a kind, and reports what became of it. -/
def verifyReport (directory : String) (kind : Kind) :
    StateM Tree FileReport := do
  return {
    kind
    path := path directory kind
    outcome := ← (verify directory kind).run }

theorem verifyAll_eq (directory : String) (kinds : List Kind) :
    (verifyAll directory kinds : StateM Tree (List FileReport)) =
      kinds.mapM (verifyReport directory) := rfl

theorem verifyAll_of_holds (holds : Holds directory kinds tree) :
    ∃ reports, (verifyAll directory kinds : StateM Tree (List FileReport))
        tree = (reports, tree) ∧
      reports.map FileReport.kind = kinds ∧
      ∀ report ∈ reports, report.passed = true := by
  induction kinds with
  | nil => exact ⟨[], rfl, rfl, by simp⟩
  | cons kind kinds induction =>
      obtain ⟨count, first⟩ := verify_of_holds holds List.mem_cons_self
      obtain ⟨reports, rest, kindsEq, passed⟩ := induction fun other member =>
        holds other (List.mem_cons_of_mem _ member)
      let report : FileReport :=
        { kind, path := path directory kind, outcome := .ok count }
      have reported : verifyReport directory kind tree = (report, tree) :=
        run_bind first
      refine ⟨report :: reports, ?_, ?_, ?_⟩
      · rw [verifyAll_eq] at rest
        rw [verifyAll_eq, List.mapM_cons]
        exact (run_bind reported).trans (run_bind rest)
      · rw [List.map_cons, kindsEq]
      · intro report member
        rcases List.mem_cons.mp member with rfl | later
        · rfl
        · exact passed report later

/-! ## The directory -/

/-- The canonical files of the kinds are in the directory, no other file has
changed, and all that is new elsewhere is directories on the way. -/
structure Written (directory : String) (kinds : List Kind)
    (tree after : Tree) : Prop where
  holds : Holds directory kinds after
  files : ∀ location content,
    (∀ kind ∈ kinds, after.locate (path directory kind) ≠ .ok location) →
      (after.node? location = some (.file content) ↔
        tree.node? location = some (.file content))
  elsewhere : ∀ location,
    (∀ kind ∈ kinds, after.locate (path directory kind) ≠ .ok location) →
      after.node? location = tree.node? location ∨
        (location ∈
            Tree.way (tree.start directory) (Path.names directory) ∧
          tree.node? location = none ∧
          after.node? location = some .directory)

/-- No file is at a directory that was made. -/
theorem Placed.written {made : Tree}
    (grown : Tree.Grown
      (Tree.way (tree.start directory) (Path.names directory)) tree made)
    (placed : Placed directory kinds made after) :
    Written directory kinds tree after := by
  have same : ∀ location,
      (∀ kind ∈ kinds, after.locate (path directory kind) ≠ .ok location) →
        after.node? location = made.node? location :=
    fun location apart => placed.elsewhere location fun kind member located =>
      apart kind member (placed.stays.locate located)
  refine { holds := placed.holds, files := ?_, elsewhere := ?_ }
  · intro location content apart
    rw [same location apart]
    exact grown.file_iff content
  · intro location apart
    rw [same location apart]
    exact grown.nodes location

theorem writeAll_of_made {made : Tree}
    (served : tree.makeDirectories directory = (.ok (), made)) :
    (writeAll directory kinds : OnTree (List String)) tree =
      (kinds.mapM (write directory) : OnTree (List String)) made :=
  run_bind_ok (run_adapt (Tree.makeDirectories_served served) _)

theorem writeAll_of_unmade {made : Tree} {error : AccessError}
    (served : tree.makeDirectories directory = (.error error, made)) :
    (writeAll directory kinds : OnTree (List String)) tree =
      (.error (.inaccessible directory), made) :=
  run_bind_error (run_adapt (Tree.makeDirectories_served served) _)

theorem writeAll_again (holds : Holds directory kinds tree)
    (there : directory = "" ∨ tree.isDirectory directory = true) :
    (writeAll directory kinds : OnTree (List String)) tree =
      (.ok (kinds.map (path directory)), tree) := by
  rw [writeAll_of_made (Tree.makeDirectories_of_directory there)]
  exact write_again holds

/-- Whatever is there before, a directory is written kind by kind up to the
first one whose file cannot be put, or not at all if the directory cannot be
made.  What was written is there, and nothing else has changed but for
directories that were made on the way.  If all was written, every choice of the
files passes, and writing the directory again changes nothing. -/
theorem directory_written_up_to_blocked (directory : String)
    (kinds : List Kind) (tree : Tree) :
    let made := (tree.makeDirectories directory).2
    ∃ outcome after,
      (writeAll directory kinds : OnTree (List String)) tree =
        (outcome, after) ∧
      ((∃ paths, outcome = .ok paths) ↔
        (directory = "" ∨ tree.Makeable directory) ∧
          ∀ kind ∈ kinds, made.Takes (path directory kind)) ∧
      (∀ paths, outcome = .ok paths →
        paths = kinds.map (path directory) ∧
        (directory = "" ∨ after.isDirectory directory = true) ∧
        Written directory kinds tree after ∧
        (∀ chosen : List Kind, chosen ⊆ kinds →
          ∃ reports, (verifyAll directory chosen :
              StateM Tree (List FileReport)) after = (reports, after) ∧
            reports.map FileReport.kind = chosen ∧
            ∀ report ∈ reports, report.passed = true) ∧
        (writeAll directory kinds : OnTree (List String)) after =
          (.ok paths, after)) ∧
      (∀ error, outcome = .error error →
        (¬(directory = "" ∨ tree.Makeable directory) ∧
          error = .inaccessible directory ∧
          Written directory [] tree after) ∨
        ∃ front kind behind, kinds = front ++ kind :: behind ∧
          (directory = "" ∨ tree.Makeable directory) ∧
          (∀ earlier ∈ front, made.Takes (path directory earlier)) ∧
          ¬made.Takes (path directory kind) ∧
          error = .inaccessible (path directory kind) ∧
          Written directory front tree after) := by
  have grown := tree.makeDirectories_grown directory
  have makeable : (tree.makeDirectories directory).1 = .ok () ↔
      directory = "" ∨ tree.Makeable directory :=
    Tree.makeDirectories_ok_iff
  cases served : tree.makeDirectories directory with
  | mk answer made =>
      rw [served] at grown makeable
      dsimp only at makeable ⊢
      rw [← makeable]
      cases answer with
      | error refusal =>
          refine ⟨_, made, writeAll_of_unmade served, ?_, nofun, ?_⟩
          · exact iff_of_false nofun fun both => nomatch both.1
          · intro error same
            cases same
            exact .inl ⟨nofun, rfl, (Placed.nil directory made).written grown⟩
      | ok answer =>
          obtain ⟨outcome, after, ran, progress⟩ :=
            write_progress directory kinds made
          refine ⟨outcome, after, (writeAll_of_made served).trans ran, ?_⟩
          cases progress with
          | complete takes placed =>
              refine ⟨iff_of_true ⟨_, rfl⟩ ⟨rfl, takes⟩, ?_, nofun⟩
              intro paths same
              cases same
              have there := (Tree.isDirectory_of_makeDirectories served).imp
                id placed.stays.isDirectory
              refine ⟨rfl, there, placed.written grown, ?_,
                writeAll_again placed.holds there⟩
              intro chosen among
              exact verifyAll_of_holds fun kind member =>
                placed.holds kind (among member)
          | @blocked front behind kind split takes refuses placed =>
              refine ⟨iff_of_false nofun ?_, nofun, ?_⟩
              · rintro ⟨_, all⟩
                refine refuses (all kind ?_)
                rw [split]
                exact List.mem_append_right _ List.mem_cons_self
              · intro error same
                cases same
                exact .inr ⟨front, kind, behind, split, rfl, takes, refuses,
                  rfl, placed.written grown⟩

/-- A stale file is replaced, and the file beside it stays.  A directory beside
the working one is made, and none of its name in the working one.  Where a
directory is in the place of a file, only the files before it are written. -/
theorem directory_written_up_to_blocked_in_trees :
    (let stale : Tree :=
      { working := ⟨["work"]⟩
        nodes :=
          [(⟨["work", "v"]⟩, .directory),
            (⟨["work", "v", "typdex.json"]⟩, .file [0]),
            (⟨["work", "v", "notes"]⟩, .file [1])] }
    let kinds : List Kind := [.bytes, .tag, .bytes]
    ∃ after,
      (writeAll "v" kinds : OnTree (List String)) stale =
        (.ok ["v/varlen_bytes.json", "v/typdex.json", "v/varlen_bytes.json"],
          after) ∧
      Written "v" kinds stale after ∧
      after.node? ⟨["work", "v", "notes"]⟩ = some (.file [1])) ∧
    (∃ after,
      (writeAll "../v" [.tag] : OnTree (List String)) Tree.empty =
        (.ok ["../v/typdex.json"], after) ∧
      Written "../v" [.tag] Tree.empty after ∧
      after.isDirectory "../v" = true ∧
      after.node? ⟨["work", "v"]⟩ = none) ∧
    (let blocked : Tree :=
      { working := ⟨["work"]⟩
        nodes := [(⟨["work", "varlen_bytes.json"]⟩, .directory)] }
    ∃ after,
      (writeAll "" [.tag, .bytes, .text] : OnTree (List String)) blocked =
        (.error (.inaccessible "varlen_bytes.json"), after) ∧
      Written "" [.tag] blocked after) := by
  refine ⟨?_, ?_, ?_⟩
  · intro stale kinds
    obtain ⟨outcome, after, ran, succeeds, ok, _⟩ :=
      directory_written_up_to_blocked "v" kinds stale
    have takes : ∀ kind,
        (stale.makeDirectories "v").2.Takes (path "v" kind) := fun kind =>
      ⟨⟨["work", "v", kind.fileName]⟩, by cases kind <;> rfl,
        by cases kind <;> decide⟩
    obtain ⟨paths, rfl⟩ := succeeds.mpr
      ⟨.inr (.of_isDirectory rfl), fun kind _ => takes kind⟩
    obtain ⟨rfl, _, written, _⟩ := ok paths rfl
    refine ⟨after, ran, written, (written.files _ _ ?_).mpr rfl⟩
    intro kind _ located
    have last := getLast?_of_location located
    cases kind <;> revert last <;> decide
  · obtain ⟨outcome, after, ran, succeeds, ok, _⟩ :=
      directory_written_up_to_blocked "../v" [.tag] Tree.empty
    have made : (Tree.empty.makeDirectories "../v").1 = .ok () := rfl
    have takes : ∀ kind, (Tree.empty.makeDirectories "../v").2.Takes
        (path "../v" kind) := fun kind =>
      ⟨⟨["v", kind.fileName]⟩, by cases kind <;> rfl,
        by cases kind <;> decide⟩
    obtain ⟨paths, rfl⟩ := succeeds.mpr
      ⟨Tree.makeDirectories_ok_iff.mp made, fun kind _ => takes kind⟩
    obtain ⟨rfl, there, written, _⟩ := ok paths rfl
    have apart : ∀ kind ∈ [Kind.tag],
        after.locate (path "../v" kind) ≠ .ok ⟨["work", "v"]⟩ := by
      intro kind _ located
      have last := getLast?_of_location located
      cases kind <;> revert last <;> decide
    have off : (⟨["work", "v"]⟩ : Location) ∉
        Tree.way (Tree.empty.start "../v") (Path.names "../v") := by
      decide
    refine ⟨after, ran, written, there.resolve_left (by decide), ?_⟩
    rcases written.elsewhere ⟨["work", "v"]⟩ apart with same | ⟨among, _⟩
    · rw [same]
      rfl
    · exact (off among).elim
  · intro blocked
    obtain ⟨outcome, after, ran, succeeds, _, failed⟩ :=
      directory_written_up_to_blocked "" [.tag, .bytes, .text] blocked
    have others : ∀ kind, kind ≠ .bytes →
        blocked.Takes (path "" kind) := fun kind other =>
      ⟨⟨["work", kind.fileName]⟩, by cases kind <;> rfl,
        by cases kind <;> revert other <;> decide⟩
    have bytes : ¬blocked.Takes (path "" .bytes) := by
      rintro ⟨location, located, free⟩
      have place : blocked.locate (path "" .bytes) =
          .ok ⟨["work", "varlen_bytes.json"]⟩ := rfl
      rw [place] at located
      cases located
      exact free rfl
    cases outcome with
    | ok paths =>
        have all := (succeeds.mp ⟨paths, rfl⟩).2
        exact (bytes (all .bytes (by decide))).elim
    | error error =>
        rcases failed error rfl with
          ⟨unmade, _⟩ |
            ⟨front, kind, behind, split, _, before, refuses, rfl, written⟩
        · exact (unmade (.inl rfl)).elim
        · have blocks : kind = .bytes := by
            by_contra other
            exact refuses (others kind other)
          subst blocks
          rcases front with _ | ⟨first, _ | ⟨second, front⟩⟩
          · cases split
          · cases split
            exact ⟨after, ran, written⟩
          · have same : second = .bytes :=
              (List.cons.inj (List.cons.inj split).2).1.symm
            subst same
            exact (bytes (before .bytes (by simp))).elim

end Writing

end VectorFile

end TagWire
