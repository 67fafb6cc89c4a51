import TagWire.Proofs.Files.Directories
import TagWire.Proofs.Toml.Documents
import TagWire.Settings

/-!
# Settings are kept

A file of settings says some of the settings, and the usual ones stand for the
others.  Saved settings are said as a whole, so loading them gives them back, and
saving what has been loaded changes nothing any more.
-/

namespace TagWire

open Toml

theorem Kind.ofName?_name (kind : Kind) :
    Kind.ofName? kind.name = some kind := by
  cases kind <;> decide

namespace Settings

/-! ## Some of the settings -/

/-- The settings that have been said, which need not be all. -/
structure Part where
  directory? : Option String
  kinds? : Option (List Kind)
  logLevel? : Option String

namespace Part

variable (part : Part)

/-- The settings with the usual ones in place of those that are missing. -/
def complete : Settings :=
  { directory := part.directory?.getD usual.directory
    kinds := part.kinds?.getD usual.kinds
    logLevel := part.logLevel?.getD usual.logLevel }

/-- All of the settings. -/
def whole (settings : Settings) : Part :=
  { directory? := some settings.directory
    kinds? := some settings.kinds
    logLevel? := some settings.logLevel }

theorem complete_whole (settings : Settings) :
    (whole settings).complete = settings := rfl

/-- The list of the names of kinds. -/
def names (kinds : List Kind) : Toml.Value :=
  .array (kinds.map fun kind => .text kind.name)

/-- A table in which the settings of the part are said and the others are not.
There may be other keys in it. -/
structure SaidBy (entries : Entries) : Prop where
  directory : entries.get? "fixture_dir" = part.directory?.map .text
  kinds : entries.get? "files" = part.kinds?.map names
  logLevel : entries.get? "log_level" = part.logLevel?.map .text

/-- The lines that say the part. -/
def lines : List Line :=
  (part.directory?.map
      (Line.ofText "fixture_dir" ⟨by decide, by decide⟩)).toList
    ++ (part.kinds?.map fun kinds =>
      Line.ofTexts "files" ⟨by decide, by decide⟩
        (kinds.map Kind.name)).toList
    ++ (part.logLevel?.map
      (Line.ofText "log_level" ⟨by decide, by decide⟩)).toList

end Part

/-! ## Reading -/

variable {part : Part} {entries : Entries}

theorem kinds?_names (kinds : List Kind) :
    kinds? (Part.names kinds) = some kinds :=
  mapM_restores fun kind _ => kind.ofName?_name

theorem setting?_map {α : Type} {key : String} {content? : Option α}
    {write : α → Toml.Value} {read? : Toml.Value → Option α}
    (said : entries.get? key = content?.map write)
    (restores : ∀ content, read? (write content) = some content) (usual : α) :
    setting? entries key read? usual = some (content?.getD usual) := by
  unfold setting?
  rw [said]
  cases content? with
  | none => rfl
  | some content => exact restores content

theorem ofEntries?_of_said (said : part.SaidBy entries) :
    ofEntries? entries = some part.complete := by
  unfold ofEntries?
  rw [setting?_map said.directory fun _ => rfl,
    setting?_map said.kinds kinds?_names,
    setting?_map said.logLevel fun _ => rfl]
  rfl

theorem parse_of_said {text : String} (read : Toml.parse text = some entries)
    (said : part.SaidBy entries) : parse text = some part.complete := by
  rw [parse, read]
  exact ofEntries?_of_said said

namespace Part

theorem keys_distinct (part : Part) : (part.lines.map Line.key).Nodup := by
  rcases part with ⟨_ | directory, _ | kinds, _ | logLevel⟩ <;>
    simp [lines, Line.ofText, Line.ofTexts]

theorem saidBy_lines (part : Part) :
    part.SaidBy (part.lines.map Line.entry) := by
  rcases part with ⟨_ | directory, _ | kinds, _ | logLevel⟩ <;>
    constructor <;>
    simp [lines, Line.ofText, Line.ofTexts, Line.entry, Entries.get?, names]

/-- The lines of the part say it in any order. -/
theorem said_in_any_order {lines : List Line} (same : lines.Perm part.lines) :
    ∃ entries,
      Toml.parse (String.ofList (lines.flatMap Line.print)) = some entries ∧
        part.SaidBy entries := by
  have distinct : (lines.map Line.key).Nodup :=
    (same.map Line.key).nodup_iff.mpr part.keys_distinct
  have said := part.saidBy_lines
  have found : ∀ key, Entries.get? (lines.map Line.entry) key =
      Entries.get? (part.lines.map Line.entry) key := by
    apply get?_of_perm (same.map Line.entry)
    rw [List.map_map]
    exact distinct
  refine ⟨_, parse_lines distinct, ?_⟩
  exact
    { directory := (found _).trans said.directory
      kinds := (found _).trans said.kinds
      logLevel := (found _).trans said.logLevel }

end Part

theorem render_eq (settings : Settings) :
    settings.render =
      String.ofList ((Part.whole settings).lines.flatMap Line.print) := by
  simp [render, Part.whole, Part.lines, Line.ofText, Line.ofTexts, Line.print]

theorem parse_render (settings : Settings) :
    parse settings.render = some settings := by
  obtain ⟨entries, read, said⟩ :=
    (Part.whole settings).said_in_any_order (.refl _)
  rw [render_eq, parse_of_said read said, Part.complete_whole]

/-! ## Loading and saving -/

/-- What is done with files of settings, done in a tree. -/
abbrev OnTree (α : Type) : Type := ExceptT SettingsError (StateM Tree) α

section Files

variable {path : String} {settings : Settings} {tree made after : Tree}

theorem load_of_read {text : String}
    (reads : tree.read path = .ok (Utf8.encode text)) :
    (load path : OnTree Settings) tree = (ofFile path (.ok text), tree) :=
  congrArg (fun served : Except AccessError String × Tree =>
    (ofFile path served.1, served.2)) (Tree.readText_of_read reads)

theorem load_of_parse {text : String}
    (reads : tree.read path = .ok (Utf8.encode text))
    (parses : parse text = some settings) :
    (load path : OnTree Settings) tree = (.ok settings, tree) := by
  rw [load_of_read reads, ofFile, parses]

/-- Makes the directory that a path is in, unless it names none. -/
def makeParent (tree : Tree) (path : String) :
    Except AccessError Unit × Tree :=
  (Path.parent? path).elim (.ok (), tree) tree.makeDirectories

theorem save_of_made (served : makeParent tree path = (.ok (), made)) :
    (save path settings : OnTree Unit) tree =
      ((Store.writeText path settings.render).adapt
        fun _ => .inaccessible path : OnTree Unit) made := by
  unfold makeParent at served
  unfold save
  cases parent : Path.parent? path with
  | none =>
      rw [parent] at served
      cases served
      exact run_bind_ok rfl
  | some directory =>
      rw [parent] at served
      exact run_bind_ok (run_adapt (Tree.makeDirectories_served served) _)

theorem save_of_unmade (settings : Settings) {error : AccessError}
    (served : makeParent tree path = (.error error, made)) :
    ∃ directory, (save path settings : OnTree Unit) tree =
      (.error (.inaccessible directory), made) := by
  unfold makeParent at served
  unfold save
  cases parent : Path.parent? path with
  | none =>
      rw [parent] at served
      cases served
  | some directory =>
      rw [parent] at served
      exact ⟨directory,
        run_bind_error (run_adapt (Tree.makeDirectories_served served) _)⟩

theorem save_of_write (served : makeParent tree path = (.ok (), made))
    (written : made.write path (Utf8.encode settings.render) = .ok after) :
    (save path settings : OnTree Unit) tree = (.ok (), after) := by
  rw [save_of_made served]
  exact run_adapt (Tree.writeText_of_write written) _

theorem save_of_blocked {error : AccessError}
    (served : makeParent tree path = (.ok (), made))
    (blocked : made.write path (Utf8.encode settings.render) =
      .error error) :
    (save path settings : OnTree Unit) tree =
      (.error (.inaccessible path), made) := by
  rw [save_of_made served]
  exact run_adapt (Tree.writeText_of_error blocked) _

/-- The directory of a path can be made, and a file can be put there then. -/
def Writable (tree : Tree) (path : String) : Prop :=
  ∃ made, makeParent tree path = (.ok (), made) ∧ made.Takes path

/-- A directory that was made for a file is there when the file is. -/
theorem makeParent_again {bytes : List UInt8}
    (served : makeParent tree path = (.ok (), made))
    (written : made.write path bytes = .ok after) :
    makeParent after path = (.ok (), after) := by
  unfold makeParent at served ⊢
  cases parent : Path.parent? path with
  | none => rfl
  | some directory =>
      rw [parent] at served
      have there := Tree.isDirectory_of_makeDirectories served
      exact Tree.makeDirectories_of_directory
        (there.imp id (Tree.stays_of_write written).isDirectory)

theorem read_makeParent {bytes : List UInt8}
    (reads : tree.read path = .ok bytes) :
    (makeParent tree path).2.read path = .ok bytes := by
  unfold makeParent
  cases Path.parent? path with
  | none => exact reads
  | some directory => exact (tree.makeDirectories_grown directory).read reads

/-- Loads settings and saves them, as many times as are asked for. -/
def resave (path : String) : (times : Nat) → OnTree Unit
  | 0 => pure ()
  | times + 1 => do
    save path (← load path)
    resave path times

theorem resave_unchanged
    (loads : (load path : OnTree Settings) tree = (.ok settings, tree))
    (saves : (save path settings : OnTree Unit) tree = (.ok (), tree))
    (times : Nat) : resave path times tree = (.ok (), tree) := by
  induction times with
  | zero => rfl
  | succ times induction =>
      exact (run_bind_ok loads).trans ((run_bind_ok saves).trans induction)

/-- Whatever else has become of the tree, the file stays as it is. -/
theorem read_resave
    (reads : tree.read path = .ok (Utf8.encode settings.render))
    (times : Nat) :
    (resave path times tree).2.read path =
      .ok (Utf8.encode settings.render) := by
  induction times generalizing tree with
  | zero => exact reads
  | succ times induction =>
      have loads := load_of_parse reads (parse_render settings)
      -- No file changes on the way, whether or not the directory can be made.
      have stays := read_makeParent reads
      have ran : resave path (times + 1) tree =
          ((save path settings : OnTree Unit) >>= fun _ =>
            resave path times) tree := run_bind_ok loads
      rw [ran]
      cases served : makeParent tree path with
      | mk answer made =>
          rw [served] at stays
          cases answer with
          | error error =>
              obtain ⟨directory, refused⟩ := save_of_unmade settings served
              rw [run_bind_error refused]
              exact stays
          | ok answer =>
              have saves : (save path settings : OnTree Unit) tree =
                  (.ok (), made) :=
                save_of_write served (Tree.write_of_read stays)
              rw [run_bind_ok saves]
              exact induction stays

/-- The settings are in a file, and saving them has nothing left to do. -/
structure Kept (path : String) (settings : Settings) (tree : Tree) :
    Prop where
  reads : tree.read path = .ok (Utf8.encode settings.render)
  loads : (load path : OnTree Settings) tree = (.ok settings, tree)
  saves : (save path settings : OnTree Unit) tree = (.ok (), tree)
  resaves : ∀ times, resave path times tree = (.ok (), tree)

theorem kept_of_write (served : makeParent tree path = (.ok (), made))
    (written : made.write path (Utf8.encode settings.render) = .ok after) :
    Kept path settings after := by
  have reads := Tree.read_of_write written
  have loads := load_of_parse reads (parse_render settings)
  have saves : (save path settings : OnTree Unit) after = (.ok (), after) :=
    save_of_write (makeParent_again served written) (Tree.write_of_read reads)
  exact
    { reads, loads, saves
      resaves := resave_unchanged loads saves }

/-- Saving succeeds where it can be done, and only there; what it saved is
kept. -/
theorem save_outcome (path : String) (settings : Settings) (tree : Tree) :
    ∃ outcome after,
      (save path settings : OnTree Unit) tree = (outcome, after) ∧
        (outcome = .ok () ↔ Writable tree path) ∧
        (outcome = .ok () → Kept path settings after) := by
  cases served : makeParent tree path with
  | mk answer made =>
      cases answer with
      | error error =>
          obtain ⟨directory, refused⟩ := save_of_unmade settings served
          refine ⟨_, made, refused, ⟨nofun, ?_⟩, nofun⟩
          rintro ⟨other, again, _⟩
          rw [served] at again
          cases again
      | ok answer =>
          cases written : made.write path (Utf8.encode settings.render) with
          | error error =>
              refine ⟨_, made, save_of_blocked served written,
                ⟨nofun, ?_⟩, nofun⟩
              rintro ⟨other, again, takes⟩
              rw [served] at again
              cases again
              exact (Tree.not_takes_of_error written takes).elim
          | ok after =>
              refine ⟨_, after, save_of_write served written,
                ⟨fun _ => ?_, fun _ => rfl⟩, fun _ => ?_⟩
              · exact ⟨made, served, Tree.takes_of_write written⟩
              · exact kept_of_write served written

/-- Saving succeeds wherever a path can be written, and loading what was saved
gives it back.  From then on, loading and saving in turn leaves the file as it
is, and the whole tree if nothing else has changed it.  From a file that says
some of the settings, in whatever order, these are loaded, and the usual ones
for the others. -/
theorem settings_kept_and_completed (path : String) (tree : Tree) :
    (∀ settings, ∃ outcome after,
      (save path settings : OnTree Unit) tree = (outcome, after) ∧
        (outcome = .ok () ↔ Writable tree path) ∧
        (outcome = .ok () → Kept path settings after)) ∧
    (∀ settings, tree.read path = .ok (Utf8.encode settings.render) →
      (load path : OnTree Settings) tree = (.ok settings, tree) ∧
        ∀ times, (resave path times tree).2.read path =
          .ok (Utf8.encode settings.render)) ∧
    (∀ (part : Part) (text : String) (entries : Entries),
      tree.read path = .ok (Utf8.encode text) →
      Toml.parse text = some entries → part.SaidBy entries →
        (load path : OnTree Settings) tree = (.ok part.complete, tree)) ∧
    (∀ (part : Part) (lines : List Line), lines.Perm part.lines →
      tree.read path =
          .ok (Utf8.encode (String.ofList (lines.flatMap Line.print))) →
        (load path : OnTree Settings) tree = (.ok part.complete, tree)) := by
  refine ⟨fun settings => save_outcome path settings tree, ?_, ?_, ?_⟩
  · intro settings reads
    exact ⟨load_of_parse reads (parse_render settings), read_resave reads⟩
  · intro part text entries reads parses said
    exact load_of_parse reads (parse_of_said parses said)
  · intro part lines same reads
    obtain ⟨entries, parses, said⟩ := Part.said_in_any_order same
    exact load_of_parse reads (parse_of_said parses said)

/-- Texts that have to be escaped and kinds that repeat are kept, also where the
directory has to be made.  Where they are, in whatever company, they stay.  A
file that says the kinds besides a key that is no setting, and one that says all
but the kinds from the last to the first, are completed. -/
theorem escaped_kept_and_parts_completed :
    (let settings : Settings :=
      ⟨"a\"\"\"b\\c'''\n\r\x01\x7F\té𝕏", [.tag, .text, .tag], ""⟩
    let bytes := Utf8.encode settings.render
    let crowd : Tree :=
      ⟨⟨["work"]⟩, [(⟨["work", "b.toml"]⟩, .file bytes), (⟨["c"]⟩, .directory)]⟩
    (∃ after,
      (save "a/b.toml" settings : OnTree Unit) Tree.empty = (.ok (), after) ∧
        Kept "a/b.toml" settings after) ∧
      (load "b.toml" : OnTree Settings) crowd = (.ok settings, crowd) ∧
      ∀ times, (resave "b.toml" times crowd).2.read "b.toml" = .ok bytes) ∧
    (let lines : List Line :=
      [.ofText "other" ⟨by decide, by decide⟩ "x",
        .ofTexts "files" ⟨by decide, by decide⟩ ["typdex", "varlen_strings"]]
    let text := String.ofList (lines.flatMap Line.print)
    let tree : Tree :=
      ⟨⟨["work"]⟩, [(⟨["work", "b.toml"]⟩, .file (Utf8.encode text))]⟩
    (load "b.toml" : OnTree Settings) tree =
      (.ok { usual with kinds := [.tag, .text] }, tree)) ∧
    (let part : Part := ⟨some "\"", none, some ""⟩
    let text := String.ofList (part.lines.reverse.flatMap Line.print)
    let tree : Tree :=
      ⟨⟨["work"]⟩, [(⟨["work", "b.toml"]⟩, .file (Utf8.encode text))]⟩
    (load "b.toml" : OnTree Settings) tree =
      (.ok ⟨"\"", Kind.all, ""⟩, tree)) := by
  refine ⟨?_, ?_, ?_⟩
  · intro settings bytes crowd
    refine ⟨?_, (settings_kept_and_completed "b.toml" crowd).2.1 settings rfl⟩
    obtain ⟨outcome, after, saved, writable, kept⟩ :=
      (settings_kept_and_completed "a/b.toml" Tree.empty).1 settings
    have done : outcome = .ok () := by
      refine writable.mpr
        ⟨⟨⟨["work"]⟩, [(⟨["work", "a"]⟩, .directory)]⟩, rfl, ?_⟩
      exact ⟨⟨["work", "a", "b.toml"]⟩, rfl, nofun⟩
    exact ⟨after, done ▸ saved, kept done⟩
  · intro lines text tree
    have parses : Toml.parse text = some (lines.map Line.entry) :=
      parse_lines (by decide)
    exact (settings_kept_and_completed "b.toml" tree).2.2.1
      ⟨none, some [.tag, .text], none⟩ text _ rfl parses ⟨rfl, rfl, rfl⟩
  · intro part text tree
    exact (settings_kept_and_completed "b.toml" tree).2.2.2 part
      part.lines.reverse part.lines.reverse_perm rfl

end Files

end Settings

end TagWire
