import TagWire.Files.Tree
import TagWire.Outcome
import TagWire.Proofs.Text.Utf8

/-!
# Files put into trees

A path leads through directories only, so a tree in which a file has been put
where no directory was has its paths as before.  The file is read where it was
put, everything else is where it was, and putting the same file there again
changes nothing.
-/

namespace TagWire

namespace Tree

variable {tree after : Tree} {location other : Location} {node : Node}
  {path : String} {bytes : List UInt8}

/-! ## Nodes -/

theorem isBase_put : (tree.put location node).isBase other =
    tree.isBase other := rfl

theorem find?_putIn (location : Location) (node : Node)
    (nodes : List (Location × Node)) :
    (putIn location node nodes).find? (fun entry => entry.1 = location) =
      some (location, node) := by
  induction nodes with
  | nil => simp [putIn]
  | cons entry rest induction =>
      by_cases here : entry.1 = location
      · simp [putIn, here]
      · simp [putIn, here, induction]

theorem find?_putIn_of_ne (different : other ≠ location) (node : Node)
    (nodes : List (Location × Node)) :
    (putIn location node nodes).find? (fun entry => entry.1 = other) =
      nodes.find? fun entry => entry.1 = other := by
  have apart : location ≠ other := different.symm
  induction nodes with
  | nil => simp [putIn, apart]
  | cons entry rest induction =>
      by_cases here : entry.1 = location
      · simp [putIn, here, apart]
      · by_cases there : entry.1 = other
        · simp [putIn, there, different]
        · simp [putIn, here, there, induction]

theorem putIn_of_find? {nodes : List (Location × Node)}
    (found : (nodes.find? fun entry => entry.1 = location).map Prod.snd =
      some node) : putIn location node nodes = nodes := by
  induction nodes with
  | nil => cases found
  | cons entry rest induction =>
      obtain ⟨place, there⟩ := entry
      by_cases here : place = location
      · subst here
        simp only [List.find?_cons, decide_true, Option.map_some,
          Option.some.injEq] at found
        simp [putIn, found]
      · simp only [List.find?_cons, here, decide_false] at found
        simp [putIn, here, induction found]

theorem node?_put (apart : tree.isBase location = false) :
    (tree.put location node).node? location = some node := by
  have below : ¬(tree.put location node).isBase location = true := by
    rw [isBase_put, apart]
    exact Bool.false_ne_true
  rw [node?, if_neg below, put, find?_putIn]
  rfl

theorem node?_put_of_ne (different : other ≠ location) :
    (tree.put location node).node? other = tree.node? other := by
  unfold node?
  rw [isBase_put, put, find?_putIn_of_ne different]

theorem put_of_node? (apart : tree.isBase location = false)
    (found : tree.node? location = some node) :
    tree.put location node = tree := by
  have below : ¬tree.isBase location = true := by
    rw [apart]
    exact Bool.false_ne_true
  rw [node?, if_neg below] at found
  rw [put, putIn_of_find? found]

theorem apart_of_not_directory (free : tree.node? location ≠ some .directory) :
    tree.isBase location = false :=
  Bool.eq_false_iff.mpr fun base => free (if_pos base)

/-- A path begins at a directory. -/
theorem node?_start (tree : Tree) (path : String) :
    tree.node? (tree.start path) = some .directory := by
  have base : tree.isBase (tree.start path) = true := by
    unfold start isBase
    split
    · exact List.isPrefixOf_iff_prefix.mpr List.nil_prefix
    · exact List.isPrefixOf_iff_prefix.mpr (List.prefix_refl _)
  exact if_pos base

/-! ## Ways -/

theorem step_ok_iff {name : String} {next : Location} :
    tree.step location name = .ok next ↔
      tree.node? location = some .directory ∧ Path.isShort name = true ∧
        next = location.enter name := by
  unfold step
  cases found : tree.node? location with
  | none => simp
  | some node =>
      cases node with
      | file content => simp
      | directory =>
          by_cases short : Path.isShort name = true
          · simp [short, eq_comm]
          · simp [short]

/-- A way that begins at a location and leads through names. -/
def Leads (tree : Tree) (location : Location) (names : List String)
    (last : Location) : Prop :=
  names.foldlM tree.step location = .ok last

theorem leads_cons_iff {name : String} {names : List String}
    {last : Location} :
    tree.Leads location (name :: names) last ↔
      ∃ next, tree.step location name = .ok next ∧
        tree.Leads next names last := bind_ok_iff

theorem leads_append_iff {front behind : List String} {last : Location} :
    tree.Leads location (front ++ behind) last ↔
      ∃ middle, tree.Leads location front middle ∧
        tree.Leads middle behind last := by
  rw [Leads, List.foldlM_append]
  exact bind_ok_iff

theorem locate_ok_iff :
    tree.locate path = .ok location ↔
      path ≠ "" ∧ Path.isSpeakable path = true ∧
        tree.Leads (tree.start path) (Path.names path) location := by
  unfold locate
  by_cases empty : path = ""
  · simp [empty]
  · by_cases speakable : Path.isSpeakable path = true
    · simp [empty, speakable, Leads]
    · simp [empty, speakable]

/-- Every directory of the one tree is one in the other, and paths begin at the
same ones. -/
structure Stays (tree after : Tree) : Prop where
  working : after.working = tree.working
  directory : ∀ location, tree.node? location = some .directory →
    after.node? location = some .directory

theorem Stays.refl (tree : Tree) : tree.Stays tree where
  working := rfl
  directory := fun _ directory => directory

theorem Stays.trans {middle : Tree} (first : tree.Stays middle)
    (second : middle.Stays after) : tree.Stays after where
  working := second.working.trans first.working
  directory := fun location directory =>
    second.directory location (first.directory location directory)

theorem Stays.start (stays : tree.Stays after) (path : String) :
    after.start path = tree.start path := by
  rw [Tree.start, Tree.start, stays.working]

theorem Stays.leads (stays : tree.Stays after) {names : List String}
    {last : Location} (leads : tree.Leads location names last) :
    after.Leads location names last := by
  induction names generalizing location with
  | nil => exact leads
  | cons name names induction =>
      obtain ⟨next, stepped, rest⟩ := leads_cons_iff.mp leads
      obtain ⟨directory, short⟩ := step_ok_iff.mp stepped
      refine leads_cons_iff.mpr ⟨next, ?_, induction rest⟩
      exact step_ok_iff.mpr ⟨stays.directory location directory, short⟩

theorem Stays.locate (stays : tree.Stays after)
    (located : tree.locate path = .ok location) :
    after.locate path = .ok location := by
  obtain ⟨spelled, speakable, leads⟩ := locate_ok_iff.mp located
  refine locate_ok_iff.mpr ⟨spelled, speakable, ?_⟩
  rw [stays.start]
  exact stays.leads leads

theorem isDirectory_iff :
    tree.isDirectory path = true ↔
      ∃ location, tree.locate path = .ok location ∧
        tree.node? location = some .directory := by
  unfold isDirectory
  cases tree.locate path <;> simp

theorem Stays.isDirectory (stays : tree.Stays after)
    (directory : tree.isDirectory path = true) :
    after.isDirectory path = true := by
  obtain ⟨location, located, found⟩ := isDirectory_iff.mp directory
  exact isDirectory_iff.mpr
    ⟨location, stays.locate located, stays.directory _ found⟩

/-! ## Files -/

/-- A file can be put where the path leads. -/
def Takes (tree : Tree) (path : String) : Prop :=
  ∃ location, tree.locate path = .ok location ∧
    tree.node? location ≠ some .directory

theorem read_ok_iff :
    tree.read path = .ok bytes ↔
      ∃ location, tree.locate path = .ok location ∧
        tree.node? location = some (.file bytes) := by
  rw [read, bind_ok_iff]
  refine exists_congr fun location => and_congr_right fun _ => ?_
  cases tree.node? location with
  | none => simp [throw, throwThe, MonadExceptOf.throw]
  | some node =>
      cases node <;>
        simp [throw, throwThe, MonadExceptOf.throw, pure, Except.pure]

theorem write_ok_iff :
    tree.write path bytes = .ok after ↔
      ∃ location, tree.locate path = .ok location ∧
        tree.node? location ≠ some .directory ∧
        after = tree.put location (.file bytes) := by
  rw [write, bind_ok_iff]
  refine exists_congr fun location => and_congr_right fun _ => ?_
  cases tree.node? location with
  | none => simp [pure, Except.pure, eq_comm]
  | some node =>
      cases node <;>
        simp [throw, throwThe, MonadExceptOf.throw, pure, Except.pure, eq_comm]

theorem takes_of_write (written : tree.write path bytes = .ok after) :
    tree.Takes path := by
  obtain ⟨location, located, free, _⟩ := write_ok_iff.mp written
  exact ⟨location, located, free⟩

theorem not_takes_of_error {error : AccessError}
    (refused : tree.write path bytes = .error error) : ¬tree.Takes path := by
  rintro ⟨location, located, free⟩
  have written : tree.write path bytes =
      .ok (tree.put location (.file bytes)) :=
    write_ok_iff.mpr ⟨location, located, free, rfl⟩
  rw [refused] at written
  cases written

/-- A file that is put takes the place of none but a file. -/
theorem put_stays (free : tree.node? location ≠ some .directory) :
    tree.Stays (tree.put location node) := by
  refine { working := rfl, directory := ?_ }
  intro other directory
  by_cases same : other = location
  · subst same
    exact (free directory).elim
  · rw [node?_put_of_ne same, directory]

section Writing

variable (written : tree.write path bytes = .ok after)

include written

theorem stays_of_write : tree.Stays after := by
  obtain ⟨location, _, free, rfl⟩ := write_ok_iff.mp written
  exact put_stays free

theorem stays_back_of_write : after.Stays tree := by
  obtain ⟨location, _, free, rfl⟩ := write_ok_iff.mp written
  refine { working := rfl, directory := ?_ }
  intro other directory
  by_cases same : other = location
  · subst same
    rw [node?_put (apart_of_not_directory free)] at directory
    cases directory
  · rwa [node?_put_of_ne same] at directory

theorem locate_iff_of_write {other : String} :
    after.locate other = .ok location ↔ tree.locate other = .ok location :=
  ⟨(stays_back_of_write written).locate, (stays_of_write written).locate⟩

theorem takes_iff_of_write {other : String} :
    after.Takes other ↔ tree.Takes other := by
  refine exists_congr fun location =>
    and_congr (locate_iff_of_write written) (not_congr ?_)
  exact ⟨(stays_back_of_write written).directory location,
    (stays_of_write written).directory location⟩

theorem read_of_write : after.read path = .ok bytes := by
  obtain ⟨location, located, free, rfl⟩ := write_ok_iff.mp written
  refine read_ok_iff.mpr ⟨location, (put_stays free).locate located, ?_⟩
  exact node?_put (apart_of_not_directory free)

theorem node?_of_write (elsewhere : tree.locate path ≠ .ok location) :
    after.node? location = tree.node? location := by
  obtain ⟨place, located, _, rfl⟩ := write_ok_iff.mp written
  apply node?_put_of_ne
  rintro rfl
  exact elsewhere located

end Writing

theorem write_of_read (reads : tree.read path = .ok bytes) :
    tree.write path bytes = .ok tree := by
  obtain ⟨location, located, found⟩ := read_ok_iff.mp reads
  have free : tree.node? location ≠ some .directory := by
    rw [found]
    exact nofun
  refine write_ok_iff.mpr ⟨location, located, free, ?_⟩
  exact (put_of_node? (apart_of_not_directory free) found).symm

/-! ## Trees as stores -/

/-- What accesses files, done in a tree. -/
abbrev Accessing (α : Type) : Type := ExceptT AccessError (StateM Tree) α

variable {text : String}

theorem makeDirectories_served {outcome : Except AccessError Unit}
    (served : tree.makeDirectories path = (outcome, after)) :
    (Store.makeDirectories path : Accessing Unit) tree = (outcome, after) :=
  served

/-- Reading a file leaves the tree as it is. -/
theorem readText_of_read (reads : tree.read path = .ok (Utf8.encode text)) :
    (Store.readText path : Accessing String) tree = (.ok text, tree) := by
  have served : (Store.read path : Accessing (List UInt8)) tree =
      (.ok (Utf8.encode text), tree) := congrArg (·, tree) reads
  refine (run_bind_ok served).trans ?_
  rw [Utf8.decode_encode]
  rfl

theorem writeText_of_write
    (written : tree.write path (Utf8.encode text) = .ok after) :
    (Store.writeText path text : Accessing Unit) tree = (.ok (), after) := by
  simp only [Store.writeText, Store.write, ExceptT.mk, written]

theorem writeText_of_error {error : AccessError}
    (blocked : tree.write path (Utf8.encode text) = .error error) :
    (Store.writeText path text : Accessing Unit) tree =
      (.error error, tree) := by
  simp only [Store.writeText, Store.write, ExceptT.mk, blocked]

end Tree

end TagWire
