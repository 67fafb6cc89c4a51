import Mathlib.Data.List.TakeWhile
import TagWire.Proofs.Files.Tree

/-!
# Directories made and entered

Making a directory adds directories on its way, where nothing was, and changes
nothing else, also if the way ends early.  It ends early exactly if a file is on
it or a name is too long.  Where it does not, the directory is there, so making
it again does nothing.  What is joined to a directory is in it under its name.
-/

namespace TagWire

namespace Path

/-! ## Names -/

theorem cut_ne_nil (text : List Char) : cut text ≠ [] := by
  cases text with
  | nil => exact nofun
  | cons char rest =>
      rw [cut]
      split
      · exact nofun
      · cases cut rest <;> exact nofun

theorem cut_append (front behind : List Char) :
    cut (front ++ '/' :: behind) = cut front ++ cut behind := by
  induction front with
  | nil => rfl
  | cons char front induction =>
      rw [List.cons_append, cut, cut, induction]
      by_cases slash : char = '/'
      · rw [if_pos slash, if_pos slash, List.cons_append]
      · rw [if_neg slash, if_neg slash]
        cases whole : cut front with
        | nil => exact (cut_ne_nil front whole).elim
        | cons name names => rfl

theorem cut_of_plain {text : List Char} (plain : '/' ∉ text) :
    cut text = [text] := by
  induction text with
  | nil => rfl
  | cons char text induction =>
      have slash : char ≠ '/' := fun same =>
        plain (same ▸ List.mem_cons_self)
      have behind := induction fun member =>
        plain (List.mem_cons_of_mem _ member)
      rw [cut, if_neg slash, behind]

/-- A name without a slash is the last one of what it is joined to. -/
theorem names_join {name : String} (plain : '/' ∉ name.toList)
    (directory : String) :
    ∃ front, names (join directory name) = front ++ [name] := by
  have alone : (cut name.toList).map String.ofList = [name] := by
    rw [cut_of_plain plain, List.map_singleton, String.ofList_toList]
  unfold join names
  split
  · rename_i ends
    rcases ends with rfl | closed
    · exact ⟨[], by rw [String.empty_append, alone]; rfl⟩
    · obtain ⟨front, whole⟩ := List.getLast?_eq_some_iff.mp closed
      refine ⟨(cut front).map String.ofList, ?_⟩
      rw [String.toList_append, whole, List.append_assoc,
        List.singleton_append, cut_append, List.map_append, alone]
  · refine ⟨(cut directory.toList).map String.ofList, ?_⟩
    rw [String.toList_append, String.toList_append, List.append_assoc]
    have slash : "/".toList ++ name.toList = '/' :: name.toList := rfl
    rw [slash, cut_append, List.map_append, alone]

theorem dropVoid_append (names : List String) :
    ∃ void, names = dropVoid names ++ void ∧
      ∀ name ∈ void, isVoid name = true := by
  refine ⟨(names.reverse.takeWhile isVoid).reverse, ?_, ?_⟩
  · rw [dropVoid, ← List.reverse_append, List.takeWhile_append_dropWhile,
      List.reverse_reverse]
  · intro name member
    exact List.mem_takeWhile_imp (List.mem_reverse.mp member)

theorem isShort_of_isVoid {name : String} (void : isVoid name = true) :
    isShort name = true := by
  simp only [isVoid, Bool.or_eq_true, beq_iff_eq] at void
  rcases void with rfl | rfl
  · decide
  · decide

end Path

namespace Tree

variable {tree after : Tree} {location last : Location}
  {names : List String} {path : String}

/-- What is joined to a directory is at its name, in the place that the front of
the path leads to. -/
theorem locate_join {directory name : String} (plain : '/' ∉ name.toList)
    (leading : Path.isVoid name = false ∧ name ≠ "..")
    (located : tree.locate (Path.join directory name) = .ok location) :
    ∃ base : Location, location = { names := base.names ++ [name] } := by
  obtain ⟨front, split⟩ := Path.names_join plain directory
  obtain ⟨_, _, leads⟩ := locate_ok_iff.mp located
  rw [split] at leads
  obtain ⟨base, _, final⟩ := leads_append_iff.mp leads
  obtain ⟨next, stepped, done⟩ := leads_cons_iff.mp final
  obtain ⟨_, _, rfl⟩ := step_ok_iff.mp stepped
  cases done
  exact ⟨base, by simp [Location.enter, leading]⟩

/-! ## The way to a directory -/

/-- The locations that names lead through. -/
def way (location : Location) : List String → List Location
  | [] => []
  | name :: names => location.enter name :: way (location.enter name) names

theorem way_append (location : Location) (front behind : List String) :
    way location (front ++ behind) =
      way location front ++
        way (front.foldl Location.enter location) behind := by
  induction front generalizing location with
  | nil => rfl
  | cons name front induction =>
      rw [List.cons_append, way, induction, way, List.foldl_cons,
        List.cons_append]

theorem way_subset_append (location : Location) (front behind : List String) :
    way location front ⊆ way location (front ++ behind) := by
  rw [way_append]
  exact List.subset_append_left _ _

theorem way_dropLast_subset (location : Location) (names : List String) :
    way location names.dropLast ⊆ way location names := by
  obtain ⟨own, split⟩ := List.dropLast_prefix names
  have shorter := way_subset_append location names.dropLast own
  rwa [split] at shorter

theorem foldl_enter_mem_way (location : Location) (names : List String) :
    names.foldl Location.enter location ∈ location :: way location names := by
  induction names generalizing location with
  | nil => exact List.mem_cons_self
  | cons name names induction =>
      exact List.mem_cons_of_mem _ (induction (location.enter name))

/-- Names lead from directory to directory exactly if none of them is too long
and all that is on the way is directories. -/
theorem leads_directory_iff :
    (tree.Leads location names last ∧
        tree.node? last = some .directory) ↔
      last = names.foldl Location.enter location ∧
        (∀ name ∈ names, Path.isShort name = true) ∧
        ∀ place ∈ location :: way location names,
          tree.node? place = some .directory := by
  induction names generalizing location with
  | nil =>
      have arrived : tree.Leads location [] last ↔ last = location := by
        constructor
        · intro leads
          cases leads
          rfl
        · rintro rfl
          rfl
      rw [arrived]
      constructor
      · rintro ⟨rfl, directory⟩
        simpa [way] using directory
      · rintro ⟨rfl, _, directories⟩
        exact ⟨rfl, directories last List.mem_cons_self⟩
  | cons name names induction =>
      rw [leads_cons_iff]
      constructor
      · rintro ⟨⟨next, stepped, leads⟩, directory⟩
        obtain ⟨begins, short, rfl⟩ := step_ok_iff.mp stepped
        obtain ⟨same, others, directories⟩ :=
          induction.mp ⟨leads, directory⟩
        exact ⟨same, List.forall_mem_cons.mpr ⟨short, others⟩,
          List.forall_mem_cons.mpr ⟨begins, directories⟩⟩
      · rintro ⟨same, short, directories⟩
        obtain ⟨first, others⟩ := List.forall_mem_cons.mp short
        obtain ⟨begins, behind⟩ := List.forall_mem_cons.mp directories
        obtain ⟨leads, directory⟩ := induction.mpr ⟨same, others, behind⟩
        have stepped := step_ok_iff.mpr ⟨begins, first, rfl⟩
        exact ⟨⟨_, stepped, leads⟩, directory⟩

/-- Names that lead nowhere stay where they begin. -/
theorem eq_of_mem_way_of_void {void : List String}
    (nowhere : ∀ name ∈ void, Path.isVoid name = true) :
    ∀ place ∈ way location void, place = location := by
  induction void with
  | nil => exact fun place member => (List.not_mem_nil member).elim
  | cons name void induction =>
      obtain ⟨first, others⟩ := List.forall_mem_cons.mp nowhere
      have stayed : location.enter name = location := if_pos first
      rw [way, stayed]
      exact List.forall_mem_cons.mpr ⟨rfl, induction others⟩

/-- Whether a path is a directory is decided up to its last name that leads
somewhere. -/
theorem isDirectory_iff_way :
    tree.isDirectory path = true ↔
      path ≠ "" ∧ Path.isSpeakable path = true ∧
        (∀ name ∈ Path.dropVoid (Path.names path),
          Path.isShort name = true) ∧
        ∀ place ∈ way (tree.start path) (Path.dropVoid (Path.names path)),
          tree.node? place = some .directory := by
  obtain ⟨void, split, nowhere⟩ := Path.dropVoid_append (Path.names path)
  generalize Path.dropVoid (Path.names path) = known at split ⊢
  have begins := tree.node?_start path
  constructor
  · intro directory
    obtain ⟨last, located, found⟩ := isDirectory_iff.mp directory
    obtain ⟨spelled, speakable, leads⟩ := locate_ok_iff.mp located
    obtain ⟨_, short, directories⟩ := leads_directory_iff.mp ⟨leads, found⟩
    rw [split] at short directories
    refine ⟨spelled, speakable, fun name member =>
      short name (List.mem_append_left _ member), fun place member => ?_⟩
    exact directories place
      (List.mem_cons_of_mem _ (way_subset_append _ _ _ member))
  · rintro ⟨spelled, speakable, short, directories⟩
    have front : ∀ place ∈ tree.start path :: way (tree.start path) known,
        tree.node? place = some .directory :=
      List.forall_mem_cons.mpr ⟨begins, directories⟩
    have shortAll : ∀ name ∈ Path.names path, Path.isShort name = true := by
      rw [split]
      intro name member
      rcases List.mem_append.mp member with before | behind
      · exact short name before
      · exact Path.isShort_of_isVoid (nowhere name behind)
    have all : ∀ place ∈ tree.start path ::
        way (tree.start path) (Path.names path),
        tree.node? place = some .directory := by
      rw [split, way_append, ← List.cons_append]
      intro place member
      rcases List.mem_append.mp member with before | behind
      · exact front place before
      · rw [eq_of_mem_way_of_void nowhere place behind]
        exact front _ (foldl_enter_mem_way _ _)
    obtain ⟨leads, found⟩ := leads_directory_iff.mpr ⟨rfl, shortAll, all⟩
    exact isDirectory_iff.mpr
      ⟨_, locate_ok_iff.mpr ⟨spelled, speakable, leads⟩, found⟩

/-! ## Growing -/

/-- The trees differ by directories at some locations where nothing was. -/
structure Grown (places : List Location) (tree after : Tree) : Prop where
  working : after.working = tree.working
  nodes : ∀ location, after.node? location = tree.node? location ∨
    (location ∈ places ∧ tree.node? location = none ∧
      after.node? location = some .directory)

namespace Grown

variable {places more : List Location}

theorem refl (places : List Location) (tree : Tree) :
    Grown places tree tree where
  working := rfl
  nodes := fun _ => .inl rfl

theorem trans {middle : Tree} (first : Grown places tree middle)
    (second : Grown places middle after) : Grown places tree after where
  working := second.working.trans first.working
  nodes := by
    intro location
    rcases second.nodes location with same | ⟨place, missing, made⟩
    · rw [same]
      exact first.nodes location
    · rcases first.nodes location with same | ⟨_, _, earlier⟩
      · rw [same] at missing
        exact .inr ⟨place, missing, made⟩
      · rw [earlier] at missing
        cases missing

theorem mono (grown : Grown places tree after) (among : places ⊆ more) :
    Grown more tree after where
  working := grown.working
  nodes := by
    intro location
    rcases grown.nodes location with same | ⟨place, made⟩
    · exact .inl same
    · exact .inr ⟨among place, made⟩

theorem stays (grown : Grown places tree after) : tree.Stays after where
  working := grown.working
  directory := by
    intro location directory
    rcases grown.nodes location with same | ⟨_, missing, _⟩
    · rw [same, directory]
    · rw [directory] at missing
      cases missing

theorem put (place : location ∈ places)
    (missing : tree.node? location = none) :
    Grown places tree (tree.put location .directory) where
  working := rfl
  nodes := by
    intro other
    by_cases same : other = location
    · subst same
      have apart : tree.isBase other = false :=
        apart_of_not_directory (by rw [missing]; exact nofun)
      exact .inr ⟨place, missing, node?_put apart⟩
    · exact .inl (node?_put_of_ne same)

theorem file_iff (grown : Grown places tree after) (content : List UInt8) :
    after.node? location = some (.file content) ↔
      tree.node? location = some (.file content) := by
  rcases grown.nodes location with same | ⟨_, missing, made⟩
  · rw [same]
  · rw [missing, made]
    simp

theorem read {bytes : List UInt8} (grown : Grown places tree after)
    (reads : tree.read path = .ok bytes) : after.read path = .ok bytes := by
  obtain ⟨location, located, found⟩ := read_ok_iff.mp reads
  exact read_ok_iff.mpr
    ⟨location, grown.stays.locate located, (grown.file_iff bytes).mpr found⟩

end Grown

/-! ## Making directories -/

/-- A step makes its directory unless something is there. -/
theorem makeAlong_cons {name : String} {next : Location}
    (stepped : tree.step location name = .ok next) (names : List String) :
    ∃ middle, Grown [next] tree middle ∧ middle.node? next ≠ none ∧
      makeAlong location (name :: names) tree =
        makeAlong next names middle := by
  cases found : tree.node? next with
  | none =>
      refine ⟨_, .put List.mem_cons_self found, ?_, ?_⟩
      · have apart : tree.isBase next = false :=
          apart_of_not_directory (by rw [found]; exact nofun)
        rw [node?_put apart]
        exact nofun
      · simp only [makeAlong, stepped, found]
  | some node =>
      refine ⟨tree, .refl _ _, by rw [found]; exact nofun, ?_⟩
      simp only [makeAlong, stepped, found]

theorem makeAlong_grown (location : Location) (names : List String)
    (tree : Tree) :
    Grown (way location names) tree (makeAlong location names tree).2 := by
  induction names generalizing location tree with
  | nil =>
      rw [makeAlong]
      split <;> exact .refl _ _
  | cons name names induction =>
      cases stepped : tree.step location name with
      | error error =>
          simp only [makeAlong, stepped]
          exact .refl _ _
      | ok next =>
          obtain ⟨middle, first, _, same⟩ := makeAlong_cons stepped names
          obtain ⟨_, _, rfl⟩ := step_ok_iff.mp stepped
          rw [same]
          have rest := induction (location.enter name) middle
          exact (first.mono (List.cons_subset_cons _ (List.nil_subset _))).trans
            (rest.mono (List.subset_cons_self _ _))

/-- Names can be gone along if directories are made where nothing is: they begin
at a directory, none is too long, and no file is on the way. -/
structure Open (tree : Tree) (location : Location) (names : List String) :
    Prop where
  begins : tree.node? location = some .directory
  short : ∀ name ∈ names, Path.isShort name = true
  free : ∀ place ∈ way location names, ∀ content,
    tree.node? place ≠ some (.file content)

theorem open_nil_iff :
    tree.Open location [] ↔ tree.node? location = some .directory := by
  constructor
  · exact Open.begins
  · intro begins
    exact { begins, short := by simp, free := by simp [way] }

/-- After one step the rest of the way is open exactly if all of it was. -/
theorem open_cons_iff {name : String} {middle : Tree} {places : List Location}
    (begins : tree.node? location = some .directory)
    (short : Path.isShort name = true)
    (grown : Grown places tree middle)
    (there : middle.node? (location.enter name) ≠ none) :
    tree.Open location (name :: names) ↔
      middle.Open (location.enter name) names := by
  have files : ∀ {place : Location},
      (∀ content, tree.node? place ≠ some (.file content)) ↔
        ∀ content, middle.node? place ≠ some (.file content) :=
    forall_congr' fun content => not_congr (grown.file_iff content).symm
  constructor
  · rintro ⟨_, shortAll, free⟩
    obtain ⟨first, others⟩ := List.forall_mem_cons.mp free
    refine { begins := ?_, short := ?_, free := ?_ }
    · cases found : middle.node? (location.enter name) with
      | none => exact (there found).elim
      | some node =>
          cases node with
          | directory => rfl
          | file content => exact (files.mp first content found).elim
    · exact (List.forall_mem_cons.mp shortAll).2
    · exact fun place member => files.mp (others place member)
  · rintro ⟨directory, others, free⟩
    refine { begins, short := ?_, free := ?_ }
    · exact List.forall_mem_cons.mpr ⟨short, others⟩
    · refine List.forall_mem_cons.mpr ⟨files.mpr fun content found => ?_, ?_⟩
      · rw [directory] at found
        cases found
      · exact fun place member => files.mpr (free place member)

/-- Directories are made along names exactly if these can be gone along. -/
theorem makeAlong_ok_iff :
    (makeAlong location names tree).1 = .ok () ↔
      tree.Open location names := by
  induction names generalizing location tree with
  | nil =>
      rw [open_nil_iff, makeAlong]
      split
      · rename_i directory
        simp [directory]
      · rename_i other
        constructor
        · nofun
        · exact fun directory => (other directory).elim
  | cons name names induction =>
      cases stepped : tree.step location name with
      | error error =>
          simp only [makeAlong, stepped]
          constructor
          · nofun
          · intro opens
            have short := opens.short name List.mem_cons_self
            have goes : tree.step location name =
                .ok (location.enter name) :=
              step_ok_iff.mpr ⟨opens.begins, short, rfl⟩
            rw [stepped] at goes
            cases goes
      | ok next =>
          obtain ⟨middle, grown, there, same⟩ := makeAlong_cons stepped names
          obtain ⟨begins, short, rfl⟩ := step_ok_iff.mp stepped
          rw [same, induction, open_cons_iff begins short grown there]

/-- What directories were made along is directories then. -/
theorem Open.made (opens : tree.Open location names) :
    ∀ place ∈ location :: way location names,
      (makeAlong location names tree).2.node? place = some .directory := by
  induction names generalizing location tree with
  | nil =>
      have same : makeAlong location [] tree = (.ok (), tree) := by
        rw [makeAlong, opens.begins]
      rw [same]
      simpa [way] using opens.begins
  | cons name names induction =>
      have first := opens.short name List.mem_cons_self
      have stepped : tree.step location name = .ok (location.enter name) :=
        step_ok_iff.mpr ⟨opens.begins, first, rfl⟩
      obtain ⟨middle, grown, there, same⟩ := makeAlong_cons stepped names
      have rest := (open_cons_iff opens.begins first grown there).mp opens
      rw [same]
      refine List.forall_mem_cons.mpr ⟨?_, induction rest⟩
      -- No directory that a step needs goes away later.
      have later := (makeAlong_grown (location.enter name) names middle).stays
      exact later.directory _ (grown.stays.directory _ opens.begins)

/-- The directory of a path can be made, or is there.  Where the path ends in `.`
it has to be there, or be one of those that are made for it. -/
structure Makeable (tree : Tree) (path : String) : Prop where
  speakable : Path.isSpeakable path = true
  opens : tree.Open (tree.start path) (Path.dropVoid (Path.names path))
  dotted : Path.endsInDot path = true →
    let known := Path.dropVoid (Path.names path)
    let place := known.foldl Location.enter (tree.start path)
    tree.node? place = some .directory ∨
      place ∈ way (tree.start path) known.dropLast

theorem makeDirectories_of_directory
    (directory : path = "" ∨ tree.isDirectory path = true) :
    tree.makeDirectories path = (.ok (), tree) := if_pos directory

theorem Makeable.of_isDirectory (directory : tree.isDirectory path = true) :
    tree.Makeable path := by
  obtain ⟨_, speakable, short, directories⟩ :=
    isDirectory_iff_way.mp directory
  have begins := tree.node?_start path
  refine { speakable, opens := ?_, dotted := fun _ => .inl ?_ }
  · refine { begins, short, free := fun place member content found => ?_ }
    rw [directories place member] at found
    cases found
  · have known : ∀ place ∈ tree.start path ::
        way (tree.start path) (Path.dropVoid (Path.names path)),
        tree.node? place = some .directory :=
      List.forall_mem_cons.mpr ⟨begins, directories⟩
    exact known _ (foldl_enter_mem_way _ _)

/-- A place on the way is in front of the last name, or is where that leads. -/
theorem mem_way_cases {place : Location}
    (member : place ∈ way location names) :
    place ∈ way location names.dropLast ∨
      place = names.foldl Location.enter location := by
  rcases List.eq_nil_or_concat names with rfl | ⟨front, name, rfl⟩
  · cases member
  · rw [List.concat_eq_append, List.dropLast_concat, List.foldl_append]
    rw [List.concat_eq_append, way_append] at member
    rcases List.mem_append.mp member with front | own
    · exact .inl front
    · exact .inr (List.mem_singleton.mp own)

theorem Open.dropLast (opens : tree.Open location names) :
    tree.Open location names.dropLast where
  begins := opens.begins
  short := fun name member =>
    opens.short name (List.dropLast_subset names member)
  free := fun place member =>
    opens.free place (way_dropLast_subset location names member)

/-- Where directories are made in front of a path, the path is a directory then
exactly if it could be made, and its own was there or is one of these. -/
theorem isDirectory_makeAlong_iff (spelled : path ≠ "")
    (dotted : Path.endsInDot path = true) :
    (makeAlong (tree.start path)
        (Path.dropVoid (Path.names path)).dropLast tree).2.isDirectory path =
          true ↔
      tree.Makeable path := by
  generalize ran : makeAlong (tree.start path)
    (Path.dropVoid (Path.names path)).dropLast tree = outcome
  have grown := makeAlong_grown (tree.start path)
    (Path.dropVoid (Path.names path)).dropLast tree
  rw [ran] at grown
  have begins := tree.node?_start path
  rw [isDirectory_iff_way, grown.stays.start]
  constructor
  · rintro ⟨_, speakable, short, directories⟩
    refine { speakable, opens := ?_, dotted := fun _ => ?_ }
    · refine { begins, short, free := fun place member content found => ?_ }
      have still := (grown.file_iff content).mpr found
      rw [directories place member] at still
      cases still
    · have known : ∀ place ∈ tree.start path ::
          way (tree.start path) (Path.dropVoid (Path.names path)),
          outcome.2.node? place = some .directory :=
        List.forall_mem_cons.mpr
          ⟨grown.stays.directory _ begins, directories⟩
      have there := known _ (foldl_enter_mem_way _ _)
      rcases grown.nodes _ with same | ⟨made, _⟩
      · rw [same] at there
        exact .inl there
      · exact .inr made
  · intro makeable
    refine ⟨spelled, makeable.speakable, makeable.opens.short, ?_⟩
    have made := makeable.opens.dropLast.made
    rw [ran] at made
    have front := (List.forall_mem_cons.mp made).2
    intro place member
    rcases mem_way_cases member with before | rfl
    · exact front place before
    · rcases makeable.dotted dotted with there | before
      · exact grown.stays.directory _ there
      · exact front _ before

/-- Making directories succeeds exactly where the directory is there or can be
made. -/
theorem makeDirectories_ok_iff :
    (tree.makeDirectories path).1 = .ok () ↔
      path = "" ∨ tree.Makeable path := by
  by_cases there : path = "" ∨ tree.isDirectory path = true
  · rw [makeDirectories_of_directory there]
    exact iff_of_true rfl (there.imp id .of_isDirectory)
  · have spelled : path ≠ "" := fun same => there (.inl same)
    rw [or_iff_right spelled]
    unfold makeDirectories
    dsimp only
    rw [if_neg there]
    by_cases speakable : Path.isSpeakable path = true
    · rw [if_neg (by simp [speakable])]
      by_cases dotted : Path.endsInDot path = true
      · rw [if_pos dotted, ← isDirectory_makeAlong_iff spelled dotted]
        split
        · rename_i directory
          exact iff_of_true rfl directory
        · rename_i missing
          exact iff_of_false nofun missing
      · rw [if_neg dotted, makeAlong_ok_iff]
        constructor
        · intro opens
          exact
            { speakable, opens
              dotted := fun ends => (dotted ends).elim }
        · exact Makeable.opens
    · rw [if_pos speakable]
      exact iff_of_false nofun fun makeable => speakable makeable.speakable

theorem makeDirectories_grown (tree : Tree) (path : String) :
    Grown (way (tree.start path) (Path.names path)) tree
      (tree.makeDirectories path).2 := by
  obtain ⟨void, split, _⟩ := Path.dropVoid_append (Path.names path)
  have known := way_subset_append (tree.start path)
    (Path.dropVoid (Path.names path)) void
  rw [← split] at known
  have above := List.Subset.trans (way_dropLast_subset (tree.start path)
    (Path.dropVoid (Path.names path))) known
  unfold makeDirectories
  dsimp only
  split
  · exact .refl _ _
  · split
    · exact .refl _ _
    · split
      · exact (makeAlong_grown _ _ tree).mono above
      · exact (makeAlong_grown _ _ tree).mono known

/-- A directory that has been made is there. -/
theorem isDirectory_of_makeDirectories
    (made : tree.makeDirectories path = (.ok (), after)) :
    path = "" ∨ after.isDirectory path = true := by
  unfold makeDirectories at made
  dsimp only at made
  split at made
  · rename_i there
    cases made
    exact there
  · rename_i absent
    have spelled : path ≠ "" := fun same => absent (.inl same)
    split at made
    · cases made
    · rename_i speakable
      split at made
      · rw [Prod.mk.injEq] at made
        obtain ⟨found, rfl⟩ := made
        split at found
        · rename_i directory
          exact .inr directory
        · cases found
      · have opens := makeAlong_ok_iff.mp (congrArg Prod.fst made)
        have grown := makeAlong_grown (tree.start path)
          (Path.dropVoid (Path.names path)) tree
        have directories := (List.forall_mem_cons.mp opens.made).2
        rw [made] at grown directories
        rw [← grown.stays.start] at directories
        exact .inr (isDirectory_iff_way.mpr ⟨spelled,
          Decidable.not_not.mp speakable, opens.short, directories⟩)

end Tree

end TagWire
