import TagWire.Files.Path
import TagWire.Files.Store

/-!
# Trees of files

A store of files as a value.  A tree says what is at each location; a path leads
to a location by its names, and every name on the way needs a directory to be
looked up in.  A path that is not absolute begins at the working directory.  This
is a place below the root like any other, so the name `..` leads from it to the
directory that it is in, and what is there has one location only.

Left out are links, so that every location is reached by its own names alone;
rights, so that whatever fits can be read and written; and writes that stop
halfway, so that a file is put whole or not at all.
-/

namespace TagWire

/-- What can be at a location. -/
inductive Node
  | directory
  | file (content : List UInt8)
  deriving DecidableEq, Repr

/-- A place in a tree: the names that lead to it from the root. -/
structure Location where
  names : List String
  deriving DecidableEq, Repr

/-- Where a name leads from a location.  Above the root is the root. -/
def Location.enter (location : Location) (name : String) : Location :=
  if Path.isVoid name then location
  else if name = ".." then { names := location.names.dropLast }
  else { names := location.names ++ [name] }

/-- What is where.  Of several nodes at one location the first one counts. -/
structure Tree where
  /-- The working directory, where paths begin that are not absolute. -/
  working : Location
  nodes : List (Location × Node)
  deriving DecidableEq, Repr

namespace Tree

/-- A working directory below the root, and nothing else. -/
def empty : Tree := { working := { names := ["work"] }, nodes := [] }

/-- Whether a location is the working directory or above it. -/
def isBase (tree : Tree) (location : Location) : Bool :=
  location.names.isPrefixOf tree.working.names

/-- The node at a location.  The working directory and those above it are
there whatever else is. -/
def node? (tree : Tree) (location : Location) : Option Node :=
  if tree.isBase location then some .directory
  else (tree.nodes.find? fun entry => entry.1 = location).map Prod.snd

/-- Replaces the node at a location, or adds it behind the others. -/
def putIn (location : Location) (node : Node) :
    List (Location × Node) → List (Location × Node)
  | [] => [(location, node)]
  | entry :: rest =>
    if entry.1 = location then (location, node) :: rest
    else entry :: putIn location node rest

/-- The tree with a node at a location. -/
def put (tree : Tree) (location : Location) (node : Node) : Tree :=
  { tree with nodes := putIn location node tree.nodes }

/-- Takes one step from a location, which has to be a directory. -/
def step (tree : Tree) (location : Location) (name : String) :
    Except AccessError Location :=
  match tree.node? location with
  | none => .error .missing
  | some (.file _) => .error .unusable
  | some .directory =>
    if Path.isShort name then .ok (location.enter name) else .error .unusable

/-- Where a path begins. -/
def start (tree : Tree) (path : String) : Location :=
  if Path.isAbsolute path then { names := [] } else tree.working

/-- Where a path leads.  There may be nothing there. -/
def locate (tree : Tree) (path : String) : Except AccessError Location :=
  if path = "" then .error .missing
  else if Path.isSpeakable path then
    (Path.names path).foldlM tree.step (tree.start path)
  else .error .unusable

def read (tree : Tree) (path : String) : Except AccessError (List UInt8) := do
  match tree.node? (← tree.locate path) with
  | none => throw .missing
  | some .directory => throw .unusable
  | some (.file content) => return content

/-- The tree in which a path leads to a file of these bytes. -/
def write (tree : Tree) (path : String) (bytes : List UInt8) :
    Except AccessError Tree := do
  let location ← tree.locate path
  match tree.node? location with
  | some .directory => throw .unusable
  | _ => return tree.put location (.file bytes)

/-- Goes on along names and makes the directories that are missing.  What has
been made stays, also if the way ends early. -/
def makeAlong (location : Location) :
    List String → Tree → Except AccessError Unit × Tree
  | [], tree =>
    match tree.node? location with
    | some .directory => (.ok (), tree)
    | _ => (.error .unusable, tree)
  | name :: rest, tree =>
    match tree.step location name with
    | .error error => (.error error, tree)
    | .ok next =>
      match tree.node? next with
      | none => makeAlong next rest (tree.put next .directory)
      | some _ => makeAlong next rest tree

def isDirectory (tree : Tree) (path : String) : Bool :=
  match tree.locate path with
  | .ok location => tree.node? location == some .directory
  | .error _ => false

/-- Makes the directory of a path and those above it.  A path that ends in `.`
does not name a new directory, so only those above are made for it, and it has to
lead to one of them or to one that was there. -/
def makeDirectories (tree : Tree) (path : String) :
    Except AccessError Unit × Tree :=
  let known := Path.dropVoid (Path.names path)
  if path = "" ∨ tree.isDirectory path then (.ok (), tree)
  else if ¬ Path.isSpeakable path then (.error .unusable, tree)
  else if Path.endsInDot path then
    let made := (makeAlong (tree.start path) known.dropLast tree).2
    (if made.isDirectory path then .ok () else .error .unusable, made)
  else makeAlong (tree.start path) known tree

/-- The files below the working directory, by their paths from there. -/
def files (tree : Tree) : List (String × List UInt8) :=
  tree.nodes.filterMap fun entry =>
    match entry with
    | ({ names }, .file content) =>
      if tree.working.names.isPrefixOf names then
        some ("/".intercalate (names.drop tree.working.names.length), content)
      else none
    | (_, .directory) => none

end Tree

instance : Store (StateM Tree) where
  read path := ExceptT.mk fun tree => (tree.read path, tree)
  write path bytes := ExceptT.mk fun tree =>
    match tree.write path bytes with
    | .ok written => (.ok (), written)
    | .error error => (.error error, tree)
  makeDirectories path := ExceptT.mk fun tree => tree.makeDirectories path

end TagWire
