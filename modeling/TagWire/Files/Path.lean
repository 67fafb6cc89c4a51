/-!
# Paths

The text of a path is names between slashes.  An empty name and the name `.`
lead nowhere, and the name `..` leads up.
-/

namespace TagWire

namespace Path

/-- Cuts a text at its slashes. -/
def cut : List Char → List (List Char)
  | [] => [[]]
  | char :: rest =>
    if char = '/' then [] :: cut rest
    else
      match cut rest with
      | [] => [[char]]
      | name :: names => (char :: name) :: names

/-- The names of a path. -/
def names (path : String) : List String := (cut path.toList).map String.ofList

def isAbsolute (path : String) : Bool := path.toList.head? == some '/'

/-- Whether a name leads nowhere. -/
def isVoid (name : String) : Bool := name == "" || name == "."

/-- The names up to the last one that leads somewhere. -/
def dropVoid (names : List String) : List String :=
  (names.reverse.dropWhile isVoid).reverse

/-- Whether there is a `.` behind the last name that leads somewhere. -/
def endsInDot (path : String) : Bool :=
  ((names path).drop (dropVoid (names path)).length).contains "."

/-- Whether a path can be spoken of at all: it is not too long, and no zero
character ends it early. -/
def isSpeakable (path : String) : Bool :=
  path.utf8ByteSize < 4096 && !path.toList.contains '\x00'

/-- Whether a directory can hold something of this name. -/
def isShort (name : String) : Bool := name.utf8ByteSize ≤ 255

def join (directory name : String) : String :=
  if directory = "" ∨ directory.toList.getLast? = some '/' then directory ++ name
  else directory ++ "/" ++ name

/-- The part of a path that its other names are relative to. -/
def anchor (path : String) : String :=
  if isAbsolute path then "/"
  else if (names path).head? = some "." then "."
  else ""

def parent? (path : String) : Option String :=
  let anchor := anchor path
  let behind := String.ofList (path.toList.drop anchor.length)
  match dropVoid (names behind) with
  | [] => if anchor = "." then some "" else none
  | known => some (anchor ++ "/".intercalate (dropVoid known.dropLast))

end Path

end TagWire
