import TagWire.Toml.Scalar
import TagWire.Toml.Value

/-!
# TOML documents

A document is a sequence of lines: settings of keys and headers of tables.  The
headers say which table the settings below them go to.  Arrays may run over
several lines; everything else ends where its line does.
-/

namespace TagWire

namespace Toml

/-- How deep arrays and tables in braces may nest, and how many parts a dotted
key may have. -/
def nestingLimit : Nat := 79

/-! ## Keys -/

def isKeyChar (char : Char) : Bool :=
  char.isAlphanum || char = '_' || char = '-'

def keyPart (chars : List Char) : Option (String × List Char) :=
  match chars.takeWhile isKeyChar with
  | [] => lineString chars
  | part => some (String.ofList part, chars.drop part.length)

/-- Reads the parts of a dotted key.  There are no more parts than `fuel`. -/
def keyPartsFrom : (fuel : Nat) → Scanner (List String)
  | 0, _ => none
  | fuel + 1, chars => do
    let (part, rest) ← keyPart (skipBlanks chars)
    match skipBlanks rest with
    | '.' :: rest => do
      let (parts, rest) ← keyPartsFrom fuel rest
      return (part :: parts, rest)
    | rest => return ([part], rest)

def key : Scanner (List String) := keyPartsFrom nestingLimit

def splitKey (parts : List String) : Option (List String × String) :=
  parts.getLast?.map fun last => (parts.dropLast, last)

/-! ## Values -/

/-- Drops blanks, line ends and comments, from inside a comment or not. -/
def skipVoid : (inComment : Bool) → List Char → List Char
  | _, [] => []
  | _, '\n' :: rest => skipVoid false rest
  | _, '\r' :: '\n' :: rest => skipVoid false rest
  | true, char :: rest => if isPlain char then skipVoid true rest else char :: rest
  | false, '#' :: rest => skipVoid true rest
  | false, char :: rest =>
    if isBlank char then skipVoid false rest else char :: rest

def scalarFrom : Scanner Value
  | 't' :: 'r' :: 'u' :: 'e' :: rest => some (.scalar, rest)
  | 'f' :: 'a' :: 'l' :: 's' :: 'e' :: rest => some (.scalar, rest)
  | '"' :: rest => (string ('"' :: rest)).map fun (text, rest) => (.text text, rest)
  | '\'' :: rest => (string ('\'' :: rest)).map fun (text, rest) => (.text text, rest)
  | chars => (moment chars <|> number chars).map fun (_, rest) => (.scalar, rest)

mutual

/-- Reads a value.  Containers nest up to `room` deep in it. -/
def valueFrom : (fuel room : Nat) → Scanner Value
  | 0, _, _ => none
  | fuel + 1, room, chars =>
    match chars, room with
    | '[' :: rest, room + 1 => elementsFrom fuel room [] rest
    | '{' :: rest, room + 1 =>
      match skipBlanks rest with
      | '}' :: rest => some (.table .braces [], rest)
      | rest => entriesFrom fuel room [] rest
    | chars, _ => scalarFrom chars

/-- Reads the elements of an array after those `read`, latest first.  A comma
may stand behind the last one. -/
def elementsFrom : (fuel room : Nat) → (read : List Value) → Scanner Value
  | 0, _, _, _ => none
  | fuel + 1, room, read, chars =>
    match skipVoid false chars with
    | ']' :: rest => some (.array read.reverse, rest)
    | chars =>
      match valueFrom fuel room chars with
      | none => none
      | some (value, rest) =>
        match skipVoid false rest with
        | ',' :: rest => elementsFrom fuel room (value :: read) rest
        | ']' :: rest => some (.array (value :: read).reverse, rest)
        | _ => none

/-- Reads the settings of a table in braces after the entries `read`. -/
def entriesFrom : (fuel room : Nat) → (read : Entries) → Scanner Value
  | 0, _, _, _ => none
  | fuel + 1, room, read, chars =>
    match key chars with
    | some (parts, '=' :: rest) =>
      match valueFrom fuel room (skipBlanks rest) with
      | none => none
      | some (value, rest) =>
        match splitKey parts with
        | none => none
        | some (path, last) =>
          match Entries.addDotted last value path read, skipBlanks rest with
          | some entries, ',' :: rest => entriesFrom fuel room entries rest
          | some entries, '}' :: rest => some (.table .braces entries, rest)
          | _, _ => none
    | _ => none

end

/-- Reads a value.  Every container and every element takes a character of its
own, so twice their number is fuel enough. -/
def value : Scanner Value := fun chars =>
  valueFrom (2 * chars.length + 1) nestingLimit chars

/-! ## Lines -/

/-- What a line says. -/
inductive Statement
  | setting (key : List String) (value : Value)
  | header (key : List String)
  | elementHeader (key : List String)
  deriving Repr

/-- Drops what may stand at the end of a line. -/
def afterLine? (chars : List Char) : Option (List Char) :=
  match skipComment (skipBlanks chars) with
  | [] => some []
  | chars => afterNewline? chars

def statement : Scanner Statement
  | '[' :: '[' :: rest => do
    let (key, rest) ← key rest
    return (.elementHeader key, ← after? ']' (← after? ']' rest))
  | '[' :: rest => do
    let (key, rest) ← key rest
    return (.header key, ← after? ']' rest)
  | chars => do
    let (key, rest) ← key chars
    let (value, rest) ← value (skipBlanks (← after? '=' rest))
    return (.setting key value, rest)

/-- Reads the lines of a document after those `read`, latest first.  There are
no more lines than `fuel`. -/
def statementsFrom : (fuel : Nat) → (read : List Statement) → List Char →
    Option (List Statement)
  | 0, _, _ => none
  | fuel + 1, read, chars =>
    match skipBlanks chars with
    | [] => some read.reverse
    | char :: rest =>
      if char = '#' ∨ char = '\n' ∨ char = '\r' then
        match afterLine? (char :: rest) with
        | some rest => statementsFrom fuel read rest
        | none => none
      else
        match statement (char :: rest) with
        | some (one, rest) =>
          match afterLine? rest with
          | some rest => statementsFrom fuel (one :: read) rest
          | none => none
        | none => none

/-- The lines of a document.  A mark of the byte order may stand before them. -/
def statements (text : List Char) : Option (List Statement) :=
  let lines := match text with
    | '\uFEFF' :: rest => rest
    | text => text
  statementsFrom (lines.length + 1) [] lines

/-- A document that has been read up to some line: all its entries, and the path
of the last header. -/
structure Progress where
  entries : Entries
  path : List String
  deriving Repr

/-- Takes in one more line. -/
def Progress.next? (progress : Progress) : Statement → Option Progress
  | .setting parts value => do
    let (path, last) ← splitKey parts
    let entries ←
      progress.entries.changeAt (Entries.addDotted last value path) progress.path
    return { progress with entries }
  | .header parts => do
    let (path, last) ← splitKey parts
    let entries ← progress.entries.changeAt (Entries.openTable last) path
    return { entries, path := parts }
  | .elementHeader parts => do
    let (path, last) ← splitKey parts
    let entries ← progress.entries.changeAt (Entries.openElement last) path
    return { entries, path := parts }

/-- Reads a document. -/
def parse (text : String) : Option Entries := do
  let progress ← (← statements text.toList).foldlM Progress.next?
    { entries := [], path := [] }
  return progress.entries

end Toml

end TagWire
