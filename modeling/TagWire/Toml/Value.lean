/-!
# TOML values and tables

A table remembers how it came about, because that decides what may be added to
it later: a header may open a table once, and a dotted key may only add to
tables that dotted keys have made.
-/

namespace TagWire

namespace Toml

/-- How a table came about. -/
inductive Origin
  /-- By a header of its own. -/
  | header
  /-- On the way to the table of a header. -/
  | implied
  /-- On the way to the last part of a dotted key. -/
  | dotted
  /-- By braces. -/
  | braces
  deriving DecidableEq, Repr

/-- A TOML value.  Numbers, truth values and moments are recognised but not
kept, since no setting holds one. -/
inductive Value
  | text (content : String)
  | scalar
  | array (elements : List Value)
  | table (origin : Origin) (entries : List (String × Value))
  | tables (elements : List (List (String × Value)))
  deriving Repr

abbrev Entries := List (String × Value)

namespace Entries

def get? (entries : Entries) (key : String) : Option Value :=
  (entries.find? fun entry => entry.1 == key).map Prod.snd

/-- Gives a key a value, in its place if the key is there. -/
def put (entries : Entries) (key : String) (value : Value) : Entries :=
  if entries.any fun entry => entry.1 == key then
    entries.map fun entry => if entry.1 == key then (key, value) else entry
  else
    entries ++ [(key, value)]

def changeLast (change : Entries → Option Entries) :
    List Entries → Option (List Entries)
  | [] => none
  | [last] => (change last).map fun last => [last]
  | table :: rest => (changeLast change rest).map (table :: ·)

/-- Changes the table that a path of headers leads to.  Tables that are missing
on the way are implied; of an array of tables the last one is meant.  A table in
braces is complete. -/
def changeAt (change : Entries → Option Entries) :
    (path : List String) → Entries → Option Entries
  | [], entries => change entries
  | key :: path, entries =>
    match entries.get? key with
    | none => do
      let inner ← changeAt change path []
      return entries.put key (.table .implied inner)
    | some (.table .braces _) => none
    | some (.table origin inner) => do
      let inner ← changeAt change path inner
      return entries.put key (.table origin inner)
    | some (.tables elements) => do
      let elements ← changeLast (changeAt change path) elements
      return entries.put key (.tables elements)
    | some _ => none

def add (key : String) (value : Value) (entries : Entries) : Option Entries :=
  if (entries.get? key).isSome then none else some (entries.put key value)

/-- Gives a value to a key behind a path of dotted keys.  The path may lead
through implied tables, but not end in one. -/
def addDotted (key : String) (value : Value) :
    (path : List String) → Entries → Option Entries
  | [], entries => entries.add key value
  | part :: path, entries =>
    match entries.get? part with
    | none => do
      let inner ← addDotted key value path []
      return entries.put part (.table .dotted inner)
    | some (.table origin inner) =>
      if origin = .dotted ∨ (origin = .implied ∧ path ≠ []) then do
        let inner ← addDotted key value path inner
        return entries.put part (.table origin inner)
      else
        none
    | some (.tables elements) =>
      if path = [] then none
      else do
        let elements ← changeLast (addDotted key value path) elements
        return entries.put part (.tables elements)
    | some _ => none

/-- Opens the table of a header.  It may have been implied before. -/
def openTable (key : String) (entries : Entries) : Option Entries :=
  match entries.get? key with
  | none => some (entries.put key (.table .header []))
  | some (.table .implied inner) =>
    some (entries.put key (.table .header inner))
  | some _ => none

def openElement (key : String) (entries : Entries) : Option Entries :=
  match entries.get? key with
  | none => some (entries.put key (.tables [[]]))
  | some (.tables elements) =>
    some (entries.put key (.tables (elements ++ [[]])))
  | some _ => none

end Entries

end Toml

end TagWire
