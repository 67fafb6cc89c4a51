/-!
# JSON values

What a JSON text says, as far as anyone here asks.  Every text of the grammar
has a value, also one whose numbers no word can hold or whose escapes name half
of a surrogate pair; such parts are there but have no content.
-/

namespace TagWire

namespace Json

/-- A JSON value.  A number is kept if it is written as a natural number, with
digits alone, and a string if it is a text. -/
inductive Value
  | null
  | bool (truth : Bool)
  | number (natural? : Option Nat)
  | string (content? : Option String)
  | array (elements : List Value)
  | object (members : List (Option String × Value))
  deriving Repr

/-- The smallest parts of a JSON text. -/
inductive Token
  | leftBrace
  | rightBrace
  | leftBracket
  | rightBracket
  | colon
  | comma
  | null
  | bool (truth : Bool)
  | number (natural? : Option Nat)
  | string (content? : Option String)
  deriving DecidableEq, Repr

end Json

end TagWire
