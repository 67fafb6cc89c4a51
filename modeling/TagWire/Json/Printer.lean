import TagWire.Text.Hex

/-!
# Writing JSON

Compact objects of texts and natural numbers.  Inside a string only quotes,
backslashes and control characters are escaped.
-/

namespace TagWire

namespace Json

/-- A member that is written as one token. -/
inductive Scalar
  | text (content : String)
  | natural (value : Nat)
  deriving DecidableEq, Repr

/-- A character inside a string.  A control character without a short escape is
written by its code. -/
def escape (char : Char) : List Char :=
  match char with
  | '"' => ['\\', '"']
  | '\\' => ['\\', '\\']
  | '\x08' => ['\\', 'b']
  | '\x0C' => ['\\', 'f']
  | '\n' => ['\\', 'n']
  | '\r' => ['\\', 'r']
  | '\t' => ['\\', 't']
  | char =>
    if char.toNat < 0x20 then
      ['\\', 'u', '0', '0'] ++ Hex.byteDigits (UInt8.ofNat char.toNat)
    else [char]

def quote (content : String) : List Char :=
  '"' :: content.toList.flatMap escape ++ ['"']

def Scalar.print : Scalar → List Char
  | text content => quote content
  | natural value => Nat.toDigits 10 value

def printMember (member : String × Scalar) : List Char :=
  quote member.1 ++ ':' :: member.2.print

def printObject (members : List (String × Scalar)) : List Char :=
  '{' :: [','].intercalate (members.map printMember) ++ ['}']

end Json

end TagWire
