import TagWire.Json.Value
import TagWire.Text.Numeral

/-!
# Tokens of JSON texts

Cuts a text into tokens.  Blanks separate tokens and are dropped; everything
else belongs to one.
-/

namespace TagWire

namespace Json

/-- The characters that may stand between tokens. -/
def isBlank (char : Char) : Bool :=
  char = ' ' || char = '\t' || char = '\n' || char = '\r'

/-! ## Strings -/

def fourDigits? (digits : List Char) : Option Nat := do
  if digits.length = 4 then Numeral.digits? 16 digits else none

def simpleEscape? : Char → Option Nat
  | '"' => some 0x22
  | '\\' => some 0x5C
  | '/' => some 0x2F
  | 'b' => some 0x8
  | 'f' => some 0xC
  | 'n' => some 0xA
  | 'r' => some 0xD
  | 't' => some 0x9
  | _ => none

/-- Reads on to the closing quote.  The code points `read`, latest first, may be
halves of surrogate pairs. -/
def stringFrom (read : List Nat) : List Char → Option (List Nat × List Char)
  | [] => none
  | '"' :: rest => some (read.reverse, rest)
  | '\\' :: 'u' :: a :: b :: c :: d :: rest =>
    match fourDigits? [a, b, c, d] with
    | some unit => stringFrom (unit :: read) rest
    | none => none
  | '\\' :: char :: rest =>
    match simpleEscape? char with
    | some point => stringFrom (point :: read) rest
    | none => none
  | char :: rest =>
    if char.toNat < 0x20 then none else stringFrom (char.toNat :: read) rest

/-- Joins the halves of surrogate pairs after the characters `read`, latest
first.  A half without its partner is no character. -/
def joinHalves (read : List Char) : List Nat → Option String
  | [] => some (String.ofList read.reverse)
  | [point] =>
    if 0xD800 ≤ point ∧ point < 0xE000 then none
    else some (String.ofList (Char.ofNat point :: read).reverse)
  | point :: next :: rest =>
    if 0xD800 ≤ point ∧ point < 0xDC00 then
      if 0xDC00 ≤ next ∧ next < 0xE000 then
        let joined := 0x10000 + (point - 0xD800) * 0x400 + (next - 0xDC00)
        joinHalves (Char.ofNat joined :: read) rest
      else
        none
    else if 0xDC00 ≤ point ∧ point < 0xE000 then
      none
    else
      joinHalves (Char.ofNat point :: read) (next :: rest)

/-! ## Numbers -/

def digitSpan (chars : List Char) : List Char × List Char :=
  (chars.takeWhile Char.isDigit, chars.dropWhile Char.isDigit)

/-- Reads a fraction, if there is one, and says whether there was. -/
def fractionFrom : List Char → Option (Bool × List Char)
  | '.' :: chars =>
    match digitSpan chars with
    | ([], _) => none
    | (_, rest) => some (true, rest)
  | chars => some (false, chars)

def afterSign : List Char → List Char
  | '+' :: chars => chars
  | '-' :: chars => chars
  | chars => chars

/-- Reads an exponent, if there is one, and says whether there was. -/
def exponentFrom : List Char → Option (Bool × List Char)
  | [] => some (false, [])
  | char :: chars =>
    if char = 'e' ∨ char = 'E' then
      match digitSpan (afterSign chars) with
      | ([], _) => none
      | (_, rest) => some (true, rest)
    else
      some (false, char :: chars)

/-- Reads a number without its sign.  A zero at the front stands alone. -/
def unsignedFrom (chars : List Char) : Option (Option Nat × List Char) := do
  let (whole, rest) := match chars with
    | '0' :: rest => (['0'], rest)
    | chars => digitSpan chars
  let value ← Numeral.digits? 10 whole
  let (fractional, rest) ← fractionFrom rest
  let (scaled, rest) ← exponentFrom rest
  return (if fractional || scaled then none else some value, rest)

/-- Reads a number.  With a minus sign it is not written as a natural one. -/
def numberFrom : List Char → Option (Option Nat × List Char)
  | '-' :: chars => (unsignedFrom chars).map fun (_, rest) => (none, rest)
  | chars => unsignedFrom chars

/-! ## Tokens -/

/-- Reads one token whose first character is given, and says what follows. -/
def tokenFrom (char : Char) (rest : List Char) : Option (Token × List Char) :=
  match char, rest with
  | '{', rest => some (.leftBrace, rest)
  | '}', rest => some (.rightBrace, rest)
  | '[', rest => some (.leftBracket, rest)
  | ']', rest => some (.rightBracket, rest)
  | ':', rest => some (.colon, rest)
  | ',', rest => some (.comma, rest)
  | 'n', 'u' :: 'l' :: 'l' :: rest => some (.null, rest)
  | 't', 'r' :: 'u' :: 'e' :: rest => some (.bool true, rest)
  | 'f', 'a' :: 'l' :: 's' :: 'e' :: rest => some (.bool false, rest)
  | '"', rest =>
    (stringFrom [] rest).map fun (points, rest) =>
      (.string (joinHalves [] points), rest)
  | char, rest =>
    (numberFrom (char :: rest)).map fun (natural?, rest) =>
      (.number natural?, rest)

/-- Cuts the rest of a text into tokens after those `read`, latest first.  There
are no more tokens than `fuel`. -/
def tokensFrom : (fuel : Nat) → (read : List Token) → List Char →
    Option (List Token)
  | _, read, [] => some read.reverse
  | 0, _, _ :: _ => none
  | fuel + 1, read, char :: rest =>
    if isBlank char then
      tokensFrom fuel read rest
    else
      match tokenFrom char rest with
      | some (token, rest) => tokensFrom fuel (token :: read) rest
      | none => none

/-- The tokens of a text.  Each of its characters begins at most one. -/
def tokens (text : List Char) : Option (List Token) :=
  tokensFrom text.length [] text

end Json

end TagWire
