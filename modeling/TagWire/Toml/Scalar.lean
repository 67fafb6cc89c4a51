import TagWire.Text.Numeral

/-!
# TOML strings, numbers and moments

The parts of a TOML text that hold no other values.  A reader takes its part
from the front of the text, and answers what the part says and what follows it.
-/

namespace TagWire

namespace Toml

abbrev Scanner (α : Type) := List Char → Option (α × List Char)

/-! ## Blanks and characters -/

/-- The blanks inside a line. -/
def isBlank (char : Char) : Bool := char = ' ' || char = '\t'

def skipBlanks (chars : List Char) : List Char := chars.dropWhile isBlank

/-- Whether a character may stand for itself in comments and strings: the tab,
and everything that is no control character. -/
def isPlain (char : Char) : Bool :=
  char = '\t' || (0x20 ≤ char.toNat && char.toNat ≠ 0x7F)

def afterNewline? : List Char → Option (List Char)
  | '\n' :: rest => some rest
  | '\r' :: '\n' :: rest => some rest
  | _ => none

def skipComment : List Char → List Char
  | '#' :: rest => rest.dropWhile isPlain
  | chars => chars

/-! ## Strings -/

def scalarValue? (digits : List Char) : Option Char := do
  let code ← Numeral.digits? 16 digits
  if code < 0xD800 ∨ (0xE000 ≤ code ∧ code < 0x110000) then
    some (Char.ofNat code)
  else none

def escapeFrom : Scanner Char
  | 'b' :: rest => some ('\x08', rest)
  | 't' :: rest => some ('\t', rest)
  | 'n' :: rest => some ('\n', rest)
  | 'f' :: rest => some ('\x0C', rest)
  | 'r' :: rest => some ('\r', rest)
  | '"' :: rest => some ('"', rest)
  | '\\' :: rest => some ('\\', rest)
  | 'u' :: rest =>
    if (rest.take 4).length = 4 then
      (scalarValue? (rest.take 4)).map fun char => (char, rest.drop 4)
    else none
  | 'U' :: rest =>
    if (rest.take 8).length = 8 then
      (scalarValue? (rest.take 8)).map fun char => (char, rest.drop 8)
    else none
  | _ => none

def skipLines : List Char → List Char
  | [] => []
  | '\n' :: rest => skipLines rest
  | '\r' :: '\n' :: rest => skipLines rest
  | char :: rest => if isBlank char then skipLines rest else char :: rest

/-- Drops the blanks and line ends behind a backslash at the end of a line. -/
def afterLineEnd? (chars : List Char) : Option (List Char) :=
  (afterNewline? (skipBlanks chars)).map skipLines

/-- How a string is delimited: by which quote, over one line or more, and
whether a backslash means itself. -/
structure Delimiter where
  quote : Char
  multiline : Bool
  literal : Bool
  deriving DecidableEq, Repr

/-- Reads on to the closing delimiter after the characters `read`, latest first.
The last characters of a string over several lines may be quotes, up to two; in
a run of quotes the delimiter therefore comes last.  There are no more
characters than `fuel`. -/
def stringFrom (delimiter : Delimiter) : (fuel : Nat) → (read : List Char) →
    Scanner (List Char)
  | 0, _, _ => none
  | _ + 1, _, [] => none
  | fuel + 1, read, char :: rest =>
    if char = delimiter.quote then
      if delimiter.multiline then
        let run := (char :: rest).takeWhile (· = delimiter.quote)
        if run.length < 3 then
          stringFrom delimiter fuel (run ++ read) ((char :: rest).drop run.length)
        else
          let last := min run.length 5
          some ((run.take (last - 3) ++ read).reverse, (char :: rest).drop last)
      else
        some (read.reverse, rest)
    else if char = '\\' ∧ ¬ delimiter.literal then
      match if delimiter.multiline then afterLineEnd? rest else none with
      | some rest => stringFrom delimiter fuel read rest
      | none =>
        match escapeFrom rest with
        | some (char, rest) => stringFrom delimiter fuel (char :: read) rest
        | none => none
    else if isPlain char then
      stringFrom delimiter fuel (char :: read) rest
    else if delimiter.multiline then
      match afterNewline? (char :: rest) with
      | some rest => stringFrom delimiter fuel ('\n' :: read) rest
      | none => none
    else
      none

def stringAfter (delimiter : Delimiter) : Scanner String := fun chars =>
  let body :=
    if delimiter.multiline then (afterNewline? chars).getD chars else chars
  (stringFrom delimiter body.length [] body).map fun (read, rest) =>
    (String.ofList read, rest)

def lineString : Scanner String
  | '"' :: rest => stringAfter ⟨'"', false, false⟩ rest
  | '\'' :: rest => stringAfter ⟨'\'', false, true⟩ rest
  | _ => none

def string : Scanner String
  | '"' :: '"' :: '"' :: rest => stringAfter ⟨'"', true, false⟩ rest
  | '\'' :: '\'' :: '\'' :: rest => stringAfter ⟨'\'', true, true⟩ rest
  | chars => lineString chars

/-! ## Numbers -/

/-- Reads a digit or more, all of one class, with single underscores between
them. -/
def digitsFrom (isDigit : Char → Bool) (read : List Char) : Scanner (List Char)
  | [] => if read = [] then none else some (read.reverse, [])
  | [char] =>
    if isDigit char then some ((char :: read).reverse, [])
    else if read = [] ∨ char = '_' then none
    else some (read.reverse, [char])
  | char :: next :: rest =>
    if isDigit char then digitsFrom isDigit (char :: read) (next :: rest)
    else if read = [] then none
    else if char = '_' then
      if isDigit next then digitsFrom isDigit (next :: read) rest else none
    else some (read.reverse, char :: next :: rest)

/-- Drops a sign and says whether it is a minus sign. -/
def signFrom : List Char → Bool × List Char
  | '+' :: rest => (false, rest)
  | '-' :: rest => (true, rest)
  | chars => (false, chars)

/-- Reads a whole number in decimal without its sign.  A zero at the front
stands alone. -/
def wholeFrom : Scanner (List Char)
  | '0' :: rest => some (['0'], rest)
  | chars => digitsFrom Char.isDigit [] chars

def decimalValue (digits : List Char) : Nat :=
  (Numeral.digits? 10 digits).getD 0

/-- Whether `digits` times ten to the power `scale` is so large that the nearest
double-precision number is infinity: from half a step above the largest one. -/
def overflowsDouble (digits : Nat) (scale : Int) : Bool :=
  let magnitude := (Nat.toDigits 10 digits).length + scale
  if digits = 0 ∨ magnitude < 300 then false
  else if 320 < magnitude then true
  else
    Nat.pow 2 1024 - Nat.pow 2 970
      ≤ digits * Nat.pow 10 scale.toNat / Nat.pow 10 (-scale).toNat

/-- Reads the exponent of a number, if there is one. -/
def exponentFrom : Scanner (Option Int)
  | [] => some (none, [])
  | char :: rest =>
    if char = 'e' ∨ char = 'E' then
      let (negative, rest) := signFrom rest
      (digitsFrom Char.isDigit [] rest).map fun (digits, rest) =>
        let value : Int := decimalValue digits
        (some (if negative then -value else value), rest)
    else
      some (none, char :: rest)

/-- Reads the fraction of a number, if there is one. -/
def fractionFrom : Scanner (Option (List Char))
  | '.' :: rest =>
    (digitsFrom Char.isDigit [] rest).map fun (digits, rest) =>
      (some digits, rest)
  | chars => some (none, chars)

/-- Reads a number in decimal.  A whole number has to fit a signed word, and any
other must not exceed the double-precision numbers. -/
def decimalFrom : Scanner Unit := fun chars => do
  let (negative, rest) := signFrom chars
  let (whole, rest) ← wholeFrom rest
  let (fraction, rest) ← fractionFrom rest
  let (exponent, rest) ← exponentFrom rest
  match fraction, exponent with
  | none, none =>
    let limit :=
      if negative then Word.signedLimit else Word.signedLimit - 1
    if decimalValue whole ≤ limit then some ((), rest) else none
  | fraction, exponent =>
    let fraction := fraction.getD []
    let scale := exponent.getD 0 - fraction.length
    if ¬ negative ∧ overflowsDouble (decimalValue (whole ++ fraction)) scale then
      none
    else some ((), rest)

def radixFrom (radix : Nat) : Scanner Unit := fun chars => do
  let isDigit (char : Char) : Bool :=
    (Hex.digitValue? char.toNat).any (· < radix)
  let (digits, rest) ← digitsFrom isDigit [] chars
  if (← Numeral.digits? radix digits) < Word.signedLimit then some ((), rest)
  else none

def namedFrom : Scanner Unit
  | 'i' :: 'n' :: 'f' :: rest => some ((), rest)
  | 'n' :: 'a' :: 'n' :: rest => some ((), rest)
  | _ => none

def number : Scanner Unit
  | '0' :: 'x' :: rest => radixFrom 16 rest
  | '0' :: 'o' :: rest => radixFrom 8 rest
  | '0' :: 'b' :: rest => radixFrom 2 rest
  | chars => namedFrom (signFrom chars).2 <|> decimalFrom chars

/-! ## Moments -/

def fieldFrom (count least greatest : Nat) : Scanner Nat := fun chars =>
  let digits := chars.take count
  if digits.length = count ∧ digits.all Char.isDigit then
    let value := decimalValue digits
    if least ≤ value ∧ value ≤ greatest then some (value, chars.drop count)
    else none
  else
    none

def after? (expected : Char) : List Char → Option (List Char)
  | char :: rest => if char = expected then some rest else none
  | [] => none

def daysIn (year month : Nat) : Nat :=
  if month = 2 then
    if year % 4 = 0 ∧ (year % 100 ≠ 0 ∨ year % 400 = 0) then 29 else 28
  else if month = 4 ∨ month = 6 ∨ month = 9 ∨ month = 11 then 30
  else 31

def date : Scanner Unit := fun chars => do
  let (year, rest) ← fieldFrom 4 0 9999 chars
  let (month, rest) ← fieldFrom 2 1 12 (← after? '-' rest)
  let (_, rest) ← fieldFrom 2 1 (daysIn year month) (← after? '-' rest)
  return ((), rest)

/-- Reads a time of day.  A minute may have a leap second. -/
def timeOfDay : Scanner Unit := fun chars => do
  let (_, rest) ← fieldFrom 2 0 23 chars
  let (_, rest) ← fieldFrom 2 0 59 (← after? ':' rest)
  let (_, rest) ← fieldFrom 2 0 60 (← after? ':' rest)
  match rest with
  | '.' :: fraction =>
    match fraction.takeWhile Char.isDigit with
    | [] => none
    | digits => some ((), fraction.drop digits.length)
  | rest => some ((), rest)

def offset : Scanner Unit
  | 'Z' :: rest | 'z' :: rest => some ((), rest)
  | '+' :: rest | '-' :: rest => do
    let (_, rest) ← fieldFrom 2 0 23 rest
    let (_, rest) ← fieldFrom 2 0 59 (← after? ':' rest)
    return ((), rest)
  | rest => some ((), rest)

/-- Reads the time behind a date, if there is one. -/
def timeBehindDate : Scanner Unit
  | [] => some ((), [])
  | char :: rest =>
    if char = 'T' ∨ char = 't' then do
      let (_, rest) ← timeOfDay rest
      offset rest
    else if char = ' ' then
      match timeOfDay rest with
      | some (_, rest) => offset rest
      | none => some ((), char :: rest)
    else
      some ((), char :: rest)

def moment : Scanner Unit := fun chars =>
  match date chars with
  | some (_, rest) => timeBehindDate rest
  | none => timeOfDay chars

end Toml

end TagWire
