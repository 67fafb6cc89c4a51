import TagWire.Text.Hex

/-!
# Writing TOML

Strings and arrays of strings.  A string is written so that as little of it as
possible has to be escaped: between double quotes if it needs no escape there,
else as a literal, else over several lines, and only then with escapes.
-/

namespace TagWire

namespace Toml

/-- What decides how a string can be written. -/
structure Traits where
  /-- The longest run of single quotes. -/
  singleRun : Nat
  /-- The longest run of double quotes. -/
  doubleRun : Nat
  /-- Whether there is a control character that has to be escaped. -/
  hasControl : Bool
  hasBackslash : Bool
  hasNewline : Bool
  deriving DecidableEq, Repr

/-- The length of the longest run of a character, if `current` of them stand
before the text. -/
def longestRun (char : Char) (current : Nat) : List Char → Nat
  | [] => current
  | first :: rest =>
    if first = char then longestRun char (current + 1) rest
    else max current (longestRun char 0 rest)

def isControl (char : Char) : Bool :=
  char ≠ '\t' && char ≠ '\n' && (char.toNat < 0x20 || char.toNat = 0x7F)

def Traits.of (chars : List Char) : Traits :=
  { singleRun := longestRun '\'' 0 chars
    doubleRun := longestRun '"' 0 chars
    hasControl := chars.any isControl
    hasBackslash := chars.contains '\\'
    hasNewline := chars.contains '\n' }

/-- The ways to write a string. -/
inductive Style
  | basic
  | literal
  | multilineBasic
  | multilineLiteral
  deriving DecidableEq, Repr

/-- The first way that a text with these traits can be written in. -/
def Traits.style (traits : Traits) : Style :=
  if ¬ traits.hasControl ∧ ¬ traits.hasBackslash ∧ traits.doubleRun = 0
      ∧ ¬ traits.hasNewline then .basic
  else if ¬ traits.hasControl ∧ traits.singleRun = 0 ∧ ¬ traits.hasNewline then
    .literal
  else if ¬ traits.hasControl ∧ ¬ traits.hasBackslash ∧ traits.doubleRun ≤ 2 then
    .multilineBasic
  else if ¬ traits.hasControl ∧ traits.singleRun ≤ 2 then .multilineLiteral
  else if traits.hasNewline then .multilineBasic
  else .basic

/-- A character that is escaped whatever stands before it. -/
def escape? (multiline : Bool) (char : Char) : Option (List Char) :=
  match char with
  | '\x08' => some ['\\', 'b']
  | '\t' => some ['\\', 't']
  | '\n' => if multiline then none else some ['\\', 'n']
  | '\x0C' => some ['\\', 'f']
  | '\r' => some ['\\', 'r']
  | '\\' => some ['\\', '\\']
  | char =>
    if char.toNat < 0x20 ∨ char.toNat = 0x7F then
      some (['\\', 'u', '0', '0']
        ++ (Hex.byteDigits (UInt8.ofNat char.toNat)).map Char.toUpper)
    else none

/-- The inside of a string with escapes, behind `quotes` double quotes that
stand for themselves.  Over several lines two quotes in a row may do so. -/
def escaped (multiline : Bool) (quotes : Nat) : List Char → List Char
  | [] => []
  | '"' :: rest =>
    if multiline ∧ quotes < 2 then '"' :: escaped multiline (quotes + 1) rest
    else '\\' :: '"' :: escaped multiline 0 rest
  | char :: rest =>
    (escape? multiline char).getD [char] ++ escaped multiline 0 rest

/-- A text as a string.  Over several lines the first one stays empty if there
are more. -/
def printString (text : String) : List Char :=
  let chars := text.toList
  let traits := Traits.of chars
  let opening := if traits.hasNewline then ['\n'] else []
  match traits.style with
  | .basic => ['"'] ++ escaped false 0 chars ++ ['"']
  | .literal => ['\''] ++ chars ++ ['\'']
  | .multilineBasic =>
    "\"\"\"".toList ++ opening ++ escaped true 0 chars ++ "\"\"\"".toList
  | .multilineLiteral => "'''".toList ++ opening ++ chars ++ "'''".toList

/-- An array of strings, with a line for each if there are two or more. -/
def printArray : List String → List Char
  | [] => ['[', ']']
  | [text] => '[' :: printString text ++ [']']
  | texts =>
    ['[', '\n']
      ++ texts.flatMap (fun text => "    ".toList ++ printString text ++ [',', '\n'])
      ++ [']']

def printSetting (key : String) (value : List Char) : List Char :=
  key.toList ++ " = ".toList ++ value ++ ['\n']

end Toml

end TagWire
