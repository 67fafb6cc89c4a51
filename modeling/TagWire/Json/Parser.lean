import TagWire.Json.Lexer

/-!
# Reading JSON texts

The grammar is the strict one: one value for the whole text, no comments, and
no comma behind the last element.
-/

namespace TagWire

namespace Json

mutual

/-- Reads a value.  Containers nest less deep than `fuel`. -/
def valueFrom : (fuel : Nat) → List Token → Option (Value × List Token)
  | 0, _ => none
  | _ + 1, [] => none
  | fuel + 1, token :: rest =>
    match token with
    | .null => some (.null, rest)
    | .bool truth => some (.bool truth, rest)
    | .number natural? => some (.number natural?, rest)
    | .string content? => some (.string content?, rest)
    | .leftBracket =>
      match rest with
      | .rightBracket :: rest => some (.array [], rest)
      | rest => elementsFrom fuel [] rest
    | .leftBrace =>
      match rest with
      | .rightBrace :: rest => some (.object [], rest)
      | rest => membersFrom fuel [] rest
    | _ => none

/-- Reads the elements of an array after those `read`, latest first. -/
def elementsFrom : (fuel : Nat) → (read : List Value) → List Token →
    Option (Value × List Token)
  | 0, _, _ => none
  | fuel + 1, read, tokens =>
    match valueFrom fuel tokens with
    | some (value, .comma :: rest) => elementsFrom fuel (value :: read) rest
    | some (value, .rightBracket :: rest) =>
      some (.array (value :: read).reverse, rest)
    | _ => none

/-- Reads the members of an object after those `read`, latest first. -/
def membersFrom : (fuel : Nat) → (read : List (Option String × Value)) →
    List Token → Option (Value × List Token)
  | 0, _, _ => none
  | fuel + 1, read, .string key? :: .colon :: tokens =>
    match valueFrom fuel tokens with
    | some (value, .comma :: rest) =>
      membersFrom fuel ((key?, value) :: read) rest
    | some (value, .rightBrace :: rest) =>
      some (.object ((key?, value) :: read).reverse, rest)
    | _ => none
  | _ + 1, _, _ => none

end

/-- Reads a whole text.  A container and each of its elements take a token of
their own, so twice the number of tokens is fuel enough. -/
def parse (text : String) : Option Value := do
  let tokens ← tokens text.toList
  match ← valueFrom (2 * tokens.length) tokens with
  | (value, []) => return value
  | _ => none

end Json

end TagWire
