import TagWire.Json.Parser
import TagWire.Vector.Canonical

/-!
# Texts of vector files

A vector file is a JSON object whose only needed member is the array of cases.
It is written with one case on each line.  On reading, members with unknown
names are passed over, and an object may also be given as the array of its
members' values in the order of the schema.
-/

namespace TagWire

namespace VectorFile

/-! ## Writing -/

/-- The lines of the cases, with a comma behind every one but the last. -/
def caseLines : List (List Char) → List Char
  | [] => []
  | [line] => "    ".toList ++ line ++ ['\n']
  | line :: lines => "    ".toList ++ line ++ [',', '\n'] ++ caseLines lines

/-- The text of the file that holds the cases. -/
def render {kind : Kind} (cases : List kind.Case) : String :=
  String.ofList ("\x7b\n  \"cases\": [\n".toList
    ++ caseLines (cases.map Kind.Case.print)
    ++ "  ]\n\x7d\n".toList)

def renderCanonical (kind : Kind) : Except WireError String := do
  return render (← Canonical.cases kind)

/-! ## Reading -/

/-- The values of the named members, each of which has to be there once. -/
def members? (names : List String) :
    Json.Value → Option (List Json.Value)
  | .array elements =>
    if elements.length = names.length then some elements else none
  | .object members => do
    let named ← members.mapM fun (key?, value) => key?.map fun key => (key, value)
    names.mapM fun name =>
      match named.filter fun member => member.1 == name with
      | [member] => some member.2
      | _ => none
  | _ => none

def scalar? : Shape → Json.Value → Option Json.Scalar
  | .text, .string (some content) => some (.text content)
  | .natural bits, .number (some value) =>
    if value < Nat.pow 2 bits then some (.natural value) else none
  | _, _ => none

def case? (kind : Kind) (value : Json.Value) : Option kind.Case := do
  let values ← members? (kind.schema.map Prod.fst) value
  let scalars ← (kind.schema.zip values).mapM fun (member, value) =>
    scalar? member.2 value
  Kind.Case.ofScalars? kind scalars

/-- Reads the cases of a file. -/
def parse (kind : Kind) (text : String) : Option (List kind.Case) := do
  match ← members? ["cases"] (← Json.parse text) with
  | [.array elements] => elements.mapM (case? kind)
  | _ => none

end VectorFile

end TagWire
