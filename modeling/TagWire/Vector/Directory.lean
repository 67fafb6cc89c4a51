import TagWire.Files.Path
import TagWire.Files.Store
import TagWire.Vector.Check
import TagWire.Vector.File

/-!
# Directories of vector files

A directory holds one file for each kind.  Writing a directory stops at the first
file that cannot be written; checking one looks at every file.
-/

namespace TagWire

/-- Why a vector file cannot be written or does not pass. -/
inductive VectorFileError
  /-- The file or directory cannot be had. -/
  | inaccessible (path : String)
  /-- The text of the file is no list of cases. -/
  | malformed (path : String)
  /-- A case cannot be written. -/
  | unencodable (error : WireError)
  /-- A case does not conform. -/
  | nonconforming (path : String) (failure : CaseFailure)
  deriving DecidableEq, Repr

def VectorFileError.message : VectorFileError → String
  | inaccessible path => path ++ " cannot be used"
  | malformed path => path ++ " is no vector file"
  | unencodable error => "building a case failed: " ++ error.message
  | nonconforming path failure =>
    path ++ " fails conformance: " ++ failure.message

/-- What became of one file. -/
structure FileReport where
  kind : Kind
  path : String
  /-- How many cases passed, or why the file did not. -/
  outcome : Except VectorFileError Nat

def FileReport.passed (report : FileReport) : Bool := report.outcome.isOk

namespace VectorFile

def path (directory : String) (kind : Kind) : String :=
  Path.join directory kind.fileName

/-- Checks the text of the file at a path. -/
def checkText (path : String) (kind : Kind) (text : String) :
    Except VectorFileError Nat :=
  match parse kind text with
  | none => .error (.malformed path)
  | some cases => (Check.cases cases).mapError (.nonconforming path)

variable {m : Type → Type} [Monad m] [Store m]

/-- Writes the canonical file of a kind, and answers its path. -/
def write (directory : String) (kind : Kind) :
    ExceptT VectorFileError m String := do
  let path := path directory kind
  let text ← ExceptT.mk (pure ((renderCanonical kind).mapError .unencodable))
  (Store.writeText path text).adapt fun _ => .inaccessible path
  return path

/-- Checks the file of a kind, and answers the number of its cases. -/
def verify (directory : String) (kind : Kind) :
    ExceptT VectorFileError m Nat := do
  let path := path directory kind
  let text ← (Store.readText path).adapt fun _ => .inaccessible path
  ExceptT.mk (pure (checkText path kind text))

/-- Writes the canonical files of kinds in order, and answers their paths. -/
def writeAll (directory : String) (kinds : List Kind) :
    ExceptT VectorFileError m (List String) := do
  (Store.makeDirectories directory).adapt fun _ => .inaccessible directory
  kinds.mapM (write directory)

def verifyAll (directory : String) (kinds : List Kind) : m (List FileReport) :=
  kinds.mapM fun kind => do
    return {
      kind
      path := path directory kind
      outcome := ← (verify directory kind).run }

end VectorFile

end TagWire
