import TagWire.Text.Utf8

/-!
# Stores of files

What a program needs of the place where its files are.  It is stated for every
monad, so that a program can run on real files and be reasoned about on a tree.
-/

namespace TagWire

/-- Why a file cannot be had. -/
inductive AccessError
  /-- Nothing is there. -/
  | missing
  /-- What is there or is asked for does not fit. -/
  | unusable
  deriving DecidableEq, Repr

/-- A place to keep files in. -/
class Store (m : Type → Type) where
  /-- The bytes of a file. -/
  read : (path : String) → ExceptT AccessError m (List UInt8)
  /-- Makes a file of these bytes, or replaces the one that is there. -/
  write : (path : String) → (bytes : List UInt8) → ExceptT AccessError m Unit
  /-- Makes a directory and those above it, unless they are there. -/
  makeDirectories : (path : String) → ExceptT AccessError m Unit

namespace Store

variable {m : Type → Type} [Monad m] [Store m]

def readText (path : String) : ExceptT AccessError m String := do
  match Utf8.decode (← read path) with
  | .ok text => return text
  | .error _ => throw .unusable

def writeText (path text : String) : ExceptT AccessError m Unit :=
  write path (Utf8.encode text)

end Store

end TagWire
