import TagWire.Files.Path
import TagWire.Files.Store
import TagWire.Toml.Document
import TagWire.Toml.Printer
import TagWire.Vector.Kind

/-!
# Settings

What the tool works on unless it is told otherwise.  Settings are kept in a TOML
file; a file or a key that is missing stands for the usual value.
-/

namespace TagWire

/-- The settings of the tool. -/
structure Settings where
  /-- Where the vector files are. -/
  directory : String
  /-- The kinds of the files to write or check, in order. -/
  kinds : List Kind
  /-- How much to tell while working. -/
  logLevel : String
  deriving DecidableEq, Repr

/-- Why settings cannot be loaded or saved. -/
inductive SettingsError
  /-- The file or directory cannot be had. -/
  | inaccessible (path : String)
  /-- The text of the file does not say settings. -/
  | malformed
  deriving DecidableEq, Repr

namespace Settings

/-- The settings for which nothing has been said. -/
def usual : Settings :=
  { directory := "crates/dybuf-core/tests/fixtures/v1"
    kinds := Kind.all
    logLevel := "info" }

/-! ## Reading -/

def text? : Toml.Value → Option String
  | .text content => some content
  | _ => none

def isHollow : Toml.Value → Bool
  | .array [] => true
  | .table _ [] => true
  | _ => false

/-- The kind that a value names, as a text or as the one key of a table in which
there is nothing else. -/
def kind? : Toml.Value → Option Kind
  | .text name => Kind.ofName? name
  | .table _ [(name, content)] =>
    if isHollow content then Kind.ofName? name else none
  | _ => none

/-- The kinds that a value lists. -/
def kinds? : Toml.Value → Option (List Kind)
  | .array elements => elements.mapM kind?
  | .tables elements => elements.mapM fun entries => kind? (.table .header entries)
  | _ => none

def setting? {α : Type} (entries : Toml.Entries) (key : String)
    (read? : Toml.Value → Option α) (usual : α) : Option α :=
  match entries.get? key with
  | none => some usual
  | some value => read? value

def ofEntries? (entries : Toml.Entries) : Option Settings := do
  return {
    directory := ← setting? entries "fixture_dir" text? usual.directory
    kinds := ← setting? entries "files" kinds? usual.kinds
    logLevel := ← setting? entries "log_level" text? usual.logLevel }

/-- Reads the text of a file of settings. -/
def parse (text : String) : Option Settings := do
  ofEntries? (← Toml.parse text)

/-! ## Writing -/

/-- The text of a file of settings. -/
def render (settings : Settings) : String :=
  String.ofList
    (Toml.printSetting "fixture_dir" (Toml.printString settings.directory)
      ++ Toml.printSetting "files"
        (Toml.printArray (settings.kinds.map Kind.name))
      ++ Toml.printSetting "log_level" (Toml.printString settings.logLevel))

/-! ## Files -/

/-- The settings that a file says, given its text or why there is none.  A file
that is missing says the usual ones. -/
def ofFile (path : String) :
    Except AccessError String → Except SettingsError Settings
  | .ok text =>
    match parse text with
    | some settings => .ok settings
    | none => .error .malformed
  | .error .missing => .ok usual
  | .error .unusable => .error (.inaccessible path)

variable {m : Type → Type} [Monad m] [Store m]

def load (path : String) : ExceptT SettingsError m Settings :=
  ExceptT.mk do return ofFile path (← (Store.readText path).run)

def save (path : String) (settings : Settings) : ExceptT SettingsError m Unit := do
  match Path.parent? path with
  | some directory =>
    (Store.makeDirectories directory).adapt fun _ => .inaccessible directory
  | none => pure ()
  (Store.writeText path settings.render).adapt fun _ => .inaccessible path

end Settings

end TagWire
