/-!
# Arguments

What the arguments of the tool ask for.  Options stand before the command, the
directory behind it.  Reading goes from left to right: asking for help ends it,
unless something before was wrong.
-/

namespace TagWire

namespace CommandLine

/-! ## Words -/

/-- What an argument looks like. -/
inductive Word
  /-- Two dashes, behind which everything is plain. -/
  | separator
  /-- A long option, with the value attached to it, if there is one. -/
  | long (name : String) (attached? : Option String)
  /-- Short options, of which the first one decides. -/
  | short (letter : Char)
  | plain (text : String)
  deriving DecidableEq, Repr

def attached? : List Char → Option String
  | '=' :: value => some (String.ofList value)
  | _ => none

/-- What an argument looks like.  A dash alone is plain. -/
def Word.of (argument : String) : Word :=
  match argument.toList with
  | ['-', '-'] => .separator
  | '-' :: '-' :: chars =>
    .long (String.ofList (chars.takeWhile (· ≠ '=')))
      (attached? (chars.dropWhile (· ≠ '=')))
  | '-' :: letter :: _ => .short letter
  | _ => .plain argument

/-! ## Requests -/

/-- What the tool can do. -/
inductive Verb
  | generate
  | verify
  | saveSettings
  deriving DecidableEq, Repr

def Verb.ofName? : String → Option Verb
  | "generate" => some generate
  | "verify" => some verify
  | "init-config" => some saveSettings
  | _ => none

/-- What the tool is to do. -/
inductive Command
  /-- Write the vector files into a directory. -/
  | generate (directory? : Option String)
  /-- Check the vector files in a directory. -/
  | verify (directory? : Option String)
  /-- Save the settings as they are. -/
  | saveSettings
  deriving DecidableEq, Repr

/-- What the arguments ask for. -/
inductive Request
  | help
  | version
  | run (settingsPath : String) (command : Command)
  deriving DecidableEq, Repr

/-- What stands in for arguments that are not given. -/
structure Environment where
  settingsPath? : Option String
  directory? : Option String
  deriving DecidableEq, Repr

/-- Looks the environment up by its names. -/
def Environment.collect {m : Type → Type} [Monad m]
    (lookup : String → m (Option String)) : m Environment := do
  return {
    settingsPath? := ← lookup "DYBUF_CONFIG"
    directory? := ← lookup "DYBUF_FIXTURE_DIR" }

/-- The file of settings if none is named. -/
def usualSettingsPath : String := "dybuf-fixtures.toml"

/-! ## Before the command -/

/-- The value of an option that has been read last.  It is judged only when more
is read. -/
inductive Pending
  | nothing
  | awaited
  | given (text : String)
  deriving DecidableEq, Repr

/-- What has been read before the command. -/
structure Preamble where
  accepted? : Option String
  pending : Pending
  deriving DecidableEq, Repr

/-- Accepts a path for the settings, which must not be empty, and not be the
second one. -/
def Preamble.accept (preamble : Preamble) (text : String) : Option Preamble :=
  if text = "" ∨ preamble.accepted?.isSome then none
  else some { accepted? := some text, pending := .nothing }

/-- Judges what is pending. -/
def Preamble.settle (preamble : Preamble) : Option Preamble :=
  match preamble.pending with
  | .nothing => some preamble
  | .awaited => none
  | .given text => preamble.accept text

/-- How the arguments begin. -/
inductive Opening
  | help
  | version
  /-- With a command, or with the wish for help on one. -/
  | command (preamble : Preamble) (name : String) (rest : List String)
  deriving DecidableEq, Repr

def isCommandName (name : String) : Bool :=
  name == "help" || (Verb.ofName? name).isSome

/-- Reads on to the command. -/
def openingFrom (preamble : Preamble) : List String → Option Opening
  | [] => none
  | argument :: rest =>
    if preamble.pending ≠ .awaited ∧ isCommandName argument then
      some (.command preamble argument rest)
    else
      match Word.of argument with
      | .separator => none
      | .long "config" none => do
        openingFrom { ← preamble.settle with pending := .awaited } rest
      | .long "config" (some text) => do
        openingFrom (← (← preamble.settle).accept text) rest
      | .long "help" none | .short 'h' => preamble.settle.map fun _ => .help
      | .long "version" none | .short 'V' =>
        preamble.settle.map fun _ => .version
      | .long _ _ | .short _ => none
      | .plain text =>
        if preamble.pending = .awaited then
          openingFrom { preamble with pending := .given text } rest
        else
          none

/-! ## Behind the command -/

/-- What is asked for behind a command. -/
inductive Tail
  | help
  | directory (given? : Option String)
  deriving DecidableEq, Repr

/-- Reads what stands behind a command, which may take a directory.  Behind a
separator everything is taken literally. -/
def tailFrom (takesDirectory : Bool) :
    (given? : Option String) → (literal : Bool) → List String → Option Tail
  | given?, _, [] => some (.directory given?)
  | given?, literal, argument :: rest =>
    match literal, Word.of argument with
    | false, .separator => tailFrom takesDirectory given? true rest
    | false, .long "help" none | false, .short 'h' =>
      if given? = some "" then none else some .help
    | false, .long _ _ | false, .short _ => none
    | _, _ =>
      if takesDirectory ∧ given? = none then
        tailFrom takesDirectory (some argument) literal rest
      else
        none

/-- Whether help can be had on what is named behind the wish for it. -/
def isTopic : List String → Bool
  | [] => true
  | [name] => isCommandName name
  | _ => false

/-! ## All together -/

/-- The path that is given, or else the one that stands in for it.  It must not
be empty. -/
def resolve (given? standIn? : Option String) : Option (Option String) :=
  match given? <|> standIn? with
  | some "" => none
  | path? => some path?

def settingsPath (environment : Environment) (preamble : Preamble) :
    Option String := do
  let preamble ← preamble.settle
  let path? ← resolve preamble.accepted? environment.settingsPath?
  return path?.getD usualSettingsPath

def Verb.command (environment : Environment) (given? : Option String) :
    Verb → Option Command
  | .generate => (resolve given? environment.directory?).map .generate
  | .verify => (resolve given? environment.directory?).map .verify
  | .saveSettings => some .saveSettings

/-- What the arguments ask for, if they can be understood. -/
def request? (environment : Environment) (arguments : List String) :
    Option Request := do
  match ← openingFrom { accepted? := none, pending := .nothing } arguments with
  | .help => return .help
  | .version => return .version
  | .command preamble name rest =>
    match Verb.ofName? name with
    | none => if isTopic rest then return .help else none
    | some verb =>
      match ← tailFrom (verb ≠ .saveSettings) none false rest with
      | .help => return .help
      | .directory given? =>
        let command ← verb.command environment given?
        return .run (← settingsPath environment preamble) command

end CommandLine

end TagWire
