import TagWire.CommandLine.Arguments
import TagWire.Settings
import TagWire.Vector.Directory

/-!
# Outcomes

What becomes of a request.  A failure is told in one line; arguments that cannot
be understood are answered with the usage.
-/

namespace TagWire

namespace CommandLine

/-- How a run of the tool ends. -/
structure Outcome where
  exitCode : UInt32
  /-- What is said to the user. -/
  answer? : Option String
  /-- What went wrong. -/
  complaint? : Option String
  deriving DecidableEq, Repr

/-- The name and version of the tool. -/
def version : String := "dybuf-fixtures 0.1.0"

/-- How the tool is used. -/
def usage : String :=
  "Usage: dybuf-fixtures [--config PATH] COMMAND\n"
    ++ "  generate [DIR]  write the vector files\n"
    ++ "  verify [DIR]    check the vector files\n"
    ++ "  init-config     save the settings as they are\n"
    ++ "  help            print this text"

variable {m : Type → Type} [Monad m] [Store m]

/-- Carries out a command with the settings of a file.  What went wrong, if
anything, is the error. -/
def Command.run (settingsPath : String) (command : Command) :
    ExceptT String m Unit := do
  let settings ← (Settings.load settingsPath).adapt fun _ =>
    "loading config from " ++ settingsPath
  match command with
  | .generate directory? =>
    let directory := directory?.getD settings.directory
    let _ ← (VectorFile.writeAll directory settings.kinds).adapt fun _ =>
      "generating fixtures in " ++ directory
  | .verify directory? =>
    let directory := directory?.getD settings.directory
    let reports ← ExceptT.lift (VectorFile.verifyAll directory settings.kinds)
    let failed := reports.countP fun report => !report.passed
    if failed ≠ 0 then
      throw s!"{failed} of {reports.length} fixture files failed in {directory}"
  | .saveSettings =>
    (settings.save settingsPath).adapt fun _ =>
      "writing config to " ++ settingsPath

/-- Does what the arguments ask for. -/
def perform (environment : Environment) (arguments : List String) :
    m Outcome := do
  match request? environment arguments with
  | none => return { exitCode := 2, answer? := none, complaint? := some usage }
  | some .help => return { exitCode := 0, answer? := some usage, complaint? := none }
  | some .version =>
    return { exitCode := 0, answer? := some version, complaint? := none }
  | some (.run settingsPath command) =>
    match ← (command.run settingsPath).run with
    | .ok () => return { exitCode := 0, answer? := none, complaint? := none }
    | .error complaint =>
      return {
        exitCode := 1
        answer? := none
        complaint? := some ("Error: " ++ complaint) }

end CommandLine

end TagWire
