import TagWire.CommandLine.Outcome

/-!
# The tool

Runs on the files of the machine.  What the tool says goes to the user, and what
went wrong to the stream for errors.
-/

namespace TagWire

/-- Tries an action on a file. -/
def attempt {α : Type} (action : IO α) : ExceptT AccessError IO α :=
  ExceptT.mk do
    try
      return .ok (← action)
    catch
      | .noFileOrDirectory .. => return .error .missing
      | _ => return .error .unusable

instance : Store IO where
  read path := do return (← attempt (IO.FS.readBinFile path)).toList
  write path bytes := attempt (IO.FS.writeBinFile path ⟨bytes.toArray⟩)
  makeDirectories path :=
    if path = "" then pure () else attempt (IO.FS.createDirAll path)

/-- Does what the arguments ask for on the files of the machine, and says how it
went. -/
def runTool (arguments : List String) : IO UInt32 := do
  let environment ← CommandLine.Environment.collect fun name =>
    (IO.getEnv name : IO (Option String))
  let outcome ← (CommandLine.perform environment arguments : IO CommandLine.Outcome)
  outcome.answer?.forM fun answer => IO.println answer
  outcome.complaint?.forM fun complaint => IO.eprintln complaint
  return outcome.exitCode

end TagWire

/-- Runs the tool. -/
def main (arguments : List String) : IO UInt32 := TagWire.runTool arguments
