import ImportAlias.Command.Run
import ImportAlias.Log.Line

/-!
# The command line

The program on the machine that runs it: files are those of the operating system, the report goes
to standard output, and the log and complaints go to standard error.
-/

namespace ImportAlias

/-- Why the operating system refused a file. -/
def ReadError.ofIO : IO.Error → ReadError
  | .noFileOrDirectory .. => .notFound
  | .inappropriateType _ 21 _ => .isADirectory
  | .inappropriateType _ 20 _ => .notADirectory
  | e => .other e.toString.toList

/-- The files of the operating system. -/
def machine : Host IO where
  isFile p :=
    try
      let path ← IO.FS.realPath ⟨String.ofList p⟩
      let metadata ← path.metadata
      return metadata.type == .file
    catch _ => return false
  isDirectory p :=
    try
      let path ← IO.FS.realPath ⟨String.ofList p⟩
      let metadata ← path.metadata
      return metadata.type == .dir
    catch _ => return false
  read p :=
    try
      let bytes ← IO.FS.readBinFile ⟨String.ofList p⟩
      return .ok bytes.toList
    catch e => return .error (.ofIO e)
  canonicalize p :=
    try
      let path ← IO.FS.realPath ⟨String.ofList p⟩
      return some path.toString.toList
    catch _ => return none

/-- The value of an environment variable. -/
def machineVariable (name : Text) : IO (Option Text) := do
  return (← IO.getEnv (String.ofList name)).map String.toList

end ImportAlias

open ImportAlias in
/-- Run the program and exit with its code. -/
def main (args : List String) : IO UInt32 := do
  let environment ← Command.Environment.ofVariables machineVariable
  let outcome ← Command.run machine environment (args.map String.toList)
  for entry in outcome.log do
    IO.eprintln (String.ofList (entry.line outcome.jsonLogs))
  IO.print (String.ofList outcome.stdout)
  IO.eprint (String.ofList outcome.complaint)
  return outcome.exitCode.toUInt32
