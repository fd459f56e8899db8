import ImportAlias.Command.Perform
import ImportAlias.Log.Filter

/-!
# Running the program

A run reads its arguments, settles in a working directory, and performs one command there. On a
file tree a run is a value: what it prints, what it logs, and the code with which it exits.

Either the whole report is printed and the code is zero, or nothing is printed. Of the events of
the command only those that the log filter shows are logged.
-/

namespace ImportAlias

namespace Command

/-- What the environment says. -/
structure Environment where
  /-- The platform to use where no option names one. -/
  platform : Option Text := none
  /-- The directives of the log filter. -/
  logFilter : Option Text := none
  deriving DecidableEq, Repr

namespace Environment

/-- The variable that names the platform. -/
def platformVariable : Text := "TSPATHS_PLATFORM".toList

/-- The variable that holds the directives of the log filter. -/
def logFilterVariable : Text := "RUST_LOG".toList

/-- The environment whose variables have the values that `lookup` gives. -/
def ofVariables {m : Type → Type} [Monad m] (lookup : Text → m (Option Text)) : m Environment := do
  let platform ← lookup platformVariable
  let logFilter ← lookup logFilterVariable
  return { platform, logFilter }

end Environment

/-- The name of an action. -/
def Action.name : Action → Text
  | .version => "version".toList
  | .resolve .. => "resolve".toList
  | .mappings _ => "mappings".toList

/-- The period in which an action is performed. -/
def span (s : Settings) (action : Action) : Log.Span where
  name := action.name
  fields := [("cmd".toList, action.name), ("cwd".toList, s.cwd)]

/-- The settings of an invocation, unless its working directory does not exist. -/
def Invocation.settings {m : Type → Type} [Monad m] (host : Host m) (i : Invocation) :
    m (Except Failure Settings) := do
  let dir := i.cwd.getD ['.']
  match ← host.canonicalize dir with
  | none => return .error (.noSuchDirectory dir)
  | some cwd =>
    let s : Settings := { cwd }
    return .ok
      (((s.withVerbosity i.verbosity).withJsonLogs i.json).withPlatform
        (i.platform.getD s.platform))

/-- What a run leaves. -/
structure Outcome where
  exitCode : Nat
  /-- What is printed. -/
  stdout : Text := []
  /-- What the user is told when nothing was done. -/
  complaint : Text := []
  /-- What is logged. -/
  log : List Log.Entry := []
  /-- Whether the log is written as JSON. -/
  jsonLogs : Bool := false

namespace Outcome

/-- How the program is used. -/
def usage : Text :=
  line "Resolve import specifiers through tsconfig paths and baseUrl".toList ++ line [] ++
    line "Usage: tspaths [OPTIONS] [COMMAND]".toList ++ line [] ++
    line "Commands:".toList ++
    line "  version                  Print version information".toList ++
    line "  resolve SPECIFIER...     Resolve one or more specifiers".toList ++
    line "  mappings                 Show the compiled baseUrl and paths entries".toList ++
    line "  help                     Print this help".toList ++ line [] ++
    line "Options:".toList ++
    line ("  -v, --verbose            Increase logging verbosity " ++
      "(-v for DEBUG, -vv for TRACE)").toList ++
    line "      --json               Emit JSON formatted output".toList ++
    line "      --cwd PATH           Override the working directory".toList ++
    line "      --platform PLATFORM  Path convention: posix or windows".toList ++
    line "  -h, --help               Print this help".toList ++
    line "  -V, --version            Print the version".toList ++ line [] ++
    line "Options of resolve and mappings:".toList ++
    line
      "  -p, --project PATH       tsconfig/jsconfig file, or a directory containing one".toList ++
    line [] ++
    line "Options of resolve:".toList ++
    line "      --relative           Print resolved paths relative to the working directory".toList

/-- The outcome when no command is run. -/
def ofStop : Stop → Outcome
  | .usage => { exitCode := 2, complaint := usage }
  | .help => { exitCode := 0, stdout := usage }
  | .version => { exitCode := 0, stdout := line VersionInfo.current.text }

/-- The outcome when a command has failed. -/
def ofFailure (failure : Failure) : Outcome :=
  { exitCode := failure.exitCode, complaint := line failure.message }

/-- The outcome when a command has ended. -/
def ofEnded (json : Bool) (e : Ended) : Outcome :=
  match e.result with
  | .error failure => ofFailure failure
  | .ok report => { exitCode := 0, stdout := report.print json }

end Outcome

/-- Carry out an invocation. -/
def carryOut {m : Type → Type} [Monad m] (host : Host m) (logFilter : Option Text)
    (i : Invocation) : m Outcome := do
  match ← i.settings host with
  | .error failure => return .ofFailure failure
  | .ok s =>
    match Log.Filter.ofRun logFilter s.verbosity with
    | none => return .ofFailure .splitCharacter
    | some filter =>
      let ended ← perform host s i.action
      let log := filter.entries (span s i.action) ended.events
      return { Outcome.ofEnded i.json ended with log, jsonLogs := s.jsonLogs }

/-- Run the program with its arguments. -/
def run {m : Type → Type} [Monad m] (host : Host m) (environment : Environment)
    (args : List Text) : m Outcome :=
  match parseArguments environment.platform args with
  | .error stop => return .ofStop stop
  | .ok i => carryOut host environment.logFilter i

end Command

end ImportAlias
