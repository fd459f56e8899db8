import ImportAlias.Path.Platform

/-!
# Settings of a run

What every command of the program depends on, collected once at its start.
-/

namespace ImportAlias

/-- The settings of a run. -/
structure Settings where
  /-- The working directory. -/
  cwd : Text
  /-- Whether the log is written as JSON. -/
  jsonLogs : Bool := false
  /-- How often more detail was asked for. -/
  verbosity : Nat := 0
  /-- The path convention of every resolver. -/
  platform : Platform := .posix
  deriving DecidableEq, Repr

namespace Settings

/-- The settings with another verbosity. -/
def withVerbosity (s : Settings) (verbosity : Nat) : Settings := { s with verbosity }

/-- The settings with JSON logs or without. -/
def withJsonLogs (s : Settings) (jsonLogs : Bool) : Settings := { s with jsonLogs }

/-- The settings with another path convention. -/
def withPlatform (s : Settings) (platform : Platform) : Settings := { s with platform }

end Settings

end ImportAlias
