import ImportAlias.Json.Fault
import ImportAlias.Mapping

/-!
# Why a resolver cannot be had

Only finding, reading and compiling a configuration can fail. A look-up in a resolver that was
built never does.
-/

namespace ImportAlias

/-- Why a file cannot be read. -/
inductive ReadError where
  | notFound
  | isADirectory
  | notADirectory
  /-- Another cause, in the words of the host. -/
  | other (message : Text)
  deriving DecidableEq, Repr

/-- The cause in the words of the host. -/
def ReadError.message : ReadError → Text
  | notFound => "No such file or directory (os error 2)".toList
  | isADirectory => "Is a directory (os error 21)".toList
  | notADirectory => "Not a directory (os error 20)".toList
  | other message => message

/-- Why a resolver cannot be had. -/
inductive ConfigError where
  | unreadable (path : Text) (cause : ReadError)
  | malformed (path : Text) (error : Json.SyntaxError)
  | notFound (start : Text)
  | oversizedKey (error : Mapping.OversizedKey)
  /-- A cause without a kind of its own. -/
  | other (message : Text)
  deriving DecidableEq, Repr

namespace ConfigError

/-- The cause that a configuration's path is no text; `shown` is the path with its gaps shown. -/
def pathNotText (shown : Text) : ConfigError :=
  .other ("Config path is not valid UTF-8: ".toList ++ shown)

/-- What the user is told. -/
def message : ConfigError → Text
  | unreadable path cause =>
    "Failed to read config at ".toList ++ path ++ ": ".toList ++ cause.message
  | malformed path error =>
    "Failed to parse config at ".toList ++ path ++ ": ".toList ++ error.message
  | notFound start => "No tsconfig.json or jsconfig.json found from ".toList ++ start
  | oversizedKey error => error.message
  | other message => message

end ConfigError

end ImportAlias
