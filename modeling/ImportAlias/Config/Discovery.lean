import ImportAlias.Config.Reader
import ImportAlias.Host.Basic
import ImportAlias.Plugin
import ImportAlias.Resolver.Basic
import ImportAlias.Text.Utf8

/-!
# Finding and loading a configuration

A configuration is looked for in a directory, then in the directory around it, and so on. The
directories are those that the start path itself names: its last component is taken off again and
again, whatever it is, until no component is left. In each directory the names are tried in order,
and the first regular file is the answer; a directory of that name is none.

Loading the file never looks further: a file that cannot be read or is malformed is an error, even
when a sound one lies further up.
-/

namespace ImportAlias

/-! ### The directories on the way up -/

namespace Path

/-- A directory's path with a name added. A name that is itself absolute stands for itself. -/
def within (dir name : Text) : Text :=
  if name.head? == some '/' then name
  else if dir = [] ∨ dir.getLast? == some '/' then dir ++ name
  else dir ++ '/' :: name

/-- Drop from the pieces of a path, given last first, those at its end that are no components:
empty ones, and `.` unless the path begins with it. -/
def dropBlankPieces : List Text → List Text
  | [] => []
  | [first] => [first]
  | piece :: pieces =>
    if piece = [] ∨ piece = ['.'] then dropBlankPieces pieces else piece :: pieces

/-- The path whose pieces are given last first, without a separator at its end. -/
def ofPieces (pieces : List Text) : Text :=
  if dropBlankPieces pieces = [[]] then ['/']
  else ['/'].intercalate (dropBlankPieces pieces).reverse

/-- The directories around a path whose pieces are given last first, the nearest first. A relative
path ends with the empty one, which stands for the working directory. -/
def enclosing : List Text → List Text
  | [] => []
  | [first] => if first = [] then [] else [[]]
  | piece :: pieces =>
    if piece = [] ∨ piece = ['.'] then enclosing pieces
    else ofPieces pieces :: enclosing pieces

/-- A path and the directories around it, the nearest first. -/
def ascending (p : Text) : List Text := p :: enclosing (p.splitOn '/').reverse

end Path

namespace Config

/-- The first of `names` that is a regular file in `start` or, failing that, in the nearest
directory around it that has one. -/
def findUp {m : Type → Type} [Monad m] (host : Host m) (names : List Text) (start : Text) :
    m (Option Text) :=
  ((Path.ascending start).flatMap fun dir => names.map (Path.within dir)).findM? host.isFile

/-- The names of configuration files. Where a directory has both, the first counts. -/
def fileNames : List Text := ["tsconfig.json".toList, "jsconfig.json".toList]

/-- The configuration file nearest to a directory. -/
def find {m : Type → Type} [Monad m] (host : Host m) (start : Text) : m (Option Text) :=
  findUp host fileNames start

/-! ### Loaded configurations -/

/-- A configuration file and the options that it declares. -/
structure Loaded where
  /-- The file's path as the host knows it. -/
  path : Decoded
  options : PathOptions

namespace Loaded

/-- The path as it is shown. -/
def shownPath (c : Loaded) : Text := c.path.lossy

/-- The path as a text, which it is not on every host. -/
def configFile (c : Loaded) : Except ConfigError Text :=
  match c.path.text? with
  | some p => .ok p
  | none => .error (.pathNotText c.path.lossy)

/-- The resolver for the configuration. -/
def build (platform : Platform) (c : Loaded) : Except ConfigError Resolver :=
  match c.configFile with
  | .error e => .error e
  | .ok configFile =>
    match Resolver.build platform configFile c.options with
    | .error e => .error (.oversizedKey e)
    | .ok r => .ok r

/-- The bundler plugin for the configuration. -/
def plugin (platform : Platform) (c : Loaded) : Except ConfigError PathsPlugin :=
  match c.build platform with
  | .error e => .error e
  | .ok resolver => .ok { resolver }

/-- The event that reports the loading of a configuration. -/
def event (c : Loaded) : Event :=
  .configLoaded c.shownPath c.options.baseUrl ((c.options.paths.map OrderedMap.size).getD 0)

end Loaded

/-- The text of a file. Bytes that are no text are shown as U+FFFD. -/
def readSource {m : Type → Type} [Monad m] (host : Host m) (p : Text) : m (Except ReadError Text) :=
  do
    match ← host.read p with
    | .ok bytes => return .ok (Utf8.decode bytes).lossy
    | .error e => return .error e

/-- What a configuration file of known text declares, or why it cannot be used. -/
def ofSource (p : Text) : Except ReadError Text → Except ConfigError Loaded
  | .error cause => .error (.unreadable p cause)
  | .ok source =>
    match parse source with
    | .error error => .error (.malformed p error)
    | .ok options => .ok { path := .ofText p, options }

/-- Load the configuration file at a path. -/
def load {m : Type → Type} [Monad m] (host : Host m) (p : Text) : m (Except ConfigError Loaded) :=
  do return ofSource p (← readSource host p)

/-- Load the configuration file nearest to a directory. -/
def discover {m : Type → Type} [Monad m] (host : Host m) (start : Text) :
    m (Except ConfigError Loaded) := do
  match ← find host start with
  | none => return .error (.notFound start)
  | some p => load host p

end Config

end ImportAlias
