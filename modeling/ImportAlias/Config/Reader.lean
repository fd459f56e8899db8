import ImportAlias.Json.Container
import ImportAlias.Json.Skip
import ImportAlias.Jsonc.Comments
import ImportAlias.Jsonc.TrailingCommas
import ImportAlias.Options

/-!
# Reading a configuration

A configuration is a JSON document that may hold comments and trailing commas. Of it only the
member `compilerOptions` is read, and of that only `baseUrl` and `paths`; every other member is
skipped. None of these may be declared twice, but a key of the `paths` table may: the last
templates count.

Where an object with known members belongs, an array of their values in order is read as well.
-/

namespace ImportAlias

namespace Config

open Json

/-- Read an array of templates. -/
def readTemplates (s : Text) : Read (List Text) := readArray readText s

/-- Read the templates of one key into a table. -/
def pathsMember (table : PathsTable) (key rest : Text) : Read PathsTable :=
  match readColon rest with
  | .error fault => .error fault
  | .ok rest =>
    match readTemplates rest with
    | .ok (templates, rest) => .ok (table.insert key templates, rest)
    | .error fault => .error fault

/-- Read a `paths` table. -/
def readPaths (s : Text) : Read PathsTable :=
  match skipSpace s with
  | '\x7b' :: rest => readObject pathsMember .empty rest
  | s => .error (mistyped .map s)

/-- Skip the value of a member that does not matter. -/
def skipMember {σ : Type} (state : σ) (rest : Text) : Read σ :=
  match readColon rest with
  | .error fault => .error fault
  | .ok rest =>
    match skipValue rest with
    | .ok rest => .ok (state, rest)
    | .error fault => .error fault

/-- Read the value of a member that may come only once. -/
def readOnce {α : Type} (read : Text → Read α) (seen : Option α) (key rest : Text) :
    Read (Option α) :=
  if seen.isSome then .error (duplicateKey key rest)
  else
    match readColon rest with
    | .error fault => .error fault
    | .ok rest =>
      match read rest with
      | .ok (a, rest) => .ok (some a, rest)
      | .error fault => .error fault

/-- The members of the options that were met so far, each of which may be null. -/
structure Declared where
  baseUrl : Option (Option Text) := none
  paths : Option (Option PathsTable) := none

/-- What the members declare. A member that is absent declares as little as one that is null. -/
def Declared.options (d : Declared) : PathOptions where
  baseUrl := d.baseUrl.getD none
  paths := d.paths.getD none

/-- Read one member of the options. -/
def optionsMember (d : Declared) (key rest : Text) : Read Declared :=
  if key = "baseUrl".toList then
    match readOnce (readNullable readText) d.baseUrl key rest with
    | .ok (baseUrl, rest) => .ok ({ d with baseUrl }, rest)
    | .error fault => .error fault
  else if key = "paths".toList then
    match readOnce (readNullable readPaths) d.paths key rest with
    | .ok (paths, rest) => .ok ({ d with paths }, rest)
    | .error fault => .error fault
  else skipMember d rest

/-- Read the next element of an array, if there is one, by `read`. -/
def readPositional {α : Type} (read : Text → Read α) (first : Bool) (s : Text) :
    Read (Option α) :=
  match nextElement first s with
  | .error fault => .error fault
  | .ok none => .ok (none, s)
  | .ok (some s) =>
    match read s with
    | .ok (a, rest) => .ok (some a, rest)
    | .error fault => .error fault

/-- Read options from the array of their values. -/
def readOptionsArray (s : Text) : Read PathOptions :=
  match readPositional (readNullable readText) true s with
  | .error fault => .error fault
  | .ok (baseUrl, s) =>
    match readPositional (readNullable readPaths) baseUrl.isNone s with
    | .error fault => .error fault
    | .ok (paths, s) =>
      match endArray s with
      | .ok rest => .ok (Declared.options { baseUrl, paths }, rest)
      | .error fault => .error fault

/-- Read options. -/
def readOptions (s : Text) : Read PathOptions :=
  match skipSpace s with
  | '\x7b' :: rest =>
    match readObject optionsMember {} rest with
    | .ok (d, rest) => .ok (d.options, rest)
    | .error fault => .error fault
  | '[' :: rest => readOptionsArray rest
  | s => .error (mistyped .compilerOptions s)

/-- Read one member of a configuration. -/
def fileMember (seen : Option PathOptions) (key rest : Text) : Read (Option PathOptions) :=
  if key = "compilerOptions".toList then readOnce readOptions seen key rest
  else skipMember seen rest

/-- Read a configuration. -/
def readFile (s : Text) : Read PathOptions :=
  match skipSpace s with
  | '\x7b' :: rest =>
    match readObject fileMember none rest with
    | .ok (options, rest) => .ok (options.getD {}, rest)
    | .error fault => .error fault
  | '[' :: rest =>
    match readPositional readOptions true rest with
    | .error fault => .error fault
    | .ok (options, s) =>
      match endArray s with
      | .ok rest => .ok (options.getD {}, rest)
      | .error fault => .error fault
  | s => .error (mistyped .configFile s)

/-- Read a whole document by `read`. Only spaces may follow. -/
def readDocument {α : Type} (read : Text → Read α) (source : Text) : Except SyntaxError α :=
  match read source with
  | .error fault => .error (fault.locate source)
  | .ok (a, rest) =>
    match skipSpace rest with
    | [] => .ok a
    | s => .error (Fault.locate source (.byte .trailingCharacters s))

/-- The options of a strict JSON document that is a configuration. -/
def parseStrict (source : Text) : Except SyntaxError PathOptions := readDocument readFile source

/-- The options of a strict JSON document that holds nothing else. -/
def parseOptions (source : Text) : Except SyntaxError PathOptions :=
  readDocument readOptions source

/-- The options of a configuration. Places of faults refer to the text without its comments and
trailing commas, which keeps every line break. -/
def parse (source : Text) : Except SyntaxError PathOptions :=
  parseStrict (Jsonc.dropTrailingCommas (Jsonc.stripComments source))

end Config

end ImportAlias
