import ImportAlias.Json.Value
import ImportAlias.Mapping
import ImportAlias.Version

/-!
# Reports

What a command has to show is a report, which is printed in one of two forms: as lines for a
reader, or as one JSON document for a program. Both forms end with a line feed and are made of the
report alone.
-/

namespace ImportAlias

namespace Command

/-- A text as a line. -/
def line (t : Text) : Text := t ++ ['\n']

/-- Specifiers with what they were resolved to. -/
structure Resolutions where
  /-- The configuration file. -/
  config : Text
  baseUrl : Option Text
  /-- The specifiers in the order in which they were asked for, each with its path if it has
  one. -/
  results : List (Text × Option Text)
  deriving DecidableEq, Repr

namespace Resolutions

/-- One specifier as a line. -/
def resultLine : Text × Option Text → Text
  | (specifier, some path) => line (specifier ++ " -> ".toList ++ path)
  | (specifier, none) => line (specifier ++ " (no mapping)".toList)

/-- The resolutions as lines. -/
def text (r : Resolutions) : Text := r.results.flatMap resultLine

/-- One specifier as a JSON value. -/
def resultValue (result : Text × Option Text) : Json.Value :=
  .object [("specifier".toList, .string result.1), ("resolved".toList, .ofText? result.2)]

/-- The resolutions as a document. -/
def document (r : Resolutions) : Json.Value :=
  .object
    [("schema_version".toList, .ofNat schemaVersion), ("config".toList, .string r.config),
      ("base_url".toList, .ofText? r.baseUrl),
      ("results".toList, .list (r.results.map resultValue))]

end Resolutions

/-- What a configuration was compiled to. -/
structure Compiled where
  /-- The configuration file. -/
  config : Text
  platform : Platform
  baseUrl : Option Text
  mappings : List Mapping

namespace Compiled

/-- One entry as lines: the key with its pattern, and the templates below. -/
def mappingLines (m : Mapping) : Text :=
  line ("  ".toList ++ m.key ++ "  (".toList ++ m.pattern.regex ++ [')']) ++
    m.templates.flatMap fun template => line ("    -> ".toList ++ template)

/-- The compiled configuration as lines. -/
def text (c : Compiled) : Text :=
  line ("config:   ".toList ++ c.config) ++ line ("platform: ".toList ++ c.platform.name) ++
    line ("baseUrl:  ".toList ++ c.baseUrl.getD "(none)".toList) ++
    if c.mappings.isEmpty then line "paths:    (none)".toList
    else line "paths:".toList ++ c.mappings.flatMap mappingLines

/-- One entry as a JSON value. -/
def mappingValue (m : Mapping) : Json.Value :=
  .object
    [("key".toList, .string m.key), ("pattern".toList, .string m.pattern.regex),
      ("paths".toList, .list (m.templates.map Json.Value.string))]

/-- The compiled configuration as a document. -/
def document (c : Compiled) : Json.Value :=
  .object
    [("schema_version".toList, .ofNat schemaVersion), ("config".toList, .string c.config),
      ("platform".toList, .string c.platform.name), ("base_url".toList, .ofText? c.baseUrl),
      ("mappings".toList, .list (c.mappings.map mappingValue))]

end Compiled

/-- What a command has to show. -/
inductive Report where
  | version (info : VersionInfo)
  | resolutions (r : Resolutions)
  | compiled (c : Compiled)

namespace Report

/-- The report as lines. -/
def text : Report → Text
  | version info => line info.text
  | resolutions r => r.text
  | compiled c => c.text

/-- The report as a document. -/
def document : Report → Json.Value
  | version info => info.document
  | resolutions r => r.document
  | compiled c => c.document

/-- The report as it is printed, as a document if `json` is set. -/
def print (json : Bool) (r : Report) : Text :=
  if json then line (Json.print r.document) else r.text

end Report

end Command

end ImportAlias
