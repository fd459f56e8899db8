import ImportAlias.Json.Value

/-!
# The program's version

What a build of the program says about itself, as a line of text and as a JSON document.
-/

namespace ImportAlias

/-- The shape of every JSON document that the program prints. Renaming or removing a field takes a
new number; adding one does not. -/
def schemaVersion : Nat := 1

/-- What a build says about itself. -/
structure VersionInfo where
  /-- The shape of the documents that it prints. -/
  schema : Nat
  version : Text
  /-- The revision that it was built from, if that is known. -/
  revision : Option Text
  deriving DecidableEq, Repr

namespace VersionInfo

/-- This build. -/
def current : VersionInfo := ⟨schemaVersion, "0.2.0".toList, none⟩

/-- The version as a line of text. -/
def text (v : VersionInfo) : Text :=
  "tspaths ".toList ++ v.version ++
    match v.revision with
    | some revision => " (".toList ++ revision ++ [')']
    | none => []

/-- The version as a document. -/
def document (v : VersionInfo) : Json.Value :=
  .object
    [("schema_version".toList, .ofNat v.schema), ("version".toList, .string v.version),
      ("git_hash".toList, .ofText? v.revision)]

end VersionInfo

end ImportAlias
