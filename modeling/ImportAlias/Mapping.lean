import ImportAlias.OrderedMap
import ImportAlias.Path.Anchor
import ImportAlias.Pattern.Notation
import ImportAlias.Template

/-!
# Compiled `paths` entries

A `paths` entry pairs a key with templates. Compiling it cuts the key into a pattern and anchors
the templates to a base directory, so that a lookup only has to match and to fill in captures.
Entries keep the order in which they were declared, since the first that yields a path decides.
-/

namespace ImportAlias

/-- A `paths` table as declared: keys with their templates, in declaration order. -/
abbrev PathsTable := OrderedMap (List Text)

/-- A compiled `paths` entry. -/
structure Mapping where
  /-- The key as declared. -/
  key : Text
  /-- The pattern that the key denotes. -/
  pattern : Pattern
  /-- The templates, anchored to the base directory. -/
  templates : List Text
  pattern_eq : pattern = Pattern.ofKey key := by rfl

namespace Mapping

/-- The key of a table denotes a pattern that is too large to compile. -/
structure OversizedKey where
  key : Text
  deriving DecidableEq, Repr

/-- The reason why an oversized key is refused. -/
def OversizedKey.reason : Text := "compiled regex exceeded size limit".toList

/-- What the user is told about an oversized key. -/
def OversizedKey.message (e : OversizedKey) : Text :=
  "Invalid paths pattern '".toList ++ e.key ++ "': ".toList ++ OversizedKey.reason

/-- Compile one entry, its templates seen from the directory `base`. -/
def compile (platform : Platform) (base key : Text) (templates : List Text) :
    Except OversizedKey Mapping :=
  if (Pattern.ofKey key).tooLarge then .error ⟨key⟩
  else
    .ok
      { key, pattern := Pattern.ofKey key
        templates := templates.map (Path.anchor platform base) }

/-- Compile every entry of a list in order. The first oversized key is the one reported. -/
def compileAll (platform : Platform) (base : Text) :
    List (Text × List Text) → Except OversizedKey (List Mapping)
  | [] => .ok []
  | (key, templates) :: entries =>
    match compile platform base key templates with
    | .error e => .error e
    | .ok mapping =>
      match compileAll platform base entries with
      | .error e => .error e
      | .ok mappings => .ok (mapping :: mappings)

/-- Compile a `paths` table, its templates seen from the directory `base`. -/
def ofTable (platform : Platform) (base : Text) (table : PathsTable) :
    Except OversizedKey (List Mapping) :=
  compileAll platform base table.entries

/-- The path that the entry gives for a specifier: the first template that fills to a non-empty
text, provided that the specifier matches the key. -/
def pathFor? (m : Mapping) (id : Text) : Option Text :=
  match m.pattern.captures? id with
  | none => none
  | some captures => (m.templates.map (Template.fill id captures)).find? (· ≠ [])

/-- The first entry that gives a path for a specifier, and that path. -/
def first? (mappings : List Mapping) (id : Text) : Option (Mapping × Text) :=
  mappings.findSome? fun m => (m.pathFor? id).map (m, ·)

end Mapping

end ImportAlias
