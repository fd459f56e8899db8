import ImportAlias.Text.Quoted

/-!
# Trace events

Every decision of the library leaves an event, so that an answer can be explained afterwards.
Events are values returned beside results. Each has a level, a target that names the part of the
program it comes from, a message, and named fields; absent optional fields are left out.
-/

namespace ImportAlias

/-- How grave an event is, the gravest first. -/
inductive Level where
  | error
  | warn
  | info
  | debug
  | trace
  deriving DecidableEq, Repr

namespace Level

/-- The level's name in a log. -/
def name : Level → Text
  | error => "ERROR".toList
  | warn => "WARN".toList
  | info => "INFO".toList
  | debug => "DEBUG".toList
  | trace => "TRACE".toList

/-- The level's place in the order of detail: a higher rank is less grave. -/
def rank : Level → Nat
  | error => 1
  | warn => 2
  | info => 3
  | debug => 4
  | trace => 5

end Level

/-- What happened. -/
inductive Event where
  /-- A configuration file was read; `paths` counts the entries of its table. -/
  | configLoaded (path : Text) (baseUrl : Option Text) (paths : Nat)
  /-- A resolver was built; it is enabled when the options gave it a strategy. -/
  | resolverBuilt (configFile : Text) (baseUrl : Option Text) (mappings : Nat) (enabled : Bool)
  /-- The specifier names a virtual module. -/
  | virtualSkipped (id : Text)
  /-- The specifier was resolved before. -/
  | cacheHit (id path : Text)
  /-- An entry of the `paths` table gave the path. -/
  | entryMatched (id key path : Text)
  /-- No entry matched, and the specifier looks like a package name. -/
  | packageSkipped (id : Text)
  /-- No entry matched, and the specifier is joined to `baseUrl`. -/
  | baseUrlFallback (id baseUrl : Text)
  /-- A bundler's request was answered. -/
  | hookAnswered (specifier : Text) (importer resolved : Option Text)
  /-- The configuration declares nothing to resolve with. -/
  | nothingDeclared (config : Text)
  /-- All specifiers of a command were resolved. -/
  | resolveFinished (resolved total cached : Nat)
  deriving DecidableEq, Repr

/-- The value of a field. -/
inductive FieldValue where
  | text (t : Text)
  | number (n : Nat)
  | flag (b : Bool)
  deriving DecidableEq, Repr

namespace Event

/-- How grave the event is. -/
def level : Event → Level
  | configLoaded .. | resolverBuilt .. | resolveFinished .. => .debug
  | nothingDeclared .. => .warn
  | virtualSkipped .. | cacheHit .. | entryMatched .. | packageSkipped .. | baseUrlFallback ..
  | hookAnswered .. => .trace

/-- The part of the program that the event comes from. -/
def target : Event → Text
  | configLoaded .. => "tspaths_core::tsconfig".toList
  | resolverBuilt .. | virtualSkipped .. | cacheHit .. => "tspaths_core::resolver::engine".toList
  | entryMatched .. | packageSkipped .. | baseUrlFallback .. =>
    "tspaths_core::resolver::strategy".toList
  | hookAnswered .. => "tspaths_core::plugin".toList
  | nothingDeclared .. | resolveFinished .. => "tspaths::commands::resolve".toList

/-- The event in words. -/
def message : Event → Text
  | configLoaded .. => "loaded tsconfig".toList
  | resolverBuilt .. => "built paths resolver".toList
  | virtualSkipped .. => "virtual module, skipping".toList
  | cacheHit .. => "cache hit".toList
  | entryMatched .. => "paths entry matched".toList
  | packageSkipped .. => "package name, skipping baseUrl fallback".toList
  | baseUrlFallback .. => "falling back to baseUrl".toList
  | hookAnswered .. => "tsconfig-paths".toList
  | nothingDeclared .. => "config sets neither baseUrl nor paths".toList
  | resolveFinished .. => "resolve finished".toList

/-- A field that holds a text. -/
def textField (name : String) (value : Text) : Text × FieldValue := (name.toList, .text value)

/-- A field that holds a text, or no field. -/
def optionalField (name : String) (value : Option Text) : List (Text × FieldValue) :=
  (value.map (textField name)).toList

/-- A field that holds a number. -/
def numberField (name : String) (value : Nat) : Text × FieldValue := (name.toList, .number value)

/-- The event's fields in order. -/
def fields : Event → List (Text × FieldValue)
  | configLoaded path baseUrl paths =>
    textField "path" path :: optionalField "base_url" baseUrl ++ [numberField "paths" paths]
  | resolverBuilt configFile baseUrl mappings enabled =>
    textField "config_file" configFile :: optionalField "base_url" baseUrl ++
      [numberField "mappings" mappings, ("enabled".toList, .flag enabled)]
  | virtualSkipped id => [textField "id" (Text.escaped id)]
  | cacheHit id path => [textField "id" id, textField "path" path]
  | entryMatched id key path => [textField "id" id, textField "key" key, textField "path" path]
  | packageSkipped id => [textField "id" id]
  | baseUrlFallback id baseUrl => [textField "id" id, textField "base_url" baseUrl]
  | hookAnswered specifier importer resolved =>
    textField "specifier" specifier ::
      (optionalField "importer" importer ++ optionalField "resolved" resolved)
  | nothingDeclared config => [textField "config" config]
  | resolveFinished resolved total cached =>
    [numberField "resolved" resolved, numberField "total" total, numberField "cached" cached]

/-- The names that the event's fields may have, also of those that it leaves out, and of the
message, which counts as one. -/
def fieldNames (e : Event) : List Text :=
  let names :=
    match e with
    | configLoaded .. => ["path", "base_url", "paths"]
    | resolverBuilt .. => ["config_file", "base_url", "mappings", "enabled"]
    | virtualSkipped .. | packageSkipped .. => ["id"]
    | cacheHit .. => ["id", "path"]
    | entryMatched .. => ["id", "key", "path"]
    | baseUrlFallback .. => ["id", "base_url"]
    | hookAnswered .. => ["specifier", "importer", "resolved"]
    | nothingDeclared .. => ["config"]
    | resolveFinished .. => ["resolved", "total", "cached"]
  "message".toList :: names.map String.toList

/-- Every field has one of the names. -/
theorem mem_fieldNames_of_mem_fields {e : Event} {f : Text × FieldValue} (h : f ∈ e.fields) :
    f.1 ∈ e.fieldNames := by
  cases e <;>
    simp [fields, fieldNames, textField, numberField, optionalField] at h ⊢ <;> grind

end Event

end ImportAlias
