import ImportAlias.Mapping

/-!
# The options that drive path mapping

Of all that a configuration file may declare, two options matter here: `baseUrl`, a directory
that specifiers are joined to, and `paths`, a table of patterns. Both may be absent. An empty
`baseUrl` counts as absent; an empty `paths` table does not.
-/

namespace ImportAlias

/-- The options `baseUrl` and `paths` as declared. -/
structure PathOptions where
  /-- Absolute, or relative to the directory of the configuration file. -/
  baseUrl : Option Text := none
  paths : Option PathsTable := none

namespace PathOptions

/-- The options with `baseUrl` set. -/
def withBaseUrl (o : PathOptions) (baseUrl : Text) : PathOptions :=
  { o with baseUrl := some baseUrl }

/-- The options with one more `paths` entry; the table is created if there is none. -/
def withPath (o : PathOptions) (key : Text) (templates : List Text) : PathOptions :=
  { o with paths := some ((o.paths.getD .empty).insert key templates) }

/-- The `baseUrl`, unless it is empty. -/
def declaredBaseUrl (o : PathOptions) : Option Text := o.baseUrl.filter (· ≠ [])

/-- Whether the options declare neither a `baseUrl` nor a `paths` table. -/
def isEmpty (o : PathOptions) : Bool := o.declaredBaseUrl.isNone && o.paths.isNone

end PathOptions

end ImportAlias
