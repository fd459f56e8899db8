import ImportAlias.Event
import ImportAlias.Mapping
import ImportAlias.Specifier

/-!
# Strategies

A strategy says what path a specifier stands for, if any. It is a plain function of the
specifier: what was asked before makes no difference to it, and remembering answers is the
business of its caller. A strategy supplied from outside may also break off.

The three strategies that options give rise to never break off. `Strategy.paths` tries the entries
of a table in order, `Strategy.baseUrl` joins every specifier to one directory, and
`Strategy.pathsThenBaseUrl` tries the entries and then joins what does not look like a package
name.
-/

namespace ImportAlias

/-- A strategy broke off instead of answering. -/
structure Breakdown where
  message : Text
  deriving DecidableEq, Repr

/-- The outcome of asking a strategy about one specifier. -/
structure Consultation where
  /-- The path, or nothing, or that the strategy broke off. -/
  answer : Except Breakdown (Option Text)
  /-- The events of the consultation. -/
  events : List Event := []

/-- A strategy answers about single specifiers. -/
abbrev Strategy := Text → Consultation

namespace Strategy

/-- Join every specifier to a directory, which is already normalized. -/
def baseUrl (dir : Text) : Strategy := fun id => { answer := .ok (some (Path.join dir id)) }

/-- Try each entry in order. -/
def paths (mappings : List Mapping) : Strategy := fun id =>
  match Mapping.first? mappings id with
  | some (m, path) => { answer := .ok (some path), events := [.entryMatched id m.key path] }
  | none => { answer := .ok none }

/-- Try each entry in order, then join to a directory what is not a package name. A package has
to be mapped explicitly, since a path made of its name would hide the package itself. -/
def pathsThenBaseUrl (mappings : List Mapping) (dir : Text) : Strategy := fun id =>
  match Mapping.first? mappings id with
  | some (m, path) => { answer := .ok (some path), events := [.entryMatched id m.key path] }
  | none =>
    if Specifier.isPackageName id then { answer := .ok none, events := [.packageSkipped id] }
    else { answer := .ok (some (Path.join dir id)), events := [.baseUrlFallback id dir] }

end Strategy

end ImportAlias
