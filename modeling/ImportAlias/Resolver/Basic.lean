import ImportAlias.Options
import ImportAlias.Path.Relative
import ImportAlias.Resolver.Stage

/-!
# Resolvers

A resolver is a chain of stages under one platform. Options give a chain of at most one stage:
none when neither `baseUrl` nor `paths` is declared, and otherwise one whose strategy depends on
which of them is. Other chains are made of stages that the caller supplies.

A look-up passes over absolute specifiers without asking anyone. Any other specifier goes through
the chain until a stage gives a path or claims it.
-/

namespace ImportAlias

/-- A chain of stages, with what is to be known about how it was built. -/
structure Resolver where
  stages : List Stage
  platform : Platform
  /-- The anchored `baseUrl`, if one was declared. -/
  baseUrl : Option Text := none
  /-- The compiled `paths` entries, in the order in which they are tried. -/
  mappings : List Mapping := []

namespace Resolver

/-- The chain of given stages. -/
def ofStages (platform : Platform) (stages : List Stage) : Resolver := { stages, platform }

/-- Build the resolver for the options that `configFile` declares. The `baseUrl` is anchored to
the file's directory, and the templates to the `baseUrl`, or to that directory without one. -/
def build (platform : Platform) (configFile : Text) (options : PathOptions) :
    Except Mapping.OversizedKey Resolver :=
  let configDir := Path.dirname platform configFile
  let baseUrl := options.declaredBaseUrl.map (Path.anchor platform configDir)
  match options.paths, baseUrl with
  | none, none => .ok { stages := [], platform }
  | none, some dir => .ok { stages := [{ strategy := .baseUrl dir }], platform, baseUrl }
  | some table, none =>
    match Mapping.ofTable platform configDir table with
    | .error e => .error e
    | .ok mappings => .ok { stages := [{ strategy := .paths mappings }], platform, mappings }
  | some table, some dir =>
    match Mapping.ofTable platform dir table with
    | .error e => .error e
    | .ok mappings =>
      let stages := [{ strategy := .pathsThenBaseUrl mappings dir }]
      .ok { stages, platform, baseUrl, mappings }

/-- Whether the chain has a stage. -/
def hasStages (r : Resolver) : Bool := !r.stages.isEmpty

/-- The event that reports the building of a resolver. -/
def builtEvent (configFile : Text) (r : Resolver) : Event :=
  .resolverBuilt configFile r.baseUrl r.mappings.length r.hasStages

/-- The number of remembered paths in all stages. -/
def cachedCount (r : Resolver) : Nat := r.stages.foldl (fun n stage => n + stage.cachedCount) 0

/-- Put a specifier to the stages in order, up to the first that gives a path or claims it. -/
def resolveIn (id : Text) : List Stage → Reply (Option Text) (List Stage)
  | [] => { answer := .ok none, events := [], state := [] }
  | stage :: later =>
    let first := stage.resolve id
    match first.answer with
    | .error breakdown =>
      { answer := .error breakdown, events := first.events, state := first.state :: later }
    | .ok resolution =>
      if resolution.path.isSome || resolution.claimed then
        { answer := .ok resolution.path, events := first.events, state := first.state :: later }
      else
        let rest := resolveIn id later
        { answer := rest.answer, events := first.events ++ rest.events
          state := first.state :: rest.state }

/-- Look up one specifier. No path means that the specifier is left to the default resolution. -/
def resolve (r : Resolver) (id : Text) : Reply (Option Text) Resolver :=
  if Path.isAbsolute r.platform id then { answer := .ok none, events := [], state := r }
  else
    let reply := resolveIn id r.stages
    { answer := reply.answer, events := reply.events, state := { r with stages := reply.state } }

/-- Look up specifiers one after another. A breakdown ends the whole. -/
def resolveAll (r : Resolver) : List Text → Reply (List (Option Text)) Resolver
  | [] => { answer := .ok [], events := [], state := r }
  | id :: ids =>
    let first := r.resolve id
    match first.answer with
    | .error breakdown =>
      { answer := .error breakdown, events := first.events, state := first.state }
    | .ok path =>
      let rest := first.state.resolveAll ids
      { answer := rest.answer.map (path :: ·), events := first.events ++ rest.events
        state := rest.state }

end Resolver

end ImportAlias
