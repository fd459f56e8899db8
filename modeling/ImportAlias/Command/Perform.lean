import ImportAlias.Command.Arguments
import ImportAlias.Command.Report
import ImportAlias.Config.Discovery
import ImportAlias.Path.Relative
import ImportAlias.Settings

/-!
# Performing a command

A command either comes to a report or to a failure. The events on the way are recorded in either
case, in order. Files are reached through the host alone: once the configuration is loaded, what a
command comes to depends on the settings and the configuration and on nothing else.
-/

namespace ImportAlias

namespace Command

/-- Why a command has nothing to show. -/
inductive Failure where
  /-- The working directory asked for does not exist. -/
  | noSuchDirectory (path : Text)
  /-- The project asked for does not exist. -/
  | noSuchProject (path : Text)
  /-- No resolver can be had. -/
  | config (error : ConfigError)
  /-- A path was to be shown relative to a directory that is not absolute. -/
  | relativeStart (error : Path.RelativeStart)
  /-- A strategy broke off. -/
  | brokeOff (breakdown : Breakdown)
  /-- A part of a directive of the log filter begins or ends inside a character. -/
  | splitCharacter
  deriving DecidableEq, Repr

namespace Failure

/-- What the user is told. -/
def message : Failure → Text
  | noSuchDirectory path => "Invalid --cwd ".toList ++ path
  | noSuchProject path => "Cannot open project ".toList ++ path
  | config error => error.message
  | relativeStart error => error.message
  | brokeOff breakdown => breakdown.message
  | splitCharacter =>
    "Cannot read the log filter: a part of it begins or ends inside a character".toList

/-- The code with which the program exits. Failures that are the program's own fault have a code
of their own. -/
def exitCode : Failure → Nat
  | noSuchDirectory _ | noSuchProject _ | config _ => 1
  | relativeStart _ | brokeOff _ | splitCharacter => 101

end Failure

/-- A command that has ended. -/
structure Ended where
  result : Except Failure Report
  /-- All that happened, in order. -/
  events : List Event

namespace Ended

/-- A command that failed before anything happened. -/
def failed (failure : Failure) : Ended := { result := .error failure, events := [] }

/-- The command with events that came before its own. -/
def after (before : List Event) (e : Ended) : Ended := { e with events := before ++ e.events }

end Ended

/-! ### The commands -/

/-- The path at which a project is looked for: a directory stands for the configuration in it. -/
def projectFile {m : Type → Type} [Monad m] (host : Host m) (s : Settings) (project : Text) :
    m Text := do
  let path := Path.within s.cwd project
  if ← host.isDirectory path then return Path.within path "tsconfig.json".toList else return path

/-- The configuration of a project, or of the working directory if no project is named. -/
def loadProject {m : Type → Type} [Monad m] (host : Host m) (s : Settings) :
    Option Text → m (Except Failure Config.Loaded)
  | none => do return (← Config.discover host s.cwd).mapError Failure.config
  | some project => do
    let path ← projectFile host s project
    match ← host.canonicalize path with
    | none => return .error (.noSuchProject path)
    | some path => return (← Config.load host path).mapError Failure.config

/-- Go on with the resolver of a configuration. -/
def withResolver (s : Settings) (c : Config.Loaded) (next : Resolver → Ended) : Ended :=
  match c.build s.platform with
  | .error e => (Ended.failed (.config e)).after [c.event]
  | .ok r => (next r).after [c.event, r.builtEvent c.shownPath]

/-- Show a path as it is asked for: relative to the working directory or whole. -/
def showPath (s : Settings) (relative : Bool) (path : Text) : Except Path.RelativeStart Text :=
  if relative then Path.displayRelative s.platform (Path.normalizeOn s.platform s.cwd) path
  else .ok path

/-- Show the paths of a list of results, where there are any. -/
def showPaths (s : Settings) (relative : Bool) :
    List (Option Text) → Except Path.RelativeStart (List (Option Text))
  | [] => .ok []
  | path :: paths =>
    match path.mapM (showPath s relative), showPaths s relative paths with
    | .error e, _ => .error e
    | .ok _, .error e => .error e
    | .ok shown, .ok rest => .ok (shown :: rest)

/-- Resolve specifiers one after another in one resolver. -/
def resolve (s : Settings) (specifiers : List Text) (relative : Bool) (c : Config.Loaded) : Ended :=
  withResolver s c fun r =>
    let warning := if r.hasStages then [] else [Event.nothingDeclared c.shownPath]
    let reply := r.resolveAll specifiers
    let lookups := warning ++ reply.events
    match reply.answer with
    | .error breakdown => (Ended.failed (.brokeOff breakdown)).after lookups
    | .ok paths =>
      match showPaths s relative paths with
      | .error e => (Ended.failed (.relativeStart e)).after lookups
      | .ok shown =>
        let results := specifiers.zip shown
        let finished :=
          Event.resolveFinished (shown.countP Option.isSome) results.length reply.state.cachedCount
        { result := .ok (.resolutions { config := c.shownPath, baseUrl := r.baseUrl, results })
          events := lookups ++ [finished] }

/-- Show what a configuration is compiled to. -/
def showCompiled (s : Settings) (c : Config.Loaded) : Ended :=
  withResolver s c fun r =>
    { result :=
        .ok (.compiled
          { config := c.shownPath, platform := r.platform, baseUrl := r.baseUrl
            mappings := r.mappings })
      events := [] }

/-- Perform an action under settings. -/
def perform {m : Type → Type} [Monad m] (host : Host m) (s : Settings) : Action → m Ended
  | .version => return { result := .ok (.version .current), events := [] }
  | .resolve specifiers project relative => do
    match ← loadProject host s project with
    | .error failure => return .failed failure
    | .ok c => return resolve s specifiers relative c
  | .mappings project => do
    match ← loadProject host s project with
    | .error failure => return .failed failure
    | .ok c => return showCompiled s c

end Command

end ImportAlias
