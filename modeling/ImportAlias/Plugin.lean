import ImportAlias.Resolver.Basic

/-!
# The bundler plugin

A bundler asks its plugins in turn what module a specifier stands for, and the first that knows
answers. The plugin here asks a resolver, whose cache its hook shares between calls. Specifiers
that are relative to their importer are left to the bundler.

Access to the resolver is exclusive. A call during which the resolver breaks off never gives it
back, and from then on every call that needs it is refused.
-/

namespace ImportAlias

/-- A plugin refused a call. -/
structure PluginError where
  plugin : Text
  hook : Text
  reason : Text
  deriving DecidableEq, Repr

/-- What the user is told about a refused call. -/
def PluginError.message (e : PluginError) : Text :=
  '[' :: e.plugin ++ "] ".toList ++ e.hook ++ ": ".toList ++ e.reason

/-- The outcome of a plugin's hook. -/
inductive HookOutcome where
  /-- The module that the specifier stands for, or no opinion. -/
  | answered (id : Option Text)
  /-- The call was refused. -/
  | refused (error : PluginError)
  /-- The resolver broke off during the call. -/
  | brokeOff (breakdown : Breakdown)
  deriving DecidableEq, Repr

/-- A plugin that resolves specifiers through `paths` and `baseUrl`. -/
structure PathsPlugin where
  resolver : Resolver
  /-- A call broke off while it held the resolver. -/
  poisoned : Bool := false

namespace PathsPlugin

/-- The plugin's name. -/
def name : Text := "tsconfig-paths".toList

/-- The refusal of a call after another one broke off. -/
def poisonedError : PluginError :=
  { plugin := name, hook := "resolve_id".toList, reason := "resolver lock poisoned".toList }

/-- The hook's outcome, its events and the plugin afterwards. -/
structure HookReply where
  outcome : HookOutcome
  events : List Event
  state : PathsPlugin

/-- Ask the plugin about a specifier. The importer makes no difference to the answer. -/
def resolveId (p : PathsPlugin) (specifier : Text) (importer : Option Text) : HookReply :=
  if Specifier.isRelative specifier then { outcome := .answered none, events := [], state := p }
  else if p.poisoned then { outcome := .refused poisonedError, events := [], state := p }
  else
    let reply := p.resolver.resolve specifier
    match reply.answer with
    | .ok id =>
      { outcome := .answered id, events := reply.events ++ [.hookAnswered specifier importer id]
        state := { p with resolver := reply.state } }
    | .error breakdown =>
      { outcome := .brokeOff breakdown, events := reply.events
        state := { resolver := reply.state, poisoned := true } }

end PathsPlugin

/-! ### Plugins asked in turn -/

/-- A plugin as the bundler sees it. -/
inductive Plugin where
  /-- A plugin given by its name and its answers, which depend on nothing else. -/
  | plain (name : Text) (answer : Text → Option Text → Option Text)
  /-- A plugin that resolves through options. -/
  | paths (plugin : PathsPlugin)

namespace Plugin

/-- The plugin's name. -/
def name : Plugin → Text
  | plain name _ => name
  | paths _ => PathsPlugin.name

/-- A plugin that has no opinion on any specifier. -/
def silent (name : Text) : Plugin := plain name fun _ _ => none

/-- Ask one plugin. -/
def resolveId (specifier : Text) (importer : Option Text) : Plugin → HookOutcome × Plugin
  | plain name answer => (.answered (answer specifier importer), plain name answer)
  | paths p =>
    let reply := p.resolveId specifier importer
    (reply.outcome, paths reply.state)

/-- Ask the plugins in order, up to the first that does not pass the specifier on. The answer
comes with the name of the plugin that gave it. -/
def ask (specifier : Text) (importer : Option Text) :
    List Plugin → Option (Text × HookOutcome) × List Plugin
  | [] => (none, [])
  | plugin :: later =>
    match plugin.resolveId specifier importer with
    | (.answered none, next) =>
      let (found, rest) := ask specifier importer later
      (found, next :: rest)
    | (outcome, next) => (some (plugin.name, outcome), next :: later)

end Plugin

end ImportAlias
