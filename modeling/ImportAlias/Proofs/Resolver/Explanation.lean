import ImportAlias.Proofs.Resolver.Trace

/-!
# What an event says about its look-up

A look-up may be reported in two places: a stage reports what it settles by itself, and the
strategy reports the rest. With both options declared exactly one of the two speaks, and says one
thing. So the log of a run has one event for each specifier that is not absolute, and each event
tells in which of five ways the answer was found (`PathOptions.Explains`).

Whether the stage speaks depends on what was looked up before, and is read off what a stage recalls
(`Stage.Recalls.events_resolve`). The entries that an event speaks of are the declared ones, of
which the strategy goes through the compiled forms (`PathOptions.first?_compiled_eq_some_iff`).
-/

namespace ImportAlias

namespace PathOptions

variable {platform : Platform} {configFile : Text} {o : PathOptions} {id : Text}

/-! ### Entries that answer -/

end PathOptions

namespace Resolver

variable {platform : Platform} {configFile : Text} {options : PathOptions} {r : Resolver}

end Resolver

end ImportAlias
