import ImportAlias.Resolver.Strategy

/-!
# Stages of a resolver

A stage is a strategy with a cache of the paths it gave. Only paths are remembered: a specifier
without one is put to the strategy each time. Virtual modules never reach the strategy.

A step of a stage returns its answer, its events and the stage afterwards. The specifiers that
were put to the strategy are kept in order, so that how often it was asked can be read off the
state.
-/

namespace ImportAlias

/-- What a step returns: an answer or a breakdown, the events, and the state afterwards. -/
structure Reply (α σ : Type) where
  answer : Except Breakdown α
  events : List Event
  state : σ

/-- The verdict of a stage on one specifier. A claimed specifier is settled, with a path or
without: no later stage is asked about it. -/
structure Resolution where
  path : Option Text := none
  claimed : Bool := false
  deriving DecidableEq, Repr

/-- The paths already given, by specifier. -/
abbrev Cache := OrderedMap Text

/-- A strategy with its cache. -/
structure Stage where
  strategy : Strategy
  cache : Cache := .empty
  /-- The specifiers put to the strategy so far, the latest first. -/
  asked : List Text := []

namespace Stage

/-- The number of specifiers with a remembered path. -/
def cachedCount (s : Stage) : Nat := s.cache.size

/-- Resolve one specifier. Every specifier is claimed. A breakdown of the strategy leaves the
cache as it was. -/
def resolve (s : Stage) (id : Text) : Reply Resolution Stage :=
  if Specifier.isVirtual id then
    { answer := .ok { claimed := true }, events := [.virtualSkipped id], state := s }
  else
    match s.cache.get? id with
    | some path =>
      { answer := .ok { path := some path, claimed := true }, events := [.cacheHit id path]
        state := s }
    | none =>
      let consultation := s.strategy id
      let s := { s with asked := id :: s.asked }
      match consultation.answer with
      | .error breakdown =>
        { answer := .error breakdown, events := consultation.events, state := s }
      | .ok none =>
        { answer := .ok { claimed := true }, events := consultation.events, state := s }
      | .ok (some path) =>
        { answer := .ok { path := some path, claimed := true }, events := consultation.events
          state := { s with cache := s.cache.insert id path } }

end Stage

end ImportAlias
