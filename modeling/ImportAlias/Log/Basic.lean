import ImportAlias.Event

/-!
# Entries of a log

A log holds events. An event may lie in a span, the period of a run in which one command is at
work.
-/

namespace ImportAlias

namespace Log

/-- A period of a run, with what it shows of itself. -/
structure Span where
  name : Text
  fields : List (Text × Text)
  deriving DecidableEq, Repr

namespace Span

/-- The target that spans come from. -/
def target : Text := "tspaths".toList

/-- The level of spans. -/
def level : Level := .info

end Span

/-- An event as it is logged, with the span that it lies in if that is shown. -/
structure Entry where
  event : Event
  span : Option Span
  deriving DecidableEq, Repr

end Log

end ImportAlias
