import ImportAlias.Log.Reader

/-!
# Which events are logged

A log filter is a list of directives. Within a span, the directives that fit the span and its
values show everything up to their levels. Elsewhere, and for what they do not show, the preferred
one of the directives that fit an event decides; without any, it is not shown.

The filter of a run is made of what the environment says, `warn` for everything otherwise, and of
one directive for each of two targets, whose level is set by how often more detail was asked for.
-/

namespace ImportAlias

namespace Log

/-- A list of directives, no two about the same. -/
structure Filter where
  directives : List Directive
  distinct : (directives.map Directive.subject).Nodup := by decide
  deriving DecidableEq, Repr

namespace Filter

/-- Add a directive. It replaces the one about the same. -/
def insert (f : Filter) (d : Directive) : Filter where
  directives := f.directives.filter (fun e => e.subject != d.subject) ++ [d]
  distinct := by
    have kept := f.distinct.sublist
      ((List.filter_sublist (p := fun e => e.subject != d.subject)).map Directive.subject)
    simp only [List.map_append, List.map_cons, List.map_nil, List.nodup_append]
    refine ⟨kept, by simp, fun a ha b hb => ?_⟩
    obtain ⟨e, he, rfl⟩ := List.mem_map.mp ha
    have differs := (List.mem_filter.mp he).2
    simp_all

/-- The filter of directives, of which later ones replace earlier ones. -/
def ofList (directives : List Directive) : Filter := directives.foldl insert { directives := [] }

/-- What is about something else stays, and the new directive is there. -/
theorem mem_insert {f : Filter} {d e : Directive} :
    e ∈ (f.insert d).directives ↔ e = d ∨ e ∈ f.directives ∧ e.subject ≠ d.subject := by
  simp only [insert, List.mem_append, List.mem_filter, List.mem_singleton, bne_iff_ne]
  exact or_comm

/-- What is shown of a level, as the preferred directive decides of those about single events and
spans that fit. -/
def decides (f : Filter) (level : Level) (fits : Directive → Bool) : Bool :=
  (Directive.strongest (f.directives.filter fun d => d.isStatic && fits d)).any (·.shows level)

/-- Whether a span is shown. -/
def showsSpan (f : Filter) (s : Span) : Bool :=
  (f.directives.any fun d => d.isDynamic && d.fitsSpan s) ||
    f.decides Span.level fun d => d.fitsTarget Span.target

/-- Whether everything of a level is shown within a span. -/
def showsWithin (f : Filter) (s : Span) (level : Level) : Bool :=
  f.directives.any fun d => d.isDynamic && d.fitsSpan s && d.fitsValue s && d.shows level

/-- Whether an event that happens within a span is shown. -/
def showsEvent (f : Filter) (s : Span) (e : Event) : Bool :=
  f.showsWithin s e.level || f.decides e.level fun d => d.fitsEvent e

/-- The events that are shown of those within a span. -/
def entries (f : Filter) (s : Span) (events : List Event) : List Entry :=
  (events.filter (f.showsEvent s)).map fun event =>
    { event, span := if f.showsSpan s then some s else none }

/-! ### The filter of a run -/

/-- The directives that the environment asks for: everything up to warnings when it says nothing,
or what is not written as directives, and errors alone when it names no directive. There is no
answer when a part of a directive begins or ends inside a character. -/
def asked : Option Text → Option (List Directive)
  | none => some [{ rank := Level.warn.rank }]
  | some t =>
    match readDirectives t with
    | .ok [] => some [{ rank := Level.error.rank }]
    | .ok directives => some directives
    | .error .malformed => some [{ rank := Level.warn.rank }]
    | .error .splitCharacter => none

/-- The level that a verbosity asks for. -/
def verbosityLevel : Nat → Level
  | 0 => .info
  | 1 => .debug
  | _ => .trace

/-- The targets whose level the verbosity sets. -/
def verboseTargets : List Text := ["tspaths_cli".toList, "tspaths_core".toList]

/-- The directives that a verbosity asks for. -/
def verbose (verbosity : Nat) : List Directive :=
  verboseTargets.map fun target =>
    { target := some target, rank := (verbosityLevel verbosity).rank }

/-- The filter of a run. The verbosity comes last. -/
def ofRun (environment : Option Text) (verbosity : Nat) : Option Filter :=
  (asked environment).map fun directives => ofList (directives ++ verbose verbosity)

end Filter

end Log

end ImportAlias
