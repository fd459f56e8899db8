import ImportAlias.Log.Basic
import ImportAlias.Regex.Machine

/-!
# Directives of a log filter

A directive sets the level up to which events are shown. It may be confined to the targets that
begin in some way, to a span of some name, and to what has a field of some name, for a span also to
a value of it.

A directive without a span and without a value is about single events and spans; one with a span
or a field takes effect on everything that happens within the spans that it fits. A directive with
a field alone is of both kinds.
-/

namespace ImportAlias

namespace Log

/-- The value that a directive asks of a field. -/
inductive Asked where
  /-- A number or a truth value. No text is one. -/
  | plain (source : Text)
  /-- A text in which the preferred match of an expression ends with the text. -/
  | pattern (source : Text) (regex : Regex)
  deriving DecidableEq, Repr

namespace Asked

/-- The value as it was written. -/
def source : Asked → Text
  | plain t => t
  | pattern t _ => t

/-- Whether a text is as asked for. -/
def fits (value : Text) : Asked → Bool
  | plain _ => false
  | pattern _ r => r.isMatch value

end Asked

/-- A field that a directive asks for, with its value or without. -/
structure AskedField where
  name : Text
  value : Option Asked := none
  deriving DecidableEq, Repr

/-- A directive. -/
structure Directive where
  /-- The start of the targets that it is about. -/
  target : Option Text := none
  /-- The name of the span that it is about. -/
  span : Option Text := none
  /-- The field that it asks for. -/
  field : Option AskedField := none
  /-- The greatest rank of the levels that it shows, zero for none. -/
  rank : Nat := Level.trace.rank
  deriving DecidableEq, Repr

namespace Directive

/-- What a directive is about. -/
structure Subject where
  target : Option Text
  span : Option Text
  field : Option (Text × Option Text)
  deriving DecidableEq, Repr

/-- What the directive is about: all of it but the level. -/
def subject (d : Directive) : Subject where
  target := d.target
  span := d.span
  field := d.field.map fun f => (f.name, f.value.map Asked.source)

/-- Whether the directive takes effect within spans. -/
def isDynamic (d : Directive) : Bool := d.span.isSome || d.field.isSome

/-- Whether the directive is about single events and spans. -/
def isStatic (d : Directive) : Bool := d.span.isNone && d.field.all fun f => f.value.isNone

/-- Whether the directive shows a level. -/
def shows (d : Directive) (level : Level) : Bool := decide (level.rank ≤ d.rank)

/-- Whether a target begins as the directive asks. -/
def fitsTarget (d : Directive) (target : Text) : Bool :=
  d.target.all fun start => Text.startsWith start target

/-- Whether an event has the target and the field that the directive asks for. -/
def fitsEvent (d : Directive) (e : Event) : Bool :=
  d.fitsTarget e.target && d.field.all fun f => e.fieldNames.contains f.name

/-- Whether a span has the target, the name and the field that the directive asks for. -/
def fitsSpan (d : Directive) (s : Span) : Bool :=
  d.fitsTarget Span.target && d.span.all (· = s.name) &&
    d.field.all fun f => s.fields.any fun g => g.1 = f.name

/-- Whether the field of a span has the value that the directive asks for. -/
def fitsValue (d : Directive) (s : Span) : Bool :=
  d.field.all fun f => f.value.all fun asked =>
    s.fields.any fun g => g.1 = f.name && asked.fits g.2

/-! ### Which directive decides

Of the directives that fit, the one with the longest target decides; then one with a field before
one without; then the field that comes last in the order of names. -/

/-- Whether a text comes before another in the order of characters. -/
def precedes : Text → Text → Bool
  | _, [] => false
  | [], _ :: _ => true
  | c :: s, d :: t => decide (c.toNat < d.toNat) || c == d && precedes s t

/-- Whether one of two directives with the same target, or targets of different length, is to be
preferred to the other. -/
def outweighs (d e : Directive) : Bool :=
  let size (d : Directive) : Nat := d.target.elim 0 fun t => Text.byteSize t + 1
  decide (size e < size d) ||
    size d == size e &&
      match d.field, e.field with
      | _, none => d.field.isSome
      | none, some _ => false
      | some f, some g => precedes g.name f.name

/-- The preferred one of directives. -/
def strongest : List Directive → Option Directive
  | [] => none
  | d :: rest =>
    match strongest rest with
    | none => some d
    | some e => if e.outweighs d then some e else some d

end Directive

end Log

end ImportAlias
