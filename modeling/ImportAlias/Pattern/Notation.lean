import ImportAlias.Pattern.Basic

/-!
# Patterns written as regular expressions

A pattern is shown to users as the regular expression that it amounts to: anchored at both ends,
each wildcard a group `(.+)`, and the literal runs with every character escaped that has a
meaning of its own in an expression.

The size of that expression once compiled is bounded, so a key can be too long to be accepted.
-/

namespace ImportAlias

namespace Pattern

/-- The characters that a regular expression may give a meaning to. -/
def metacharacters : List Char := "\\.+*?()|[]\x7b\x7d^$#&-~".toList

/-- A literal run as it is written in a regular expression. -/
def escape (run : Text) : Text :=
  run.flatMap fun c => if metacharacters.contains c then ['\\', c] else [c]

/-- The regular expression that the pattern amounts to. -/
def regex (p : Pattern) : Text :=
  '^' :: escape p.lead ++ p.runs.flatMap (fun run => "(.+)".toList ++ escape run) ++ ['$']

/-- The bytes of the compiled expression: one instruction for each literal character, four for
each wildcard and five around them, and for each group its slots and its class. -/
def compiledSize (p : Pattern) : Nat :=
  32 * (p.literals + 5 + 4 * p.wildcards) + 16 * (1 + p.wildcards) + 24 * p.wildcards

/-- The bytes that a compiled expression may take. -/
def sizeLimit : Nat := 10485760

/-- Whether the pattern compiles to more bytes than are allowed. -/
def tooLarge (p : Pattern) : Bool := decide (sizeLimit < p.compiledSize)

end Pattern

end ImportAlias
