import ImportAlias.Regex.CharSet

/-!
# Regular expressions

A regular expression denotes ways to read a text from some place on. Alternatives are ordered: the
first is preferred to the second, one more repetition to stopping where the repetition is greedy,
and the other way round where it is lazy. What a search comes to depends on that order, so it is
part of the expression.
-/

namespace ImportAlias

/-- A condition on the characters before and after a place in a text. -/
inductive Look where
  | textStart
  | textEnd
  | lineStart
  | lineEnd
  /-- A line starts, where a carriage return with its line feed or either alone ends lines. -/
  | lineStartCrlf
  /-- A line ends, where a carriage return with its line feed or either alone ends lines. -/
  | lineEndCrlf
  | wordBoundary
  | noWordBoundary
  | wordStart
  | wordEnd
  deriving DecidableEq, Repr

namespace Look

/-- Whether there is a character and it belongs to an ASCII word. -/
def inWord (c : Option Char) : Bool := c.any fun c => CharSet.word.has c

/-- Whether the condition holds between two characters, either of which may be missing. -/
def holds (before after : Option Char) : Look → Bool
  | textStart => before.isNone
  | textEnd => after.isNone
  | lineStart => before.isNone || before == some '\n'
  | lineEnd => after.isNone || after == some '\n'
  | lineStartCrlf =>
    before.isNone || before == some '\n' || before == some '\r' && after != some '\n'
  | lineEndCrlf => after.isNone || after == some '\r' || after == some '\n' && before != some '\r'
  | wordBoundary => inWord before != inWord after
  | noWordBoundary => inWord before == inWord after
  | wordStart => !inWord before && inWord after
  | wordEnd => inWord before && !inWord after

/-- Whether the condition holds behind a character, or at the start, whatever comes next. -/
def holdsBehind (before : Option Char) : Look → Bool
  | textStart => before.isNone
  | lineStart | lineStartCrlf => before.isNone || before == some '\n'
  | _ => false

/-- What holds whatever comes next holds. -/
theorem holds_of_holdsBehind {before after : Option Char} {l : Look}
    (h : l.holdsBehind before = true) : l.holds before after = true := by
  cases l <;> simp_all [holds, holdsBehind]

end Look

/-- A regular expression. -/
inductive Regex where
  /-- Reads nothing. -/
  | empty
  /-- Reads a text. -/
  | text (t : Text)
  /-- Reads one character of a set. -/
  | set (s : CharSet)
  /-- Reads nothing where a condition holds. -/
  | look (l : Look)
  /-- One expression, then another. -/
  | seq (r s : Regex)
  /-- One expression or, failing that, another. -/
  | alt (r s : Regex)
  /-- An expression or nothing. -/
  | optional (greedy : Bool) (r : Regex)
  /-- An expression any number of times. -/
  | many (greedy : Bool) (r : Regex)
  /-- An expression once or more. -/
  | many1 (greedy : Bool) (r : Regex)
  /-- An expression whose match is of interest, with its number. -/
  | group (number : Nat) (r : Regex)
  deriving DecidableEq, Repr

namespace Regex

/-- Expressions one after another. -/
def sequence : List Regex → Regex
  | [] => empty
  | [r] => r
  | r :: rs => seq r (sequence rs)

/-- Ordered alternatives. -/
def choice : List Regex → Regex
  | [] => empty
  | [r] => r
  | r :: rs => alt r (choice rs)

/-- The least number of characters that an expression reads, as far as it can be told: not where a
set is empty. -/
def minLength? : Regex → Option Nat
  | empty | look _ => some 0
  | text t => some t.length
  | set s => if s.ranges = [] then none else some 1
  | seq r s => r.minLength?.bind fun m => s.minLength?.map (m + ·)
  | alt r s => r.minLength?.bind fun m => s.minLength?.map (min m)
  | optional _ r | many _ r => r.minLength?.map fun _ => 0
  | many1 _ r | group _ r => r.minLength?

/-- Whether an expression certainly reads something. -/
def advances (r : Regex) : Bool := r.minLength?.any (0 < ·)

/-- Whether an expression cannot read anything. -/
def isVoid : Regex → Bool
  | empty | look _ => true
  | text t => t.isEmpty
  | set _ => false
  | seq r s | alt r s => r.isVoid && s.isVoid
  | optional _ r | many _ r | many1 _ r | group _ r => r.isVoid

end Regex

end ImportAlias
