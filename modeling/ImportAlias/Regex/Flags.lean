import ImportAlias.Regex.Basic
import ImportAlias.Text.Blank

/-!
# Flags of a regular expression

Flags say how the signs of an expression are to be understood. They are set by letters, after a
minus sign cleared, and hold to the end of the group in which they are set.

Only ASCII is known of the cases of letters and of the classes of characters. Where the flags ask
for all of Unicode, what depends on more than ASCII is refused; where they do not, what would read
less or more than whole characters is.
-/

namespace ImportAlias

namespace Regex

/-- How the signs of an expression are to be understood. -/
structure Flags where
  /-- Letters stand for both their cases. -/
  ignoreCase : Bool := false
  /-- The marks for start and end are about lines. -/
  multiLine : Bool := false
  /-- The dot also stands for the ends of lines. -/
  dotAll : Bool := false
  /-- Repetitions are lazy, and greedy where marked. -/
  swapGreed : Bool := false
  /-- Classes and cases are those of Unicode. -/
  unicode : Bool := true
  /-- Carriage returns end lines too. -/
  crlf : Bool := false
  /-- Blanks and comments do not count. -/
  spaced : Bool := false
  deriving DecidableEq, Repr

namespace Flags

/-- The flags with the one of a letter set or cleared. -/
def set? (f : Flags) (letter : Char) (on : Bool) : Option Flags :=
  match letter with
  | 'i' => some { f with ignoreCase := on }
  | 'm' => some { f with multiLine := on }
  | 's' => some { f with dotAll := on }
  | 'U' => some { f with swapGreed := on }
  | 'u' => some { f with unicode := on }
  | 'R' => some { f with crlf := on }
  | 'x' => some { f with spaced := on }
  | _ => none

/-- The flags after letters have set them or, behind a minus sign, cleared them. -/
def adjust? (f : Flags) (on : Bool) : Text → Option Flags
  | [] => some f
  | ['-'] => none
  | '-' :: letters => f.adjust? false letters
  | letter :: letters => (f.set? letter on).bind fun f => f.adjust? on letters

/-- The flags as changed by letters, of which each, and the minus sign, stands at most once. -/
def change? (f : Flags) (letters : Text) : Option Flags :=
  if letters.Nodup then f.adjust? true letters else none

/-! ### What the flags make of signs -/

/-- Drop blanks and comments. A comment begins with a number sign and ends with its line. -/
def skipSpace : Bool → Text → Text
  | _, [] => []
  | true, c :: t => skipSpace (c != '\n') t
  | false, c :: t =>
    if Text.isBlank c then skipSpace false t
    else if c = '#' then skipSpace true t
    else c :: t

/-- The text without what does not count at its start. -/
def skip (f : Flags) (t : Text) : Text := if f.spaced then skipSpace false t else t

/-- A set as it stands in an expression, closed under case where case is ignored. -/
def set (f : Flags) (s : CharSet) : Option CharSet :=
  if f.ignoreCase then if f.unicode then none else some (.ignoringCase s) else some s

/-- The set of a literal character. -/
def literal (f : Flags) (c : Char) : Option CharSet := f.set (.single c)

/-- The set that the dot stands for. -/
def dot (f : Flags) : Option CharSet :=
  if !f.unicode then none
  else if f.dotAll then some (.compl .empty)
  else if f.crlf then some (.compl (.union (.single '\r') (.single '\n')))
  else some (.compl (.single '\n'))

/-- The condition of the mark for a start. -/
def startMark (f : Flags) : Look :=
  if !f.multiLine then .textStart else if f.crlf then .lineStartCrlf else .lineStart

/-- The condition of the mark for an end. -/
def endMark (f : Flags) : Look :=
  if !f.multiLine then .textEnd else if f.crlf then .lineEndCrlf else .lineEnd

/-- Whether a repetition is greedy that is marked as lazy or not. -/
def greedy (f : Flags) (lazy : Bool) : Bool := lazy == f.swapGreed

end Flags

end Regex

end ImportAlias
