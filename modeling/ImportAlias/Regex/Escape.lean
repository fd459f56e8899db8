import ImportAlias.Regex.Flags

/-!
# Escapes

A backslash gives the character behind it another meaning: a sign stands for itself, a letter for a
control character, a class, a condition, or a character by its code point.
-/

namespace ImportAlias

namespace Regex

/-- What one sign stands for. -/
inductive Atom where
  | literal (c : Char)
  | set (s : CharSet)
  | look (l : Look)
  deriving DecidableEq, Repr

/-- Read a number of hexadecimal digits, behind those read already. -/
def readHex (f : Flags) : Nat → Nat → Text → Option (Nat × Text)
  | 0, value, t => some (value, f.skip t)
  | due + 1, value, t =>
    match f.skip t with
    | [] => none
    | c :: t => (Text.hexValue? c).bind fun digit => readHex f due (16 * value + digit) t

/-- Read a character given by a number of hexadecimal digits. -/
def readCodePoint (f : Flags) (digits : Nat) (t : Text) : Option (Atom × Text) :=
  match readHex f digits 0 t with
  | none => none
  | some (n, t) => if n.isValidChar then some (.literal (Char.ofNat n), t) else none

/-- The control character of a letter. -/
def controlChar? (c : Char) : Option Char :=
  if c = 'a' then some '\x07'
  else if c = 'f' then some '\x0c'
  else if c = 't' then some '\t'
  else if c = 'n' then some '\n'
  else if c = 'r' then some '\r'
  else if c = 'v' then some '\x0b'
  else none

/-- The class of a letter, for which ASCII has to do. -/
def letterSet? (c : Char) : Option CharSet :=
  if c = 'd' then some .digit
  else if c = 's' then some .space
  else if c = 'w' then some .word
  else none

/-- The condition of a sign that is about words, for which ASCII has to do. -/
def wordLook? (c : Char) : Option Look :=
  if c = 'b' then some .wordBoundary
  else if c = 'B' then some .noWordBoundary
  else if c = '<' then some .wordStart
  else if c = '>' then some .wordEnd
  else none

/-- Whether a sign stands for itself behind a backslash. -/
def isSign (c : Char) : Bool :=
  decide (c.toNat < 0x80) && !c.isAlphanum && c != '<' && c != '>'

/-- Read what follows a backslash. A byte of its own is no character, so where not all of Unicode
is meant two digits name ASCII characters alone. -/
def readEscape (f : Flags) : Text → Option (Atom × Text)
  | [] => none
  | 'x' :: t =>
    match readCodePoint f 2 t with
    | some (.literal c, t) =>
      if f.unicode || decide (c.toNat < 0x80) then some (.literal c, t) else none
    | _ => none
  | 'u' :: t => readCodePoint f 4 t
  | 'U' :: t => readCodePoint f 8 t
  | 'A' :: t => some (.look .textStart, t)
  | 'z' :: t => some (.look .textEnd, t)
  | c :: t =>
    if isSign c then some (.literal c, t)
    else
      match controlChar? c with
      | some control => some (.literal control, t)
      | none =>
        if f.unicode then none
        else
          match letterSet? c with
          | some s => some (.set s, t)
          | none => (wordLook? c).map fun l => (.look l, t)

end Regex

end ImportAlias
