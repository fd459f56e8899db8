import ImportAlias.Regex.Escape

/-!
# Bracketed classes

A class in brackets is a union of characters, ranges, named classes and classes within it. A caret
in front takes the complement. Two unions may be joined by `&&` for what they have in common, `--`
for what is in the first alone, and `~~` for what is in one alone; these are applied from left to
right.

In front, minus signs stand for themselves, and a closing bracket does that nothing precedes.

How deep a class is nested is counted along the way. Brackets, joins, and unions of two or more are
a level each.
-/

namespace ImportAlias

namespace Regex

/-- How two sets in a class are joined. -/
inductive Join where
  | inter
  | diff
  | symmDiff
  deriving DecidableEq, Repr

/-- The set of two sets joined. -/
def Join.apply : Join → CharSet → CharSet → CharSet
  | inter, s, t => .inter s t
  | diff, s, t => .diff s t
  | symmDiff, s, t => .symmDiff s t

/-- Where in a class the next character stands. -/
inductive Place where
  /-- Nothing precedes it. -/
  | first
  /-- Minus signs alone precede it. -/
  | front
  | inside
  deriving DecidableEq, Repr

/-- A set of characters, and how deep what denotes it is nested. -/
structure Nested where
  set : CharSet := .empty
  depth : Nat := 0
  deriving DecidableEq, Repr

/-- What has been read of a class. -/
structure Bracket where
  negated : Bool
  place : Place := .first
  /-- What the union being read is to be joined to. -/
  left : Option (Nested × Join) := none
  /-- The number of items of the union being read. -/
  count : Nat := 0
  /-- The items of that union, as deep as the deepest. -/
  items : Nested := {}
  deriving DecidableEq, Repr

namespace Bracket

/-- Add an item. -/
def add (b : Bracket) (place : Place) (item : Nested) : Bracket :=
  { b with
    place, count := b.count + 1
    items := { set := .union b.items.set item.set, depth := max b.items.depth item.depth } }

/-- The union being read. -/
def union (b : Bracket) : Nested :=
  { b.items with depth := if 2 ≤ b.count then b.items.depth + 1 else b.items.depth }

/-- What has been read, joined. -/
def joined (b : Bracket) : Nested :=
  match b.left with
  | none => b.union
  | some (s, j) =>
    { set := j.apply s.set b.union.set, depth := max s.depth b.union.depth + 1 }

/-- Begin another union. -/
def join (b : Bracket) (j : Join) : Bracket :=
  { b with place := .inside, left := some (b.joined, j), count := 0, items := {} }

/-- The class at its end. Its complement holds more than ASCII. -/
def close (f : Flags) (b : Bracket) : Option Nested :=
  let depth := b.joined.depth + 1
  if !b.negated then some { set := b.joined.set, depth }
  else if f.unicode then some { set := .compl b.joined.set, depth }
  else none

end Bracket

/-- The members of a class from one character to another. -/
def readMembers (f : Flags) (first last : Char) : Option CharSet :=
  if first.toNat ≤ last.toNat ∧ (f.unicode ∨ last.toNat < 0x80) then f.set (.range first last)
  else none

/-- The members that a sign alone stands for. -/
def Atom.members (f : Flags) : Atom → Option CharSet
  | literal c => readMembers f c c
  | set s => some s
  | look _ => none

/-- Read a sign of a class. -/
def readAtom (f : Flags) : Text → Option (Atom × Text)
  | [] => none
  | '\\' :: t => readEscape f t
  | c :: t => some (.literal c, t)

/-- Whether a minus sign stands for itself, given what is behind it. -/
def isLoneMinus (f : Flags) (t : Text) : Bool :=
  let next :=
    if f.spaced then
      match t.dropWhile Text.isBlank with
      | '#' :: t => (t.dropWhile Text.isBlank).head?
      | t => t.head?
    else t.head?
  next == some ']' || next == some '-'

/-- Read a character, an escape or a range. -/
def readItem (f : Flags) (t : Text) : Option (CharSet × Text) := do
  let (atom, t) ← readAtom f t
  match f.skip t with
  | '-' :: rest =>
    if isLoneMinus f rest then return (← atom.members f, '-' :: rest)
    else
      let (last, rest) ← readAtom f (f.skip rest)
      match atom, last with
      | .literal c, .literal d => return (← readMembers f c d, rest)
      | _, _ => none
  | t => return (← atom.members f, t)

/-- Read the name of a class between colons, and whether its complement is meant, up to and with
the bracket that closes it. -/
def readNamed (t : Text) : Option ((Bool × CharSet) × Text) :=
  match t with
  | ':' :: t =>
    let (negated, t) :=
      match t with
      | '^' :: t => (true, t)
      | t => (false, t)
    match t.dropWhile (· != ':') with
    | ':' :: ']' :: rest =>
      (CharSet.ofName? (t.takeWhile (· != ':'))).map fun s => ((negated, s), rest)
    | _ => none
  | _ => none

/-- The members that a named class stands for. -/
def namedMembers (f : Flags) (negated : Bool) (s : CharSet) : Option CharSet :=
  (f.set s).bind fun s =>
    if !negated then some s else if f.unicode then some (.compl s) else none

/-- What has been read of a class when its bracket is opened, and what is behind it. -/
def openBracket (f : Flags) (t : Text) : Bracket × Text :=
  match f.skip t with
  | '^' :: t => ({ negated := true }, t)
  | t => ({ negated := false }, t)

/-- Read a class to its end. The fuel bounds the number of items. -/
def readItems (f : Flags) : Nat → Bracket → Text → Option (Nested × Text)
  | 0, _, _ => none
  | fuel + 1, b, t =>
    let literal (place : Place) (c : Char) (t : Text) :=
      (readMembers f c c).bind fun s => readItems f fuel (b.add place { set := s }) t
    match b.place, f.skip t with
    | _, [] => none
    | .first, '-' :: t | .front, '-' :: t => literal .front '-' t
    | .first, ']' :: t => literal .inside ']' t
    | _, ']' :: t => (b.close f).map fun s => (s, t)
    | _, '&' :: '&' :: t => readItems f fuel (b.join .inter) t
    | _, '-' :: '-' :: t => readItems f fuel (b.join .diff) t
    | _, '~' :: '~' :: t => readItems f fuel (b.join .symmDiff) t
    | _, '[' :: t =>
      match readNamed t with
      | some ((negated, s), rest) =>
        (namedMembers f negated s).bind fun s =>
          readItems f fuel (b.add .inside { set := s }) rest
      | none =>
        let (inner, t) := openBracket f t
        (readItems f fuel inner t).bind fun (s, t) => readItems f fuel (b.add .inside s) t
    | _, t => (readItem f t).bind fun (s, t) => readItems f fuel (b.add .inside { set := s }) t

/-- Read a class from behind its opening bracket. -/
def readBracket (f : Flags) (t : Text) : Option (Nested × Text) :=
  let (b, t) := openBracket f t
  readItems f (t.length + 1) b t

end Regex

end ImportAlias
