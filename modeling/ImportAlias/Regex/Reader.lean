import ImportAlias.Regex.Bracket
import ImportAlias.Regex.Normal
import ImportAlias.Text.Alphanumeric

/-!
# Reading regular expressions

An expression is read sign by sign. What is read of the innermost open group is kept apart from
what is read of the groups around it, each with the flags to return to when it is closed. Groups
without a question mark, and those with a name, are numbered in the order in which they are opened.

Repetitions by number are refused: they could not be written where expressions stand here. So are
expressions that are nested too deep. Groups, repetitions, brackets, and sequences and alternatives
of two or more are a level each.
-/

namespace ImportAlias

namespace Regex

/-- A part of a sequence. -/
structure Part where
  /-- The expression; none for a setting of flags, which nothing can repeat. -/
  regex : Option Regex
  /-- How deep it is nested. -/
  depth : Nat := 0
  deriving DecidableEq, Repr

namespace Part

/-- The depth of the deepest part, and one more where there are two or more. -/
def depthOf (parts : List Part) : Nat :=
  let deepest := parts.foldl (fun depth part => max depth part.depth) 0
  if 2 ≤ parts.length then deepest + 1 else deepest

/-- One part after another. -/
def sequence (parts : List Part) : Part where
  regex := some (Regex.concat (parts.filterMap Part.regex))
  depth := depthOf parts

/-- Ordered alternatives. -/
def choice (parts : List Part) : Part where
  regex := some (Regex.alternatives (parts.filterMap Part.regex))
  depth := depthOf parts

/-- A part at one level more. -/
def deeper (p : Part) (f : Regex → Regex) : Part where
  regex := p.regex.map f
  depth := p.depth + 1

end Part

/-- What has been read of a group. -/
structure Group where
  /-- The flags outside. -/
  outer : Flags := {}
  /-- Its number, if it has one. -/
  number : Option Nat := none
  /-- The alternatives that are complete, the last first. -/
  alternatives : List Part := []
  /-- The parts of the current alternative, the last first. -/
  parts : List Part := []
  deriving DecidableEq, Repr

namespace Group

/-- Add a part. -/
def push (g : Group) (part : Part) : Group := { g with parts := part :: g.parts }

/-- Begin another alternative. -/
def alternate (g : Group) : Group :=
  { g with alternatives := Part.sequence g.parts.reverse :: g.alternatives, parts := [] }

/-- What the group holds. -/
def content (g : Group) : Part := Part.choice g.alternate.alternatives.reverse

end Group

/-- What has been read of an expression. -/
structure Reader where
  flags : Flags := {}
  /-- The names of the groups. -/
  names : List Text := []
  /-- How many groups have a number. -/
  numbered : Nat := 0
  /-- The innermost open group. -/
  group : Group := {}
  /-- The groups around it, the innermost first. -/
  around : List Group := []
  deriving DecidableEq, Repr

namespace Reader

/-- Add an expression to the innermost group. -/
def push (r : Reader) (regex : Regex) : Reader :=
  { r with group := r.group.push { regex := some regex } }

/-- Open a group with flags of its own. -/
def enter (r : Reader) (inner : Flags) : Reader :=
  { r with flags := inner, group := { outer := r.flags }, around := r.group :: r.around }

/-- Open a group with a number. -/
def enterNumbered (r : Reader) : Reader :=
  { r with
    group := { outer := r.flags, number := some (r.numbered + 1) }
    around := r.group :: r.around, numbered := r.numbered + 1 }

/-- Close the innermost group. -/
def leave (r : Reader) : Option Reader :=
  match r.around with
  | [] => none
  | g :: around =>
    let content := r.group.content.deeper (r.group.number.elim id Regex.group)
    some { r with flags := r.group.outer, group := g.push content, around }

/-- Whether a name may be given to a group. -/
def isGroupName (name : Text) : Bool :=
  match name with
  | [] => false
  | c :: rest =>
    (c == '_' || Text.isAlphabetic c) &&
      rest.all fun c => c == '_' || c == '.' || c == '[' || c == ']' || Text.isAlphanumeric c

/-- Read the name of a group and open it. -/
def enterNamed (r : Reader) (t : Text) : Option (Reader × Text) :=
  let name := t.takeWhile (· != '>')
  match t.dropWhile (· != '>') with
  | [] => none
  | _ :: rest =>
    if isGroupName name ∧ name ∉ r.names then
      some (Reader.enterNumbered { r with names := name :: r.names }, rest)
    else none

/-- Read flags, for the rest of this group or for one that they open. -/
def readFlags (r : Reader) (t : Text) : Option (Reader × Text) :=
  let letters := t.takeWhile fun c => c != ':' && c != ')'
  match t.dropWhile fun c => c != ':' && c != ')', r.flags.change? letters with
  | ':' :: rest, some flags => some (r.enter flags, rest)
  | _ :: rest, some flags =>
    if letters = [] then none
    else some ({ r with flags, group := r.group.push { regex := none } }, rest)
  | _, _ => none

/-- Read what follows an opening parenthesis. -/
def readGroup (r : Reader) (t : Text) : Option (Reader × Text) :=
  match r.flags.skip t with
  | '?' :: 'P' :: '<' :: t | '?' :: '<' :: t => r.enterNamed t
  | '?' :: t => r.readFlags t
  | t => some (r.enterNumbered, t)

/-- Repeat the last part. A question mark behind asks for the other preference. -/
def readRepetition (r : Reader) (repetition : Bool → Regex → Regex) (t : Text) :
    Option (Reader × Text) :=
  match r.group.parts with
  | [] => none
  | part :: parts =>
    let (lazy, t) :=
      match t with
      | '?' :: t => (true, t)
      | t => (false, t)
    let repeated := part.deeper (repetition (r.flags.greedy lazy))
    if part.regex.isNone then none
    else some ({ r with group := { r.group with parts := repeated :: parts } }, t)

/-- The expression of a sign. -/
def atomRegex (f : Flags) : Atom → Option Regex
  | .literal c => (f.literal c).map ofSet
  | .set s => some (ofSet s)
  | .look l => some (.look l)

/-- Read one sign with what belongs to it. -/
def step (r : Reader) (c : Char) (t : Text) : Option (Reader × Text) :=
  match c with
  | '(' => r.readGroup t
  | ')' => r.leave.map fun r => (r, t)
  | '|' => some ({ r with group := r.group.alternate }, t)
  | '[' =>
    (readBracket r.flags t).map fun (s, t) =>
      ({ r with group := r.group.push { regex := some (ofSet s.set), depth := s.depth } }, t)
  | '?' => r.readRepetition Regex.optional t
  | '*' => r.readRepetition Regex.repeated t
  | '+' => r.readRepetition Regex.repeated1 t
  | '\x7b' => none
  | '.' => r.flags.dot.map fun s => (r.push (ofSet s), t)
  | '^' => some (r.push (.look r.flags.startMark), t)
  | '$' => some (r.push (.look r.flags.endMark), t)
  | '\\' => do
    let (atom, t) ← readEscape r.flags t
    return (r.push (← atomRegex r.flags atom), t)
  | c => (atomRegex r.flags (.literal c)).map fun e => (r.push e, t)

/-- The greatest depth to which an expression may be nested. -/
def maxDepth : Nat := 250

/-- The expression that has been read, if no group is open and it is not nested too deep. -/
def finish (r : Reader) : Option Regex :=
  if r.around = [] ∧ r.group.content.depth ≤ maxDepth then r.group.content.regex else none

/-- Read to the end. The fuel bounds the number of signs. -/
def read : Nat → Reader → Text → Option Regex
  | 0, _, _ => none
  | fuel + 1, r, t =>
    match r.flags.skip t with
    | [] => r.finish
    | c :: t => (r.step c t).bind fun (r, t) => read fuel r t

end Reader

/-- The expression that a text denotes. -/
def parse (t : Text) : Option Regex := Reader.read (t.length + 1) {} t

end Regex

end ImportAlias
