import ImportAlias.Text.Basic

/-!
# Wildcard patterns

A key of a `paths` table is a text in which every `*` stands for one or more characters other
than a line break. Cut at its wildcards it is a list of literal runs `L₀, L₁, …, Lₙ`, and a
specifier matches when it is `L₀ c₁ L₁ … cₙ Lₙ` for some captures `cᵢ`.

Where several captures fit, the earlier ones are as long as possible. That choice needs no search:
the last run sits at the end of the specifier, and each run before it sits as far to the right as
the one capture after it, of at least one character, allows. Placing every run as far right as it
goes makes the first capture as long as it can be, then the second, and so on; and since the
line breaks of a specifier that matches are exactly those of the runs, no other placement is free
of line breaks in its captures when this one is not.
-/

namespace ImportAlias

/-- The character that stands for one or more characters in a key, and for a capture in a
template. -/
def wildcard : Char := '*'

/-- A key cut at its wildcards. -/
structure Pattern where
  /-- The text before the first wildcard. -/
  lead : Text
  /-- The texts that follow the wildcards, one for each. -/
  runs : List Text
  deriving DecidableEq, Repr

namespace Pattern

/-- The pattern that a key denotes. -/
def ofKey (key : Text) : Pattern :=
  match key.splitOn wildcard with
  | [] => ⟨[], []⟩
  | lead :: runs => ⟨lead, runs⟩

/-- The number of wildcards. -/
def wildcards (p : Pattern) : Nat := p.runs.length

/-- The number of characters of the key that are not wildcards. -/
def literals (p : Pattern) : Nat := p.lead.length + p.runs.flatten.length

/-! ### Matching

The specifier is read backwards, from its end. `gap` holds the characters already given to the
current capture; as they were met in reverse they stand in reading order again. -/

/-- Read on, backwards, until the run `run` comes next, and take it. At least one character is
left to the capture. The answer is the capture and what is still unread. -/
def takeGap (run : Text) (gap : Text) : Text → Option (Text × Text)
  | [] => none
  | c :: unread =>
    match run.isPrefixOf? unread with
    | some rest => some (c :: gap, rest)
    | none => takeGap run (c :: gap) unread

/-- Place the remaining runs, given reversed and last first, in the unread text. The captures
already found are carried along. What is left over at the end is `lead` and the first capture. -/
def place (lead : Text) : List Text → List Text → Text → Option (List Text)
  | [], captures, unread =>
    match lead.isPrefixOf? unread.reverse with
    | some (c :: gap) => some ((c :: gap) :: captures)
    | _ => none
  | run :: runs, captures, unread =>
    match takeGap run [] unread with
    | some (gap, rest) => place lead runs (gap :: captures) rest
    | none => none

/-- The captures of the wildcards, line breaks admitted. -/
def split? (p : Pattern) (id : Text) : Option (List Text) :=
  match (p.runs.map List.reverse).reverse with
  | [] => if id = p.lead then some [] else none
  | last :: runs =>
    match last.isPrefixOf? id.reverse with
    | some unread => place p.lead runs [] unread
    | none => none

/-- The captures of the wildcards in order, if the whole specifier matches the pattern: each is
non-empty and free of line breaks, and earlier ones are as long as possible. -/
def captures? (p : Pattern) (id : Text) : Option (List Text) :=
  (p.split? id).filter fun captures => captures.all fun c => !c.contains '\n'

/-- Whether the whole specifier matches the pattern. -/
def isMatch (p : Pattern) (id : Text) : Bool := (p.captures? id).isSome

end Pattern

end ImportAlias
