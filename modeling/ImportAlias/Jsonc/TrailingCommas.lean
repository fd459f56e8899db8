import ImportAlias.Text.Blank

/-!
# Trailing commas

A comma may stand before a closing brace or bracket, with blanks between the two.
`dropTrailingCommas` takes such commas out. It looks at characters alone: whether an element
precedes the comma makes no difference to it.
-/

namespace ImportAlias

namespace Jsonc

/-- What the next character belongs to. -/
inductive StringMode where
  /-- It stands outside of strings. -/
  | code
  /-- It stands inside a string. -/
  | string
  /-- It stands inside a string, after a backslash. -/
  | escape
  deriving DecidableEq, Repr

/-- Whether the first character that is not blank closes an object or an array. -/
def closesNext (rest : Text) : Bool :=
  match rest.find? fun c => !Text.isBlank c with
  | some c => c = '\x7d' || c = ']'
  | none => false

/-- The text without its trailing commas, read from a given mode on. -/
def dropCommasFrom : StringMode → Text → Text
  | _, [] => []
  | .code, c :: rest =>
    if c = ',' ∧ closesNext rest then dropCommasFrom .code rest
    else c :: dropCommasFrom (if c = '"' then .string else .code) rest
  | .string, c :: rest =>
    c :: dropCommasFrom (if c = '\\' then .escape else if c = '"' then .code else .string) rest
  | .escape, c :: rest => c :: dropCommasFrom .string rest

/-- The text without the commas that directly precede a closing brace or bracket. -/
def dropTrailingCommas (source : Text) : Text := dropCommasFrom .code source

end Jsonc

end ImportAlias
