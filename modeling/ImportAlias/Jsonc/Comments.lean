import ImportAlias.Text.Basic

/-!
# Comments

A configuration file may hold comments: `//` to the end of the line and `/*` to the next `*/`.
`stripComments` takes them out and leaves everything else, strings in particular, as it is. The
line breaks inside a comment stay, so every character that is kept stays on its line. A comment
that is never closed reaches to the end of the text.

The text is read once, with a mode that says what the next character belongs to.
-/

namespace ImportAlias

namespace Jsonc

/-- What the next character belongs to. -/
inductive CommentMode where
  /-- It stands outside of strings and comments. -/
  | code
  /-- It stands inside a string. -/
  | string
  /-- It stands in a comment that ends with the line. -/
  | line
  /-- It stands in a comment that ends with `*/`. -/
  | block
  deriving DecidableEq, Repr

/-- The text without its comments, read from a given mode on. -/
def stripFrom : CommentMode → Text → Text
  | _, [] => []
  | .code, '/' :: '/' :: rest => stripFrom .line rest
  | .code, '/' :: '*' :: rest => stripFrom .block rest
  | .code, '"' :: rest => '"' :: stripFrom .string rest
  | .code, c :: rest => c :: stripFrom .code rest
  | .string, '\\' :: c :: rest => '\\' :: c :: stripFrom .string rest
  | .string, '"' :: rest => '"' :: stripFrom .code rest
  | .string, c :: rest => c :: stripFrom .string rest
  | .line, '\n' :: rest => '\n' :: stripFrom .code rest
  | .line, _ :: rest => stripFrom .line rest
  | .block, '*' :: '/' :: rest => stripFrom .code rest
  | .block, '\n' :: rest => '\n' :: stripFrom .block rest
  | .block, _ :: rest => stripFrom .block rest

/-- The text without its comments. -/
def stripComments (source : Text) : Text := stripFrom .code source

end Jsonc

end ImportAlias
