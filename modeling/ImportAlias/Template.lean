import ImportAlias.Pattern.Basic

/-!
# Templates

A template is a path in which every `*` is replaced by a capture of the key's pattern: the first
by the first capture, the second by the second, and any beyond the last by the last capture
again. A pattern without wildcards captures nothing; its templates take the whole specifier.
-/

namespace ImportAlias

namespace Template

/-- Put a capture before each piece of a template that follows a wildcard. `current` is the
capture last used, and is used again when no further one is left. -/
def fillPieces (current : Text) : List Text → List Text → Text
  | _, [] => []
  | [], piece :: pieces => current ++ piece ++ fillPieces current [] pieces
  | capture :: captures, piece :: pieces =>
    capture ++ piece ++ fillPieces capture captures pieces

/-- The template with its wildcards replaced, for the specifier `id` and the captures that a
pattern made of it. -/
def fill (id : Text) (captures : List Text) (template : Text) : Text :=
  match template.splitOn wildcard with
  | [] => []
  | first :: pieces => first ++ fillPieces id captures pieces

end Template

end ImportAlias
