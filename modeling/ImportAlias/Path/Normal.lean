import ImportAlias.Text.Basic

/-!
# The normal form of a `/`-separated path

A path is read into a `Form`: whether it starts at the root, the segments left once empty
segments and `.` are dropped and `..` is folded, and whether it ends in a separator. `normalize`
writes that form back as text.

The segments are folded over a stack with the innermost directory at its head. A `..` takes the
head away unless the head is itself a `..` that could not be folded; at the bottom of the stack
it is dropped in an absolute path, which never climbs above the root, and kept in a relative one.
-/

namespace ImportAlias

namespace Path

/-- What a path says once it is folded. -/
structure Form where
  /-- The path starts at the root. -/
  absolute : Bool
  /-- The segments that remain, outermost first. -/
  segments : List Text
  /-- The path ends in a separator. -/
  trailing : Bool
  deriving DecidableEq, Repr

/-- Put one segment on the stack of folded segments, whose head is the innermost. -/
def push (absolute : Bool) (stack : List Text) (segment : Text) : List Text :=
  if segment = [] ∨ segment = ['.'] then stack
  else if segment = ['.', '.'] then
    match stack with
    | [] => if absolute then [] else [segment]
    | top :: below =>
      if top = ['.', '.'] then (if absolute then stack else segment :: stack) else below
  else segment :: stack

/-- The segments of an absolute or relative path, folded and outermost first. -/
def fold (absolute : Bool) (segments : List Text) : List Text :=
  (segments.foldl (push absolute) []).reverse

/-- Read a path into its form. The empty path reads as the current directory. -/
def Form.ofText (p : Text) : Form :=
  let absolute := p.head? == some '/'
  { absolute, segments := fold absolute (p.splitOn '/'), trailing := p.getLast? == some '/' }

/-- Write a form as text. A relative path without segments is written `.`, so that no path is
written as the empty text. -/
def Form.render (f : Form) : Text :=
  if f.segments = [] then
    if f.absolute then ['/'] else if f.trailing then ['.', '/'] else ['.']
  else
    (if f.absolute then ['/'] else []) ++ ['/'].intercalate f.segments ++
      (if f.trailing then ['/'] else [])

/-- The normal form of a `/`-separated path: no empty segment, no `.`, and no `..` but a leading
run of them in a relative path. A separator at the end is kept. -/
def normalize (p : Text) : Text := (Form.ofText p).render

end Path

end ImportAlias
