import ImportAlias.Path.Drive

/-!
# The parts of a path and the way between two paths

`dirname` and `basename` cut a path at its last separator, runs of separators counting as one.
`relative` leads from one directory to a path by climbing to the segments they share, and
`displayRelative` is that way as it is shown to a user: paths on another drive are shown whole.
-/

namespace ImportAlias

namespace Path

/-- The directory part of a `/`-separated path. A path without a separator lies in `.`, and the
root is its own directory. -/
def parent (p : Text) : Text :=
  let trimmed := Text.trimEnd '/' p
  if p = [] then ['.']
  else if trimmed = [] then ['/']
  else if '/' ∈ trimmed then
    let dir := Text.trimEnd '/' (trimmed.reverse.dropWhile (· ≠ '/')).reverse
    if dir = [] then ['/'] else dir
  else ['.']

/-- The directory of a path under a platform's convention. On Windows the drive is kept, and a
file named next to a drive lies in the drive itself. -/
def dirname : Platform → Text → Text
  | .posix, p => parent p
  | .windows, p =>
    let p := slash p
    let dir := parent (afterDrive p)
    if drive p ≠ [] ∧ dir = ['.'] then drive p else drive p ++ dir

/-- The last segment of a path, separators at its end set aside. -/
def basename (p : Text) : Text :=
  ((Text.trimEnd '/' p).reverse.takeWhile (· ≠ '/')).reverse

/-- The segments of a path that are not empty. -/
def segments (p : Text) : List Text := (p.splitOn '/').filter (· ≠ [])

/-- What is left of two lists once their common start is dropped. -/
def dropCommon : List Text → List Text → List Text × List Text
  | a :: as, b :: bs => if a = b then dropCommon as bs else (a :: as, b :: bs)
  | as, bs => (as, bs)

/-- The way from the directory `start` to `target`, both absolute and normalized: one `..` for
each segment that only `start` has, then the segments that only `target` has. A path leads to
itself by the empty text. -/
def relative (start target : Text) : Text :=
  let (up, down) := dropCommon (segments start) (segments target)
  ['/'].intercalate (up.map (fun _ => ['.', '.']) ++ down)

/-- A working directory that is not absolute cannot be the start of a displayed path. -/
structure RelativeStart where
  cwd : Text
  deriving DecidableEq, Repr

/-- What is reported about a working directory that is not absolute. -/
def RelativeStart.message (e : RelativeStart) : Text := "cwd must be absolute: ".toList ++ e.cwd

/-- The first segment of a path whose leading separators are gone, with ASCII case ignored. -/
def rootName (p : Text) : Text := Text.lowercase (p.takeWhile (· ≠ '/'))

/-- The path as shown to a user who works in `cwd`: relative to it, with `.` for `cwd` itself,
or unchanged when the two lie on different drives. -/
def displayRelative (platform : Platform) (cwd p : Text) : Except RelativeStart Text :=
  if isAbsolute platform cwd then
    let start := Text.trimStart '/' cwd
    let target := Text.trimStart '/' p
    if platform = .windows ∧ rootName start ≠ rootName target then .ok p
    else if relative start target = [] then .ok ['.']
    else .ok (relative start target)
  else .error ⟨cwd⟩

end Path

end ImportAlias
