import ImportAlias.Path.Drive

/-!
# Joining paths and anchoring them to a base

`join` glues two paths and normalizes the result. `anchor` says what a path that was written in
some directory means from there: an absolute path means itself, any other is joined to the
directory. Neither asks the operating system for a working directory, so a relative base gives a
relative result.
-/

namespace ImportAlias

namespace Path

/-- The normal form of `segment` as seen from `base`. An empty operand contributes nothing. -/
def join (base segment : Text) : Text :=
  match base, segment with
  | [], segment => normalize segment
  | base, [] => normalize base
  | base, segment => normalize (base ++ '/' :: segment)

/-- Anchor `p` to the directory `base`. An absolute `p` wins outright, except that on Windows a
`p` that starts with a separator is put on the drive of `base`. -/
def anchor (platform : Platform) (base p : Text) : Text :=
  match platform with
  | .posix => if isAbsolute .posix p then normalize p else join base p
  | .windows =>
    if isAbsolute .windows p then
      normalizeOn .windows (if p.head?.any isSlash then drive (slash base) ++ p else p)
    else normalizeOn .windows (join (slash base) (slash p))

end Path

end ImportAlias
