import ImportAlias.Path.Normal
import ImportAlias.Path.Platform

/-!
# Drives and absolute paths

On Windows a path may begin with a drive, a letter and a colon, and either slash separates
segments. Such a path is first written with `/` alone; the drive is then set aside while the rest
is normalized, so that no `..` can fold it away.
-/

namespace ImportAlias

namespace Path

/-- The path with every backslash turned into `/`. -/
def slash (p : Text) : Text := p.map fun c => if c = '\\' then '/' else c

/-- Whether a character separates segments on Windows. -/
def isSlash (c : Char) : Bool := c = '/' || c = '\\'

/-- The drive that a path begins with, such as `C:`, or the empty text. -/
def drive : Text → Text
  | letter :: ':' :: _ => if letter.isAlpha then [letter, ':'] else []
  | _ => []

/-- What follows the drive of a path, or the whole path when it has none. -/
def afterDrive (p : Text) : Text := p.drop (drive p).length

/-- The normal form of a path under a platform's convention. A drive alone is left as it is:
`C:` names the current directory of the drive, and has no shorter name. -/
def normalizeOn : Platform → Text → Text
  | .posix, p => normalize p
  | .windows, p =>
    let p := slash p
    if drive p = [] then normalize p
    else if afterDrive p = [] then drive p
    else drive p ++ normalize (afterDrive p)

/-- Whether a path is absolute under a platform's convention. A drive makes a Windows path
absolute only when a separator follows it. -/
def isAbsolute : Platform → Text → Bool
  | .posix, p => p.head? == some '/'
  | .windows, p =>
    p.head?.any isSlash || drive p != [] && (afterDrive p).head?.any isSlash

end Path

end ImportAlias
