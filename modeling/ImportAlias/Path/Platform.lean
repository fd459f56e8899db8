import ImportAlias.Text.Basic

/-!
# Path conventions

A platform fixes how a path is read: which characters separate its segments and which paths are
absolute. It is chosen once, by the caller, and never taken from the machine that runs the
program.
-/

namespace ImportAlias

/-- The path convention under which paths are normalized and tested for absoluteness. -/
inductive Platform where
  | posix
  | windows
  deriving DecidableEq, Repr

namespace Platform

/-- The name by which the platform is displayed. -/
def name : Platform → Text
  | posix => "posix".toList
  | windows => "windows".toList

/-- No platform goes by this name; it is kept in lower case, as it was compared. -/
structure Unknown where
  name : Text
  deriving DecidableEq, Repr

/-- What the user is told about a name that is no platform. -/
def Unknown.message (u : Unknown) : Text :=
  "unknown platform '".toList ++ u.name ++ "' (expected posix or windows)".toList

/-- Read a platform's name. ASCII case does not matter, and `unix` and `win32` are accepted as
other names of the two platforms. -/
def parse (input : Text) : Except Unknown Platform :=
  let name := Text.lowercase input
  if name = "posix".toList ∨ name = "unix".toList then .ok posix
  else if name = "windows".toList ∨ name = "win32".toList then .ok windows
  else .error ⟨name⟩

end Platform

end ImportAlias
