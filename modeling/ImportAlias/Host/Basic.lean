import ImportAlias.Config.Error

/-!
# Hosts

All access to files goes through a host: four questions about paths, asked in a monad of the
caller's choice. The command line asks the operating system; a file tree answers purely, so that
whole runs of the program are values that can be reasoned about.
-/

namespace ImportAlias

/-- Access to files. Relative paths are seen from the host's working directory. -/
structure Host (m : Type → Type) where
  /-- Whether a path names a regular file. -/
  isFile : Text → m Bool
  /-- Whether a path names a directory. -/
  isDirectory : Text → m Bool
  /-- The bytes of a file. -/
  read : Text → m (Except ReadError (List UInt8))
  /-- The absolute path without `.`, `..` and repeated separators that names the same file or
  directory, if there is one of that name. -/
  canonicalize : Text → m (Option Text)

end ImportAlias
