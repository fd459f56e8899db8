import ImportAlias.Host.Basic
import ImportAlias.OrderedMap

/-!
# File trees

A file tree is a file with its bytes or a directory of named trees. Locating a path in it follows
the path segment by segment from the root or from a working directory: an empty segment or `.`
stays, `..` goes up and stays at the root, and any other segment names an entry. Every segment
but the last, and every segment that is not a name, needs a directory to stand in.
-/

namespace ImportAlias

/-- A file or a directory with all that lies below it. -/
inductive FileTree where
  | file (content : List UInt8)
  | directory (entries : List (Text × FileTree))

namespace FileTree

/-- The tree with nothing in it. -/
def empty : FileTree := .directory []

instance : Inhabited FileTree := ⟨empty⟩

/-- The entries of a directory. -/
def entries : FileTree → List (Text × FileTree)
  | .file _ => []
  | .directory entries => entries

/-- The entry of a directory that bears a name. -/
def child? (t : FileTree) (name : Text) : Option FileTree := t.entries.lookup name

/-- What lies at a list of names below a tree. -/
def at? (t : FileTree) : List Text → Option FileTree
  | [] => some t
  | name :: names => (t.child? name).bind fun child => child.at? names

/-- The tree with `node` at a list of names. Missing directories are made. -/
def put (node : FileTree) : List Text → FileTree → FileTree
  | [], _ => node
  | name :: names, t =>
    .directory (insertEntry name (put node names ((t.child? name).getD empty)) t.entries)

/-- The tree without what lies at a list of names. -/
def erase : List Text → FileTree → FileTree
  | [], t => t
  | [name], t => .directory (t.entries.filter fun entry => entry.1 ≠ name)
  | name :: names, t =>
    match t.child? name with
    | none => t
    | some child => .directory (insertEntry name (erase names child) t.entries)

/-! ### Locating paths -/

/-- Follow one segment of a path from the directory whose names, innermost first, are given. -/
def follow (root : FileTree) (place : List Text) (segment : Text) : Except ReadError (List Text) :=
  match root.at? place.reverse with
  | none => .error .notFound
  | some (.file _) => .error .notADirectory
  | some (.directory entries) =>
    if segment = [] ∨ segment = ['.'] then .ok place
    else if segment = ['.', '.'] then .ok place.tail
    else if (entries.lookup segment).isSome then .ok (segment :: place)
    else .error .notFound

/-- Follow the segments of a path one after another. -/
def followAll (root : FileTree) : List Text → List Text → Except ReadError (List Text)
  | place, [] => .ok place
  | place, segment :: segments =>
    match follow root place segment with
    | .error e => .error e
    | .ok place => followAll root place segments

/-- The names that lead from the root to what a path names, seen from a working directory. -/
def locate (root : FileTree) (cwd : List Text) (p : Text) : Except ReadError (List Text) :=
  if p = [] then .error .notFound
  else
    let start := if p.head? == some '/' then [] else cwd.reverse
    match followAll root start (p.splitOn '/') with
    | .error e => .error e
    | .ok place => .ok place.reverse

/-- What a path names, seen from a working directory. -/
def find (root : FileTree) (cwd : List Text) (p : Text) : Except ReadError FileTree :=
  match locate root cwd p with
  | .error e => .error e
  | .ok names =>
    match root.at? names with
    | none => .error .notFound
    | some t => .ok t

/-- The bytes of the file that a path names. -/
def readFile (root : FileTree) (cwd : List Text) (p : Text) : Except ReadError (List UInt8) :=
  match find root cwd p with
  | .error e => .error e
  | .ok (.directory _) => .error .isADirectory
  | .ok (.file content) => .ok content

/-- The absolute path that a list of names makes. -/
def absolutePath (names : List Text) : Text := '/' :: ['/'].intercalate names

/-- The host whose files are those of a tree. -/
def host (root : FileTree) (cwd : List Text) : Host Id where
  isFile p :=
    match find root cwd p with
    | .ok (.file _) => true
    | _ => false
  isDirectory p :=
    match find root cwd p with
    | .ok (.directory _) => true
    | _ => false
  read p := readFile root cwd p
  canonicalize p :=
    match locate root cwd p with
    | .ok names => some (absolutePath names)
    | .error _ => none

end FileTree

end ImportAlias
