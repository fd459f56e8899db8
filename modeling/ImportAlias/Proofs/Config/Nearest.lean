import Mathlib.Data.List.Find
import ImportAlias.Proofs.Host.Location
import ImportAlias.Proofs.Path.Ascent

/-!
# The nearest configuration

A search for a configuration goes up the directories of the start path, and in each directory
through the names. What it finds is a matter of places: it is the first place of `candidates` with
a regular file (`map_locate_findUp`), whatever separators and dots the start path is written with.
Directories that bear one of the names are passed over.

The search asks only for regular files, never for what they hold. So a configuration that turns
out to be malformed is not skipped in favour of another one under the second name or further up.
-/

namespace ImportAlias

open ImportAlias.Path FileTree

namespace Config

/-- The places where the search looks, in this order: the directories on the way up from `start`,
the nearest first, and in each of them the names as they are given. -/
def candidates (cwd : List Text) (names : List Text) (start : Text) : List (List Text) :=
  (upward cwd start).flatMap fun dir => names.map fun name => dir ++ [name]

section FindUp

variable {root : FileTree} {cwd names : List Text} {start : Text}

theorem mem_candidates {q : List Text} :
    q ∈ candidates cwd names start ↔
      ∃ dir ∈ upward cwd start, ∃ name ∈ names, dir ++ [name] = q := by
  simp only [candidates, List.mem_flatMap, List.mem_map]

/-- The way up from a path is not longer than the path: each directory but the start and, before a
leading `.`, the last one takes a name off. -/
theorem length_ascending_le (start : Text) :
    (ascending start).length ≤ (Path.names start).length + 2 := by
  have hupward : (upward [] start).length = (Path.names start).length + 1 := by simp [upward]
  rcases map_place_ascending [] start with h | h
  · have hlength := congrArg List.length h
    rw [List.length_map, hupward] at hlength
    omega
  · have hlength := congrArg List.length h
    rw [List.length_map, List.length_append, hupward, List.length_singleton] at hlength
    omega

/-- The search as a search through texts. -/
theorem findUp_eq (hstart : Descends start) (hnames : ∀ name ∈ names, IsName name) :
    findUp (root.host cwd) names start =
      ((ascending start).flatMap fun dir => names.map (within dir)).find?
        (isRegularAt root ∘ place cwd) := by
  refine Eq.trans (List.findM?_pure (m := Id) (root.host cwd).isFile _) (List.find?_congr ?_)
  intro p hp
  obtain ⟨dir, hdir, hp⟩ := List.mem_flatMap.mp hp
  obtain ⟨name, hname, rfl⟩ := List.mem_map.mp hp
  exact isFile_within (descends_of_mem_ascending hstart hdir) (hnames name hname)

/-- What is found is a name within a directory that the start path begins with. -/
theorem exists_of_findUp (hstart : Descends start) (hnames : ∀ name ∈ names, IsName name)
    {p : Text} (h : findUp (root.host cwd) names start = some p) :
    ∃ dir ∈ ascending start, ∃ name ∈ names, p = within dir name := by
  rw [findUp_eq hstart hnames] at h
  obtain ⟨dir, hdir, hp⟩ := List.mem_flatMap.mp (List.mem_of_find?_eq_some h)
  obtain ⟨name, hname, rfl⟩ := List.mem_map.mp hp
  exact ⟨dir, hdir, name, hname, rfl⟩

/-- **The search as a search through places.** -/
theorem map_place_findUp (hstart : Descends start) (hnames : ∀ name ∈ names, IsName name) :
    (findUp (root.host cwd) names start).map (place cwd) =
      (candidates cwd names start).find? (isRegularAt root) := by
  have hmap : ((ascending start).flatMap fun dir => names.map (within dir)).map (place cwd) =
      ((ascending start).map (place cwd)).flatMap fun dir =>
        names.map fun name => dir ++ [name] := by
    rw [List.map_flatMap, List.flatMap_map]
    congr 1
    funext dir
    rw [List.map_map]
    exact List.map_congr_left fun name hname => place_within (hnames name hname) cwd dir
  rw [findUp_eq hstart hnames, ← List.find?_map, hmap]
  rcases map_place_ascending cwd start with h | h
  · rw [h, candidates]
  · rw [h, List.flatMap_append, List.find?_append, ← candidates]
    -- The place that comes twice was passed over the first time.
    cases hfound : (candidates cwd names start).find? (isRegularAt root) with
    | some q => rfl
    | none =>
      rw [Option.none_or, List.flatMap_singleton, List.find?_eq_none]
      intro q hq
      obtain ⟨name, hname, rfl⟩ := List.mem_map.mp hq
      exact List.find?_eq_none.mp hfound _
        (mem_candidates.mpr ⟨_, origin_mem_upward cwd start, name, hname, rfl⟩)

/-- What is found leads to the first candidate with a regular file. -/
theorem map_locate_findUp (hstart : Descends start) (hnames : ∀ name ∈ names, IsName name) :
    (findUp (root.host cwd) names start).map (locate root cwd) =
      ((candidates cwd names start).find? (isRegularAt root)).map .ok := by
  rw [← map_place_findUp hstart hnames, Option.map_map]
  cases hfound : findUp (root.host cwd) names start with
  | none => rfl
  | some p =>
    obtain ⟨dir, hdir, name, hname, rfl⟩ := exists_of_findUp hstart hnames hfound
    have hfirst : (candidates cwd names start).find? (isRegularAt root) =
        some (place cwd (within dir name)) := by
      rw [← map_place_findUp hstart hnames, hfound]
      rfl
    have hregular : isRegularAt root (place cwd (within dir name)) = true :=
      List.find?_some hfirst
    obtain ⟨content, hcontent⟩ := isRegularAt_iff.mp hregular
    have hlocate : locate root cwd (within dir name) = .ok (place cwd (within dir name)) :=
      (locate_within_eq_ok_iff (descends_of_mem_ascending hstart hdir) (hnames name hname)).mpr
        ⟨rfl, by rw [hcontent]; rfl⟩
    exact congrArg some hlocate

/-- What the start directory itself has is found there. -/
theorem findUp_of_start (hstart : Descends start) (hnames : ∀ name ∈ names, IsName name)
    {name : Text}
    (h : names.find? (fun name => isRegularAt root (place cwd start ++ [name])) = some name) :
    findUp (root.host cwd) names start = some (within start name) := by
  have hregular : ∀ name ∈ names, (isRegularAt root ∘ place cwd ∘ within start) name =
      isRegularAt root (place cwd start ++ [name]) := fun name hname =>
    congrArg (isRegularAt root) (place_within (hnames name hname) cwd start)
  rw [findUp_eq hstart hnames, ascending, List.flatMap_cons, List.find?_append, List.find?_map,
    Function.comp_assoc, List.find?_congr hregular, h]
  rfl

theorem findUp_eq_none_iff (hstart : Descends start) (hnames : ∀ name ∈ names, IsName name) :
    findUp (root.host cwd) names start = none ↔
      ∀ dir ∈ upward cwd start, ∀ name ∈ names, isRegularAt root (dir ++ [name]) = false := by
  have hnone : findUp (root.host cwd) names start = none ↔
      (candidates cwd names start).find? (isRegularAt root) = none := by
    rw [← map_place_findUp hstart hnames, Option.map_eq_none_iff]
  rw [hnone, List.find?_eq_none]
  constructor
  · intro h dir hdir name hname
    exact Bool.eq_false_of_not_eq_true (h _ (mem_candidates.mpr ⟨dir, hdir, name, hname, rfl⟩))
  · intro h q hq
    obtain ⟨dir, hdir, name, hname, rfl⟩ := mem_candidates.mp hq
    simp only [h dir hdir name hname, Bool.false_eq_true, not_false_eq_true]

end FindUp

/-! ### What is loaded -/

section Discover

variable {root : FileTree} {cwd : List Text} {start : Text}

theorem isName_of_mem_fileNames {name : Text} (h : name ∈ fileNames) : IsName name := by
  revert name
  decide

theorem load_of_read_error {host : Host Id} {p : Text} {cause : ReadError}
    (h : host.read p = .error cause) : load host p = .error (.unreadable p cause) := by
  simp only [load, readSource, bind, pure, h, ofSource]

theorem load_of_read {host : Host Id} {p : Text} {bytes : List UInt8}
    (h : host.read p = .ok bytes) :
    load host p =
      match parse (Utf8.decode bytes).lossy with
      | .error e => .error (.malformed p e)
      | .ok options => .ok { path := .ofText p, options } := by
  simp only [load, readSource, bind, pure, h, ofSource]
  cases parse (Utf8.decode bytes).lossy <;> rfl

/-- What is loaded from a path that leads to a regular file. -/
theorem load_of_locate {p : Text} {q : List Text} {content : List UInt8}
    (hlocate : locate root cwd p = .ok q) (hcontent : root.at? q = some (.file content)) :
    load (root.host cwd) p =
      match parse (Utf8.decode content).lossy with
      | .error e => .error (.malformed p e)
      | .ok options => .ok { path := .ofText p, options } :=
  load_of_read (read_eq_ok_iff.mpr (find_eq_ok_iff.mpr ⟨q, hlocate, hcontent⟩))

theorem discover_eq (host : Host Id) (start : Text) :
    discover host start =
      match findUp host fileNames start with
      | none => .error (.notFound start)
      | some p => load host p := by
  simp only [discover, Config.find, bind, pure]
  cases findUp host fileNames start <;> rfl

/-- Loading a file never reports that there is none. -/
theorem load_ne_notFound (host : Host Id) (p start : Text) :
    load host p ≠ .error (.notFound start) := by
  intro h
  simp only [load, bind, pure] at h
  unfold ofSource at h
  split at h
  · cases h
  · split at h <;> cases h

/-- **The nearest configuration wins.** From a start path that does not climb, the search goes
through a directory for each name in the path and at most two more. It finds a path that leads to
the first candidate with a regular file, and nothing exactly when no directory on the way up has
a regular file of one of the names. What is discovered then is what that file holds: a malformed
one is an error, whatever the candidates behind it are. -/
theorem discover_nearest (root : FileTree) (cwd : List Text) (hstart : Descends start) :
    (ascending start).length ≤ (Path.names start).length + 2 ∧
    (∀ names, (∀ name ∈ names, IsName name) →
      (findUp (root.host cwd) names start).map (locate root cwd) =
          ((candidates cwd names start).find? (isRegularAt root)).map .ok ∧
        (∀ p, findUp (root.host cwd) names start = some p →
          ∃ dir ∈ ascending start, ∃ name ∈ names, p = within dir name ∧ dir <+: start) ∧
        (findUp (root.host cwd) names start = none ↔
          ∀ dir ∈ upward cwd start, ∀ name ∈ names, isRegularAt root (dir ++ [name]) = false)) ∧
    (discover (root.host cwd) start = .error (.notFound start) ↔
      ∀ dir ∈ upward cwd start, ∀ name ∈ fileNames, isRegularAt root (dir ++ [name]) = false) ∧
    ∀ q content, (candidates cwd fileNames start).find? (isRegularAt root) = some q →
      root.at? q = some (.file content) →
      ∃ p, findUp (root.host cwd) fileNames start = some p ∧ locate root cwd p = .ok q ∧
        discover (root.host cwd) start = load (root.host cwd) p ∧
        load (root.host cwd) p =
          match parse (Utf8.decode content).lossy with
          | .error e => .error (.malformed p e)
          | .ok options => .ok { path := .ofText p, options } := by
  have hfiles : ∀ name ∈ fileNames, IsName name := fun _ => isName_of_mem_fileNames
  refine ⟨length_ascending_le start, fun names hnames => ⟨map_locate_findUp hstart hnames, ?_,
    findUp_eq_none_iff hstart hnames⟩, ?_, fun q content hq hcontent => ?_⟩
  · intro p hp
    obtain ⟨dir, hdir, name, hname, hp⟩ := exists_of_findUp hstart hnames hp
    exact ⟨dir, hdir, name, hname, hp, isPrefix_of_mem_ascending hdir⟩
  · rw [← findUp_eq_none_iff hstart hfiles, discover_eq]
    cases findUp (root.host cwd) fileNames start with
    | none => simp
    | some p => simpa using load_ne_notFound (root.host cwd) p start
  · have hlocate : (findUp (root.host cwd) fileNames start).map (locate root cwd) =
        some (.ok q) := by
      rw [map_locate_findUp hstart hfiles, hq]
      rfl
    obtain ⟨p, hp, hlocate⟩ := Option.map_eq_some_iff.mp hlocate
    refine ⟨p, hp, hlocate, ?_, load_of_locate hlocate hcontent⟩
    rw [discover_eq, hp]

end Discover

/-! ### A malformed configuration -/

/-- The tree with a malformed configuration in `/p`, a sound one beside it and another above it,
and a directory that bears the name of one below it. -/
def malformedTree : FileTree :=
  let sound := .file [0x7b, 0x7d]
  .directory
    [("tsconfig.json".toList, sound),
      ("p".toList, .directory
        [("tsconfig.json".toList, .file [0x7b]), ("jsconfig.json".toList, sound),
          ("a".toList, .directory [("tsconfig.json".toList, .directory [])])])]

/-- From `/p/a` the malformed configuration is found, and it is an error. -/
theorem discover_nearest_malformed :
    let host := malformedTree.host []
    ∃ e, parse ['\x7b'] = .error e ∧
      discover host "/p//a/.".toList = .error (.malformed "/p/tsconfig.json".toList e) := by
  intro host
  have hstart : Descends "/p//a/.".toList := by decide
  obtain ⟨-, -, -, hdiscover⟩ := discover_nearest malformedTree [] hstart
  obtain ⟨p, hp, -, hload, hparse⟩ :=
    hdiscover ["p".toList, "tsconfig.json".toList] [0x7b] (by decide) rfl
  obtain ⟨e, he⟩ : ∃ e, parse ['\x7b'] = .error e := ⟨_, rfl⟩
  have hpath : findUp host fileNames "/p//a/.".toList = some "/p/tsconfig.json".toList := rfl
  obtain rfl := Option.some.inj (hp.symm.trans hpath)
  refine ⟨e, he, ?_⟩
  rw [hload, hparse]
  have hsource : (Utf8.decode [0x7b]).lossy = ['\x7b'] := rfl
  rw [hsource, he]

end Config

end ImportAlias
