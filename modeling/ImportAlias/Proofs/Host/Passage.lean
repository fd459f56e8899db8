import ImportAlias.Proofs.Host.Location
import ImportAlias.Proofs.Path.Beginnings

/-!
# Ways through directories

A path that climbs is followed through all that it names, also through what it leaves again. When
that are directories, the path leads where the walk along it ends (`locate_of_isPassable`), and a
name within it is a name seen from there (`isFile_within_of_isPassable`). Then the path can be
written in any other way that keeps the directories: without its blank segments, without its last
ones, and in its normal form.
-/

namespace ImportAlias

namespace FileTree

open ImportAlias.Path

/-- A directory lies at the place. -/
def IsDirectoryAt (root : FileTree) (q : List Text) : Prop :=
  ∃ entries, root.at? q = some (.directory entries)

/-- From a place, every segment leads from a directory to a directory. -/
def IsPassable (root : FileTree) (q segments : List Text) : Prop :=
  ∀ first, first <+: segments → IsDirectoryAt root (first.foldl step q)

variable {root : FileTree}

namespace IsPassable

variable {q segments : List Text}

theorem of_isPrefix (h : IsPassable root q segments) {first : List Text}
    (hfirst : first <+: segments) : IsPassable root q first :=
  fun _ hless => h _ (hless.trans hfirst)

theorem start (h : IsPassable root q segments) : IsDirectoryAt root q := h [] List.nil_prefix

theorem goal (h : IsPassable root q segments) : IsDirectoryAt root (segments.foldl step q) :=
  h segments (List.prefix_refl _)

end IsPassable

section Segments

variable {q here segments : List Text}

theorem isPassable_nil : IsPassable root q [] ↔ IsDirectoryAt root q := by
  refine ⟨fun h => h.start, fun hq first hfirst => ?_⟩
  rw [List.prefix_nil.mp hfirst]
  exact hq

theorem isPassable_cons {s : Text} :
    IsPassable root q (s :: segments) ↔
      IsDirectoryAt root q ∧ IsPassable root (step q s) segments := by
  constructor
  · intro h
    exact ⟨h.start, fun first hfirst => h (s :: first) (List.cons_prefix_cons.mpr ⟨rfl, hfirst⟩)⟩
  · rintro ⟨hq, h⟩ first hfirst
    cases first with
    | nil => exact hq
    | cons t first =>
      obtain ⟨rfl, hrest⟩ := List.cons_prefix_cons.mp hfirst
      exact h first hrest

/-- A segment that leads from a directory to a directory can be followed. -/
theorem follow_of_isDirectoryAt {s : Text} (hq : IsDirectoryAt root q)
    (hnext : IsDirectoryAt root (step q s)) :
    follow root q.reverse s = .ok (step q s).reverse := by
  obtain ⟨entries, hat⟩ := hq
  rw [← List.reverse_reverse q] at hat
  by_cases hblank : IsBlank s
  · rw [follow_of_directory hat, if_pos hblank, step_blank _ hblank]
  by_cases hup : s = ['.', '.']
  · subst hup
    rw [follow_of_directory hat, if_neg hblank, if_pos rfl, step_up, List.tail_reverse]
  · rw [step_entry _ hblank hup] at hnext ⊢
    obtain ⟨inner, hinner⟩ := hnext
    refine (follow_eq_ok_iff hblank hup).mpr ⟨List.reverse_concat, ?_⟩
    rw [List.reverse_reverse, hinner]
    rfl

/-- What is followed from a place leads from a directory, by a step. -/
theorem of_follow {s : Text} {next : List Text} (h : follow root q.reverse s = .ok next) :
    IsDirectoryAt root q ∧ next = (step q s).reverse := by
  by_cases hq : IsDirectoryAt root q.reverse.reverse
  · obtain ⟨entries, hat⟩ := id hq
    refine ⟨List.reverse_reverse q ▸ hq, ?_⟩
    by_cases hblank : IsBlank s
    · rw [follow_of_directory hat, if_pos hblank] at h
      rw [step_blank _ hblank]
      exact (Except.ok.inj h).symm
    by_cases hup : s = ['.', '.']
    · subst hup
      rw [follow_of_directory hat, if_neg hblank, if_pos rfl] at h
      rw [step_up, ← List.tail_reverse]
      exact (Except.ok.inj h).symm
    · rw [step_entry _ hblank hup, List.reverse_concat]
      exact ((follow_eq_ok_iff hblank hup).mp h).1
  · obtain ⟨e, he⟩ := exists_error_of_follow (not_exists.mp hq)
    rw [he] at h
    cases h

/-- **Following a passable way** leads to the end of the walk. -/
theorem followAll_of_isPassable (h : IsPassable root q segments) :
    followAll root q.reverse segments = .ok (segments.foldl step q).reverse := by
  induction segments generalizing q with
  | nil => rfl
  | cons s segments ih =>
    obtain ⟨hq, hrest⟩ := isPassable_cons.mp h
    rw [followAll_cons, follow_of_isDirectoryAt hq hrest.start, List.foldl_cons]
    exact ih hrest

/-- Segments that can be followed to a directory are passable. -/
theorem isPassable_of_followAll {goal : List Text}
    (h : followAll root q.reverse segments = .ok goal) (hgoal : IsDirectoryAt root goal.reverse) :
    IsPassable root q segments := by
  induction segments generalizing q with
  | nil =>
    cases h
    exact isPassable_nil.mpr (List.reverse_reverse q ▸ hgoal)
  | cons s segments ih =>
    rw [followAll_cons] at h
    cases hfollow : follow root q.reverse s with
    | error e =>
      rw [hfollow] at h
      cases h
    | ok next =>
      rw [hfollow] at h
      obtain ⟨hq, rfl⟩ := of_follow hfollow
      exact isPassable_cons.mpr ⟨hq, ih h⟩

/-- Blank segments make no difference. -/
theorem isPassable_moves : IsPassable root q (moves segments) ↔ IsPassable root q segments := by
  induction segments generalizing q with
  | nil => rfl
  | cons s segments ih =>
    by_cases hblank : IsBlank s
    · rw [moves_cons_of_isBlank hblank, isPassable_cons, step_blank _ hblank, ih]
      exact ⟨fun h => ⟨h.start, h⟩, And.right⟩
    · rw [moves_cons hblank, isPassable_cons, isPassable_cons, ih]

/-- Folded, a passable way leads through some of its directories. -/
theorem IsPassable.fold {absolute : Bool} (h : IsPassable root q segments)
    (hsegments : ∀ s ∈ segments, '/' ∉ s) (hq : absolute = true → q = []) :
    IsPassable root q (fold absolute segments) := by
  intro folded hfolded
  obtain ⟨first, hfirst, rfl⟩ := exists_fold_of_isPrefix hfolded
  rw [foldl_step_fold (fun s hs => hsegments s (hfirst.subset hs)) hq]
  exact h first hfirst

end Segments

/-! ### Passable paths -/

/-- The path leads through directories to a directory. -/
def IsPassablePath (root : FileTree) (cwd : List Text) (p : Text) : Prop :=
  IsPassable root (origin cwd p) (p.splitOn '/')

section Paths

variable {cwd : List Text} {p dir : Text}

theorem isPassablePath_iff_names :
    IsPassablePath root cwd p ↔ IsPassable root (origin cwd p) (names p) :=
  isPassable_moves.symm

/-- A passable path leads where the walk along it ends. -/
theorem locate_of_isPassablePath (h : IsPassablePath root cwd p) (hp : p ≠ []) :
    locate root cwd p = .ok (walk cwd p) := by
  rw [locate_eq hp, followAll_of_isPassable h]
  exact congrArg _ (List.reverse_reverse _)

/-- **The paths of directories** are the passable ones. -/
theorem isDirectory_iff (hp : p ≠ []) :
    (root.host cwd).isDirectory p = true ↔ IsPassablePath root cwd p := by
  constructor
  · intro h
    simp only [host] at h
    split at h
    · rename_i entries hfind
      obtain ⟨q, hlocate, hat⟩ := find_eq_ok_iff.mp hfind
      rw [locate_eq hp] at hlocate
      cases hall : followAll root (origin cwd p).reverse (p.splitOn '/') with
      | error e =>
        rw [hall] at hlocate
        cases hlocate
      | ok goal =>
        rw [hall] at hlocate
        cases hlocate
        exact isPassable_of_followAll hall ⟨entries, hat⟩
    · cases h
  · intro h
    obtain ⟨entries, hat⟩ := h.goal
    exact isDirectory_of_find (find_eq_ok_iff.mpr ⟨_, locate_of_isPassablePath h hp, hat⟩)

/-- The normal form of a passable path is passable. -/
theorem IsPassablePath.normalize (h : IsPassablePath root cwd p) :
    IsPassablePath root cwd (normalize p) := by
  rw [isPassablePath_iff_names, origin_normalize, names_normalize]
  exact IsPassable.fold h (fun _ => not_mem_of_mem_splitOn) fun hhead => if_pos hhead

/-- A relative path within a passable one goes on where that leads. -/
theorem followAll_within (h : IsPassablePath root cwd dir) {name : Text}
    (hname : name.head? ≠ some '/') :
    followAll root (origin cwd (within dir name)).reverse ((within dir name).splitOn '/') =
      followAll root (walk cwd dir).reverse (name.splitOn '/') := by
  rw [origin_within hname]
  rcases splitOn_within hname dir with hwithin | ⟨segments, hdir, hwithin⟩
  · rw [hwithin, followAll_append, followAll_of_isPassable h]
    rfl
  · have hwalk : walk cwd dir = segments.foldl step (origin cwd dir) := by
      rw [walk, hdir, List.foldl_append]
      exact step_blank _ isBlank_nil
    rw [IsPassablePath, hdir] at h
    rw [hwithin, followAll_append, hwalk,
      followAll_of_isPassable (h.of_isPrefix (List.prefix_append _ _))]
    rfl

/-- The empty path within a passable one names no file. -/
theorem isFile_within_nil (h : IsPassablePath root cwd dir) :
    (root.host cwd).isFile (within dir []) = false := by
  refine Bool.eq_false_iff.mpr fun hfile => ?_
  obtain ⟨content, hfind⟩ := isFile_iff.mp hfile
  obtain ⟨q, hlocate, hat⟩ := find_eq_ok_iff.mp hfind
  have hne : within dir [] ≠ [] := by
    intro hnil
    rw [hnil] at hlocate
    cases hlocate
  have hgoal : IsPassable root (walk cwd dir) [[]] :=
    isPassable_cons.mpr ⟨h.goal, isPassable_nil.mpr h.goal⟩
  rw [locate_eq hne, followAll_within h (by simp), List.splitOn_nil,
    followAll_of_isPassable hgoal] at hlocate
  cases hlocate
  obtain ⟨entries, hentries⟩ := hgoal.goal
  rw [List.reverse_reverse, hentries] at hat
  cases hat

/-- **A path within a passable one** is the path seen from where that leads. -/
theorem isFile_within_of_isPassablePath (h : IsPassablePath root cwd dir) (name : Text) :
    (root.host cwd).isFile (within dir name) = (root.host (walk cwd dir)).isFile name := by
  by_cases hnil : name = []
  · rw [hnil, isFile_within_nil h]
    rfl
  have hlocate : locate root cwd (within dir name) = locate root (walk cwd dir) name := by
    by_cases hname : name.head? = some '/'
    · simp [within, hname, locate]
    · have horigin : origin (walk cwd dir) name = walk cwd dir := by simp [origin, hname]
      rw [locate_eq (within_ne_nil hnil dir), locate_eq hnil, followAll_within h hname, horigin]
  rw [Bool.eq_iff_iff, isFile_iff, isFile_iff]
  simp only [find, hlocate]

/-- A file of a name within a passable path lies below where that leads. -/
theorem locate_within_of_isFile (h : IsPassablePath root cwd dir) {name : Text}
    (hname : IsName name) (hfile : (root.host cwd).isFile (within dir name) = true) :
    locate root cwd (within dir name) = .ok (walk cwd dir ++ [name]) := by
  obtain ⟨content, hfind⟩ := isFile_iff.mp hfile
  obtain ⟨q, hlocate, -⟩ := find_eq_ok_iff.mp hfind
  rw [hlocate]
  rw [locate_eq (within_ne_nil hname.1 dir), followAll_within h hname.head?_ne, hname.splitOn,
    followAll_cons] at hlocate
  cases hfollow : follow root (walk cwd dir).reverse name with
  | error e =>
    rw [hfollow] at hlocate
    cases hlocate
  | ok next =>
    rw [hfollow] at hlocate
    cases hlocate
    rw [(of_follow hfollow).2, List.reverse_reverse, step_entry _ hname.not_isBlank hname.2.2.1]

end Paths

end FileTree

end ImportAlias
