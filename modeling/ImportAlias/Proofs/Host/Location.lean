import ImportAlias.Host.FileTree
import ImportAlias.Proofs.Path.Place

/-!
# Where a path leads in a file tree

Locating a path follows its segments one after another, which may fail at each of them. A path that
does not climb can be read at once instead, by the place that it spells. For a path that ends in a
name the two agree, and following fails exactly when nothing lies at the place
(`locate_within_eq_ok_iff`). So whether such a path names a regular file is a question about its
place alone (`isFile_within`), however the path is written.
-/

namespace ImportAlias

namespace FileTree

open ImportAlias.Path

variable {root : FileTree}

theorem at?_append (t : FileTree) (xs ys : List Text) :
    t.at? (xs ++ ys) = (t.at? xs).bind fun t => t.at? ys := by
  induction xs generalizing t with
  | nil => rfl
  | cons x xs ih =>
    rw [List.cons_append, at?, at?]
    cases t.child? x with
    | none => rfl
    | some child => exact ih child

theorem at?_concat (t : FileTree) (xs : List Text) (x : Text) :
    t.at? (xs ++ [x]) = (t.at? xs).bind fun t => t.child? x := by
  rw [at?_append]
  congr 1
  funext t
  rw [at?]
  cases t.child? x <;> rfl

/-- What has something below it is a directory. -/
theorem exists_directory_of_at? {xs ys : List Text} {t : FileTree} (hys : ys ≠ [])
    (h : root.at? (xs ++ ys) = some t) : ∃ entries, root.at? xs = some (.directory entries) := by
  obtain ⟨y, ys, rfl⟩ := List.exists_cons_of_ne_nil hys
  rw [at?_append] at h
  obtain ⟨dir, hdir, hrest⟩ := Option.bind_eq_some_iff.mp h
  cases dir with
  | file content => cases hrest
  | directory entries => exact ⟨entries, hdir⟩

/-! ### Following segments -/

section Follow

variable {here : List Text}

/-- A segment can only be followed from a directory. -/
theorem follow_of_directory {entries : List (Text × FileTree)}
    (h : root.at? here.reverse = some (.directory entries)) (s : Text) :
    follow root here s =
      if IsBlank s then .ok here
      else if s = ['.', '.'] then .ok here.tail
      else if (entries.lookup s).isSome then .ok (s :: here)
      else .error .notFound := by
  simp only [follow, h]
  rfl

/-- Elsewhere it fails in a way that does not depend on the segment. -/
theorem exists_error_of_follow (h : ∀ entries, root.at? here.reverse ≠ some (.directory entries)) :
    ∃ e, ∀ s, follow root here s = .error e := by
  cases hhere : root.at? here.reverse with
  | none => exact ⟨.notFound, fun s => by simp only [follow, hhere]⟩
  | some t =>
    cases t with
    | file content => exact ⟨.notADirectory, fun s => by simp only [follow, hhere]⟩
    | directory entries => exact absurd hhere (h entries)

/-- Following a name leads to what lies below it, if something does. -/
theorem follow_eq_ok_iff {s : Text} (hs : ¬IsBlank s) (hup : s ≠ ['.', '.']) {q : List Text} :
    follow root here s = .ok q ↔ q = s :: here ∧ (root.at? q.reverse).isSome := by
  by_cases hdir : ∃ entries, root.at? here.reverse = some (.directory entries)
  · obtain ⟨entries, hhere⟩ := hdir
    have hat : root.at? (s :: here).reverse = entries.lookup s := by
      rw [List.reverse_cons, at?_concat, hhere]
      rfl
    rw [follow_of_directory hhere, if_neg hs, if_neg hup]
    constructor
    · intro h
      split at h <;> cases h
      rename_i hlookup
      exact ⟨rfl, hat ▸ hlookup⟩
    · rintro ⟨rfl, hsome⟩
      rw [if_pos (hat ▸ hsome)]
  · obtain ⟨e, he⟩ := exists_error_of_follow (not_exists.mp hdir)
    rw [he]
    refine ⟨(nomatch ·), fun ⟨hq, hsome⟩ => absurd ?_ hdir⟩
    obtain ⟨t, ht⟩ := Option.isSome_iff_exists.mp hsome
    rw [hq, List.reverse_cons] at ht
    exact exists_directory_of_at? (by simp) ht

theorem followAll_cons (s : Text) (segments : List Text) :
    followAll root here (s :: segments) =
      (follow root here s).bind fun place => followAll root place segments := by
  rw [followAll]
  cases follow root here s <;> rfl

theorem followAll_append (xs ys : List Text) :
    followAll root here (xs ++ ys) =
      (followAll root here xs).bind fun place => followAll root place ys := by
  induction xs generalizing here with
  | nil => rfl
  | cons x xs ih =>
    rw [List.cons_append, followAll_cons, followAll_cons]
    cases follow root here x with
    | error e => rfl
    | ok place => exact ih

/-- A blank segment before another one makes no difference. -/
theorem followAll_blank (s : Text) : followAll root here [[], s] = followAll root here [s] := by
  by_cases hdir : ∃ entries, root.at? here.reverse = some (.directory entries)
  · obtain ⟨entries, hhere⟩ := hdir
    rw [followAll_cons, follow_of_directory hhere, if_pos (.inl rfl)]
    rfl
  · obtain ⟨e, he⟩ := exists_error_of_follow (not_exists.mp hdir)
    rw [followAll_cons, followAll_cons, he, he]
    rfl

/-- A blank segment at the end leads nowhere. -/
theorem followAll_of_concat_blank {segments q : List Text}
    (h : followAll root here (segments ++ [[]]) = .ok q) :
    followAll root here segments = .ok q := by
  rw [followAll_append] at h
  cases hall : followAll root here segments with
  | error e =>
    rw [hall] at h
    cases h
  | ok place =>
    rw [hall] at h
    by_cases hdir : ∃ entries, root.at? place.reverse = some (.directory entries)
    · obtain ⟨entries, hplace⟩ := hdir
      have hblank : followAll root place [[]] = .ok place := by
        rw [followAll_cons, follow_of_directory hplace, if_pos (.inl rfl)]
        rfl
      exact hblank.symm.trans h
    · obtain ⟨e, he⟩ := exists_error_of_follow (not_exists.mp hdir)
      have hblank : followAll root place [[]] = .error e := by
        rw [followAll_cons, he]
        rfl
      cases hblank.symm.trans h

/-- **Segments that do not climb, up to a name**, lead to the names among them, and fail exactly
when nothing lies there. -/
theorem followAll_concat_eq_ok_iff {segments : List Text} (hup : ['.', '.'] ∉ segments)
    {name : Text} (hname : IsName name) {q : List Text} :
    followAll root here (segments ++ [name]) = .ok q ↔
      q.reverse = here.reverse ++ moves segments ++ [name] ∧ (root.at? q.reverse).isSome := by
  induction segments generalizing here with
  | nil =>
    have hsingle : followAll root here [name] = follow root here name := by
      rw [followAll_cons]
      cases follow root here name <;> rfl
    rw [List.nil_append, hsingle, follow_eq_ok_iff hname.not_isBlank hname.2.2.1]
    simp
  | cons s segments ih =>
    obtain ⟨hs, hsegments⟩ : s ≠ ['.', '.'] ∧ ['.', '.'] ∉ segments := by
      simpa [eq_comm] using hup
    rw [List.cons_append, followAll_cons]
    by_cases hblank : IsBlank s
    · rw [moves_cons_of_isBlank hblank]
      by_cases hdir : ∃ entries, root.at? here.reverse = some (.directory entries)
      · obtain ⟨entries, hhere⟩ := hdir
        rw [follow_of_directory hhere, if_pos hblank]
        exact ih hsegments
      · -- Nothing can be followed from here, and nothing lies below.
        obtain ⟨e, he⟩ := exists_error_of_follow (not_exists.mp hdir)
        rw [he]
        refine ⟨(nomatch ·), fun ⟨hq, hsome⟩ => absurd ?_ hdir⟩
        obtain ⟨t, ht⟩ := Option.isSome_iff_exists.mp hsome
        rw [hq, List.append_assoc] at ht
        exact exists_directory_of_at? (by simp) ht
    · rw [moves_cons hblank]
      cases hfollow : follow root here s with
      | ok next =>
        obtain ⟨rfl, -⟩ := (follow_eq_ok_iff hblank hs).mp hfollow
        refine (ih hsegments).trans ?_
        simp
      | error e =>
        refine ⟨(nomatch ·), fun ⟨hq, hsome⟩ => ?_⟩
        -- Something lies below the segment, so it could have been followed.
        obtain ⟨t, ht⟩ := Option.isSome_iff_exists.mp hsome
        have hbelow : root.at? ((s :: here).reverse ++ (moves segments ++ [name])) = some t := by
          rw [← ht, hq]
          simp
        obtain ⟨entries, hnext⟩ := exists_directory_of_at? (by simp) hbelow
        have hok := (follow_eq_ok_iff hblank hs).mpr ⟨rfl, by rw [hnext]; rfl⟩
        rw [hfollow] at hok
        cases hok

end Follow

/-! ### Locating a name within a directory -/

section Locate

variable {cwd : List Text} {name : Text}

theorem locate_eq {p : Text} (hp : p ≠ []) :
    locate root cwd p =
      (followAll root (origin cwd p).reverse (p.splitOn '/')).map List.reverse := by
  have hstart : (if p.head? == some '/' then [] else cwd.reverse) = (origin cwd p).reverse := by
    rw [origin]
    split <;> rfl
  rw [locate, if_neg hp]
  simp only [hstart]
  cases followAll root (origin cwd p).reverse (p.splitOn '/') <;> rfl

theorem locate_within (hname : IsName name) (dir : Text) :
    locate root cwd (within dir name) =
      (followAll root (origin cwd dir).reverse (dir.splitOn '/' ++ [name])).map List.reverse := by
  rw [locate_eq (within_ne_nil hname.1 dir), origin_within hname.head?_ne]
  rcases splitOn_within hname.head?_ne dir with hwithin | ⟨segments, hdir, hwithin⟩
  · rw [hwithin, hname.splitOn]
  · rw [hwithin, hname.splitOn, hdir, List.append_assoc, followAll_append, followAll_append]
    simp only [List.singleton_append, followAll_blank]

/-- **A path that does not climb and ends in a name leads to its place**, if something lies
there, and fails otherwise. -/
theorem locate_within_eq_ok_iff {dir : Text} (hdir : Descends dir) (hname : IsName name)
    {q : List Text} :
    locate root cwd (within dir name) = .ok q ↔
      q = place cwd (within dir name) ∧ (root.at? q).isSome := by
  have hfollow (here : List Text) :
      followAll root (origin cwd dir).reverse (dir.splitOn '/' ++ [name]) = .ok here ↔
        here.reverse = (origin cwd dir).reverse.reverse ++ moves (dir.splitOn '/') ++ [name] ∧
          (root.at? here.reverse).isSome :=
    followAll_concat_eq_ok_iff hdir hname
  rw [locate_within hname, place_within hname, place, names]
  constructor
  · intro h
    cases hall : followAll root (origin cwd dir).reverse (dir.splitOn '/' ++ [name]) with
    | error e =>
      rw [hall] at h
      cases h
    | ok here =>
      rw [hall] at h
      cases h
      simpa using (hfollow here).mp hall
  · rintro ⟨rfl, hsome⟩
    have hall := (hfollow (origin cwd dir ++ moves (dir.splitOn '/') ++ [name]).reverse).mpr
      (by simpa using hsome)
    rw [hall]
    simp [Except.map]

/-- A name within a directory leads to the entry of that name. -/
theorem locate_within_of_locate (hname : IsName name) {dir : Text} {q : List Text}
    {entries : List (Text × FileTree)} (hdir : locate root cwd dir = .ok q)
    (hq : root.at? q = some (.directory entries)) :
    locate root cwd (within dir name) =
      if (entries.lookup name).isSome then .ok (q ++ [name]) else .error .notFound := by
  have hne : dir ≠ [] := by
    rintro rfl
    cases hdir
  rw [locate_eq hne] at hdir
  rw [locate_within hname, followAll_append]
  cases hall : followAll root (origin cwd dir).reverse (dir.splitOn '/') with
  | error e =>
    rw [hall] at hdir
    cases hdir
  | ok here =>
    rw [hall] at hdir
    cases hdir
    have hfollow : followAll root here [name] =
        if (entries.lookup name).isSome then .ok (name :: here) else .error .notFound := by
      rw [followAll_cons, follow_of_directory hq, if_neg hname.not_isBlank, if_neg hname.2.2.1]
      split <;> rfl
    refine (congrArg (Except.map List.reverse) hfollow).trans ?_
    split <;> simp [Except.map]

theorem find_eq_ok_iff {p : Text} {t : FileTree} :
    find root cwd p = .ok t ↔ ∃ q, locate root cwd p = .ok q ∧ root.at? q = some t := by
  rw [find]
  cases hlocate : locate root cwd p with
  | error e => simp
  | ok q => cases hat : root.at? q <;> simp [hat]

theorem find_within_eq_ok_iff {dir : Text} (hdir : Descends dir) (hname : IsName name)
    {t : FileTree} :
    find root cwd (within dir name) = .ok t ↔ root.at? (place cwd (within dir name)) = some t := by
  rw [find_eq_ok_iff]
  constructor
  · rintro ⟨q, hq, ht⟩
    obtain ⟨rfl, -⟩ := (locate_within_eq_ok_iff hdir hname).mp hq
    exact ht
  · intro ht
    exact ⟨_, (locate_within_eq_ok_iff hdir hname).mpr ⟨rfl, by rw [ht]; rfl⟩, ht⟩

/-- What lies at a place is a regular file. -/
def isRegularAt (root : FileTree) (q : List Text) : Bool :=
  match root.at? q with
  | some (.file _) => true
  | _ => false

theorem isRegularAt_iff {q : List Text} :
    isRegularAt root q = true ↔ ∃ content, root.at? q = some (.file content) := by
  unfold isRegularAt
  split
  · rename_i content h
    simp [h]
  · rename_i h
    simpa using fun content hcontent => h content hcontent

/-- The host finds a regular file where the tree has one. -/
theorem isFile_iff {p : Text} :
    (root.host cwd).isFile p = true ↔ ∃ content, find root cwd p = .ok (.file content) := by
  simp only [host]
  split
  · rename_i content h
    simp [h]
  · rename_i h
    simpa using fun content hcontent => h content hcontent

theorem isDirectory_of_find {p : Text} {entries : List (Text × FileTree)}
    (h : find root cwd p = .ok (.directory entries)) :
    (root.host cwd).isDirectory p = true := by
  simp only [host, h]

theorem read_eq_ok_iff {p : Text} {content : List UInt8} :
    (root.host cwd).read p = .ok content ↔ find root cwd p = .ok (.file content) := by
  have hread : (root.host cwd).read p = readFile root cwd p := rfl
  rw [hread, readFile]
  split
  · rename_i h
    exact iff_of_false (nomatch ·) (fun hfind => nomatch h.symm.trans hfind)
  · rename_i h
    exact iff_of_false (nomatch ·) (fun hfind => nomatch h.symm.trans hfind)
  · rename_i found h
    rw [h]
    constructor
    · intro hread
      cases hread
      rfl
    · intro hfind
      cases hfind
      rfl

/-- **Whether a path names a regular file** is a question about its place. -/
theorem isFile_within {dir : Text} (hdir : Descends dir) (hname : IsName name) :
    (root.host cwd).isFile (within dir name) =
      (pure (isRegularAt root (place cwd (within dir name))) : Id Bool) := by
  refine Bool.eq_iff_iff.mpr (Iff.trans ?_ isRegularAt_iff.symm)
  rw [isFile_iff]
  simp only [find_within_eq_ok_iff hdir hname]

end Locate

end FileTree

end ImportAlias
