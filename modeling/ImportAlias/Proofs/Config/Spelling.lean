import ImportAlias.Proofs.Host.Passage
import ImportAlias.Proofs.Path.Ascent
import ImportAlias.Proofs.Path.Joining

/-!
# Spellings of a start directory

A search upwards takes segments off its start path as it is written. The start path `d/..` leads to
the directory around `d`, but the first segment that is taken off is the `..`, and what is left
leads into `d`. So the search may look where neither the start directory nor a directory around it
is, and it may find something there that a search from the normal form of the start path does not.

The two searches agree exactly when what the first one finds lies within a directory on the way up
from the normal form (`findUp_normalize_iff`). If the start path is absolute, or does not climb out
of the working directory, this is to say that it lies within the start directory or one around it.
A path that climbs first, or not at all, is searched alike in every file tree.
-/

namespace ImportAlias

open ImportAlias.Path FileTree

namespace Config

/-! ### Directories on the way up -/

section Ascending

variable {start dir name : Text}

/-- The folded segments of the directories on the way up are those of the beginnings of the path,
each once, but for a path that begins with `.`. -/
theorem map_segments_ascending (start : Text) :
    let folded := (names start).inits.reverse.map (fold (start.head? == some '/'))
    (ascending start).map (fun dir => (Form.ofText dir).segments) = folded ∨
      (ascending start).map (fun dir => (Form.ofText dir).segments) = folded ++ [[]] := by
  intro folded
  have horigin (p : Text) : origin [] p = [] := by
    rw [origin]
    split <;> rfl
  have hsegments : (ascending start).map (fun dir => (Form.ofText dir).segments) =
      ((ascending start).map (place [])).map (fold (start.head? == some '/')) := by
    rw [List.map_map]
    refine List.map_congr_left fun dir hdir => ?_
    have hhead : (dir.head? == some '/') = (start.head? == some '/') := by
      rw [Bool.eq_iff_iff, beq_iff_eq, beq_iff_eq, head?_of_mem_ascending hdir]
    rw [Function.comp_apply, place, horigin, List.nil_append, names, fold_moves, ← hhead]
    rfl
  have hupward : upward [] start = (names start).inits.reverse := by
    simp only [upward, horigin, List.nil_append, List.map_id']
  rcases map_place_ascending [] start with h | h
  · exact .inl (by rw [hsegments, h, hupward])
  · exact .inr (by rw [hsegments, h, hupward, List.map_append, horigin]; rfl)

theorem segments_eq_fold_names (p : Text) :
    (Form.ofText p).segments = fold (p.head? == some '/') (names p) :=
  (fold_moves ..).symm

/-- On the way up from a normal form they are beginnings of those of the path. -/
theorem segments_isPrefix_of_mem_ascending_normalize (hdir : dir ∈ ascending (normalize start)) :
    (Form.ofText dir).segments <+: (Form.ofText start).segments := by
  have hhead : (dir.head? == some '/') = (start.head? == some '/') := by
    rw [Bool.eq_iff_iff, beq_iff_eq, beq_iff_eq, head?_of_mem_ascending hdir, head?_normalize]
  have hprefix := names_isPrefix_of_mem_ascending hdir
  rw [names_normalize] at hprefix
  have hfolded : Folded (start.head? == some '/') (names dir) :=
    (Form.isFolded_ofText start).of_isPrefix hprefix
  rw [segments_eq_fold_names dir, hhead, fold_eq_self hfolded]
  exact hprefix

theorem sameUpToSeparator_of_mem_ascending {start' dir' : Text}
    (habsolute : start.head? = some '/' ↔ start'.head? = some '/') (hdir : dir ∈ ascending start)
    (hdir' : dir' ∈ ascending start')
    (hsegments : (Form.ofText dir).segments = (Form.ofText dir').segments) :
    SameUpToSeparator dir dir' := by
  refine sameUpToSeparator_of_segments_eq ?_ hsegments
  have hhead : (dir.head? == some '/') = (dir'.head? == some '/') := by
    rw [Bool.eq_iff_iff, beq_iff_eq, beq_iff_eq, head?_of_mem_ascending hdir,
      head?_of_mem_ascending hdir', habsolute]
  exact hhead

/-- A name within a directory is one more segment. -/
theorem segments_within (hname : IsName name) (dir : Text) :
    (Form.ofText (within dir name)).segments = (Form.ofText dir).segments ++ [name] := by
  have hhead : ((within dir name).head? == some '/') = (dir.head? == some '/') := by
    rw [Bool.eq_iff_iff, beq_iff_eq, beq_iff_eq, head?_within hname.head?_ne]
  have hup : ['.', '.'] ∉ [name] := by simpa [eq_comm] using hname.2.2.1
  have hmoves : moves [name] = [name] := moves_eq_self (by simpa using hname)
  simp only [Form.ofText]
  rw [hhead, ← fold_moves, ← names, names_within hname, fold_append_of_not_mem _ _ hup, hmoves,
    names, fold_moves]

end Ascending

/-! ### The search by folded segments -/

/-- Where folded segments lead, the first of the names that is a regular file there. -/
def fileAt (root : FileTree) (cwd : List Text) (names : List Text) (start : Text)
    (segments : List Text) : Option Text :=
  names.find? fun name => (root.host (segments.foldl step (origin cwd start))).isFile name

section FindUp

variable {root : FileTree} {cwd names : List Text} {start : Text}

theorem origin_of_mem_ascending (cwd : List Text) {dir : Text} (hdir : dir ∈ ascending start) :
    origin cwd dir = origin cwd start := by
  simp only [origin, beq_iff_eq, head?_of_mem_ascending hdir]

theorem isPassablePath_of_mem_ascending (hstart : IsPassablePath root cwd start) {dir : Text}
    (hdir : dir ∈ ascending start) : IsPassablePath root cwd dir := by
  rw [isPassablePath_iff_names, origin_of_mem_ascending cwd hdir]
  exact (isPassablePath_iff_names.mp hstart).of_isPrefix (names_isPrefix_of_mem_ascending hdir)

/-- In a directory on the way up, what counts are its folded segments. -/
theorem find?_isFile_within (hstart : IsPassablePath root cwd start) {dir : Text}
    (hdir : dir ∈ ascending start) (names : List Text) :
    (names.find? fun name => (root.host cwd).isFile (within dir name)) =
      fileAt root cwd names start (Form.ofText dir).segments := by
  have hpassable := isPassablePath_of_mem_ascending hstart hdir
  have hwalk : (Form.ofText dir).segments.foldl step (origin cwd start) = walk cwd dir := by
    rw [← origin_of_mem_ascending cwd hdir]
    exact foldl_step_fold (fun _ => not_mem_of_mem_splitOn) fun hhead => if_pos hhead
  simp only [fileAt, hwalk, isFile_within_of_isPassablePath hpassable]

/-- The search as one through directories. -/
theorem findUp_eq_findSome? (hstart : IsPassablePath root cwd start) (names : List Text) :
    findUp (root.host cwd) names start = ((ascending start).map fun dir =>
      (fileAt root cwd names start (Form.ofText dir).segments).map (within dir)).findSome? id := by
  refine (List.findM?_pure (m := Id) (root.host cwd).isFile _).trans ?_
  rw [List.find?_flatMap, ← Function.id_comp fun dir : Text => _, ← List.findSome?_map]
  refine congrArg (List.findSome? id) (List.map_congr_left fun dir hdir => ?_)
  rw [List.find?_map, ← find?_isFile_within hstart hdir]
  rfl

/-- The first of the folded segments at which there is a file. -/
theorem nearest_eq_map_find? (hit : List Text → Bool) (start : Text) :
    nearest hit (start.head? == some '/') (Path.names start) =
      ((ascending start).find? fun dir => hit (Form.ofText dir).segments).map
        fun dir => (Form.ofText dir).segments := by
  have hmap : ((ascending start).find? fun dir => hit (Form.ofText dir).segments).map
      (fun dir => (Form.ofText dir).segments) =
        ((ascending start).map fun dir => (Form.ofText dir).segments).find? hit := by
    rw [List.find?_map]
    rfl
  rw [hmap, nearest]
  rcases map_segments_ascending start with h | h
  · rw [h]
  · -- What comes twice was passed over the first time.
    have hnil : [] ∈ (Path.names start).inits.reverse.map (fold (start.head? == some '/')) :=
      List.mem_map.mpr ⟨[], by simp, rfl⟩
    rw [h, List.find?_append]
    generalize (Path.names start).inits.reverse.map (fold (start.head? == some '/')) = folded
      at hnil ⊢
    cases hfound : folded.find? hit with
    | some found => rfl
    | none => simpa using List.find?_eq_none.mp hfound [] hnil

/-- **The search by folded segments.** It finds nothing, or a name in the nearest directory that has
one. -/
theorem findUp_cases (hstart : IsPassablePath root cwd start) (names : List Text) :
    let found := nearest (fun segments => (fileAt root cwd names start segments).isSome)
      (start.head? == some '/') (Path.names start)
    found = none ∧ findUp (root.host cwd) names start = none ∨
      ∃ dir ∈ ascending start, ∃ name ∈ names,
        found = some (Form.ofText dir).segments ∧
          fileAt root cwd names start (Form.ofText dir).segments = some name ∧
          findUp (root.host cwd) names start = some (within dir name) := by
  intro found
  have hfindUp := findUp_eq_findSome? hstart names
  have hfound : found = _ := nearest_eq_map_find? _ start
  cases hdir : (ascending start).find? fun dir =>
      (fileAt root cwd names start (Form.ofText dir).segments).isSome with
  | none =>
    refine .inl ⟨by rw [hfound, hdir]; rfl, ?_⟩
    rw [hfindUp, List.findSome?_map, List.findSome?_eq_none_iff]
    intro dir hmem
    have hnone := List.find?_eq_none.mp hdir dir hmem
    simpa using hnone
  | some dir =>
    obtain ⟨hsome, before, behind, hascending, hbefore⟩ := List.find?_eq_some_iff_append.mp hdir
    obtain ⟨name, hname⟩ := Option.isSome_iff_exists.mp hsome
    refine .inr ⟨dir, List.mem_of_find?_eq_some hdir, name, List.mem_of_find?_eq_some hname,
      by rw [hfound, hdir]; rfl, hname, ?_⟩
    have hnone : before.findSome? (id ∘ fun dir =>
        (fileAt root cwd names start (Form.ofText dir).segments).map (within dir)) = none := by
      rw [List.findSome?_eq_none_iff]
      intro dir hmem
      simpa using hbefore dir hmem
    rw [hfindUp, hascending, List.findSome?_map, List.findSome?_append, hnone, Option.none_or,
      List.findSome?_cons, Function.comp_apply, hname]
    rfl

/-- The search from the normal form goes through the beginnings of the folded segments. -/
theorem findUp_normalize_cases (hstart : IsPassablePath root cwd start) (names : List Text) :
    let found := longest (fun segments => (fileAt root cwd names start segments).isSome)
      (Form.ofText start).segments
    found = none ∧ findUp (root.host cwd) names (normalize start) = none ∨
      ∃ dir ∈ ascending (normalize start), ∃ name ∈ names,
        found = some (Form.ofText dir).segments ∧
          fileAt root cwd names start (Form.ofText dir).segments = some name ∧
          findUp (root.host cwd) names (normalize start) = some (within dir name) := by
  have hhead : ((normalize start).head? == some '/') = (start.head? == some '/') := by
    rw [Bool.eq_iff_iff, beq_iff_eq, beq_iff_eq, head?_normalize]
  have hfolded : Folded (start.head? == some '/') (Form.ofText start).segments :=
    Form.isFolded_ofText start
  have hcases := findUp_cases hstart.normalize names
  rw [names_normalize, hhead, nearest_of_folded hfolded] at hcases
  simpa only [fileAt, origin_normalize] using hcases

/-- What is found bears a name. -/
theorem ne_nil_of_fileAt {segments : List Text} {name : Text}
    (h : fileAt root cwd names start segments = some name) : name ≠ [] := by
  rintro rfl
  have hfile := List.find?_some h
  cases hfile

/-- The searches find paths with the same normal form, or both find nothing. -/
def SearchesAgree (host : Host Id) (names : List Text) (start start' : Text) : Prop :=
  (findUp host names start).map normalize = (findUp host names start').map normalize

instance (host : Host Id) (names : List Text) (start start' : Text) :
    Decidable (SearchesAgree host names start start') := inferInstanceAs (Decidable (_ = _))

/-- What the search finds is, in place, a name below the start directory or one around it. -/
def FindsAbove (root : FileTree) (cwd names : List Text) (start : Text) : Prop :=
  ∀ p, findUp (root.host cwd) names start = some p →
    ∃ here dir, locate root cwd start = .ok here ∧ dir <+: here ∧
      ∃ name ∈ names, locate root cwd p = .ok (dir ++ [name])

/-- What the search finds stays in true surroundings. -/
def StaysOnWay (root : FileTree) (cwd names : List Text) (start : Text) : Prop :=
  ∀ found, nearest (fun segments => (fileAt root cwd names start segments).isSome)
      (start.head? == some '/') (Path.names start) = some found →
    found <+: (Form.ofText start).segments

theorem searchesAgree_of_staysOnWay (hstart : IsPassablePath root cwd start)
    (h : StaysOnWay root cwd names start) :
    SearchesAgree (root.host cwd) names start (normalize start) := by
  rw [StaysOnWay, segments_eq_fold_names] at h
  have hsame := nearest_eq_longest_iff.mpr h
  rw [← segments_eq_fold_names] at hsame
  rw [SearchesAgree]
  rcases findUp_cases hstart names with
    ⟨hnone, hfind⟩ | ⟨dir, hdir, name, -, hsome, hname, hfind⟩ <;>
  rcases findUp_normalize_cases hstart names with
    ⟨hnone', hfind'⟩ | ⟨dir', hdir', name', -, hsome', hname', hfind'⟩
  · rw [hfind, hfind']
  · cases hnone.symm.trans (hsame.trans hsome')
  · cases hnone'.symm.trans (hsame.symm.trans hsome)
  · have hsegments := Option.some.inj (hsome.symm.trans (hsame.trans hsome'))
    rw [hsegments] at hname
    obtain rfl := Option.some.inj (hname.symm.trans hname')
    have hspelling : SameUpToSeparator dir dir' :=
      sameUpToSeparator_of_mem_ascending (head?_normalize start).symm hdir hdir' hsegments
    rw [hfind, hfind', Option.map_some, Option.map_some,
      normalize_within_congr hspelling (ne_nil_of_fileAt hname)]

theorem exists_of_searchesAgree (hstart : IsPassablePath root cwd start)
    (h : SearchesAgree (root.host cwd) names start (normalize start)) {p : Text}
    (hp : findUp (root.host cwd) names start = some p) :
    ∃ dir ∈ ascending (normalize start), ∃ name ∈ names,
      normalize p = normalize (within dir name) := by
  rw [SearchesAgree, hp] at h
  rcases findUp_normalize_cases hstart names with
    ⟨-, hfind⟩ | ⟨dir, hdir, name, hname, -, -, hfind⟩
  · rw [hfind] at h
    cases h
  · rw [hfind] at h
    exact ⟨dir, hdir, name, hname, Option.some.inj h⟩

theorem staysOnWay_of_exists (hnames : ∀ name ∈ names, IsName name)
    (hstart : IsPassablePath root cwd start)
    (h : ∀ p, findUp (root.host cwd) names start = some p →
      ∃ dir ∈ ascending (normalize start), ∃ name ∈ names,
        normalize p = normalize (within dir name)) : StaysOnWay root cwd names start := by
  intro found hfound
  rcases findUp_cases hstart names with
    ⟨hnone, -⟩ | ⟨dir, -, name, hname, hsome, -, hfind⟩
  · cases hnone.symm.trans hfound
  · obtain ⟨dir', hdir', name', hname', hnormal⟩ := h _ hfind
    -- A name that is added to folded segments is the last of them.
    have hsegments : (Form.ofText dir).segments ++ [name] =
        (Form.ofText dir').segments ++ [name'] := by
      rw [← segments_within (hnames name hname), ← segments_within (hnames name' hname'),
        ← segments_normalize, hnormal, segments_normalize]
    obtain rfl := Option.some.inj (hsome.symm.trans hfound)
    rw [(List.append_inj' hsegments rfl).1]
    exact segments_isPrefix_of_mem_ascending_normalize hdir'

/-- Without climbs, folded segments are entered one after another. -/
theorem walk_eq_append {dir : Text} (h : ['.', '.'] ∉ (Form.ofText dir).segments) :
    walk cwd dir = origin cwd dir ++ (Form.ofText dir).segments := by
  have hnames : ∀ s ∈ (Form.ofText dir).segments, IsName s := fun s hs =>
    (Folded.mem (Form.isFolded_ofText dir) hs).resolve_left fun hup => h (hup ▸ hs)
  rw [← foldl_step_names hnames]
  exact (foldl_step_fold (fun _ => not_mem_of_mem_splitOn) fun hhead => if_pos hhead).symm

/-- **What is found above.** Where folded segments hold no climbs, they are places, and true
surroundings are directories around the start. -/
theorem findsAbove_iff (hnames : ∀ name ∈ names, IsName name) (hne : start ≠ [])
    (hstart : IsPassablePath root cwd start) (hup : ['.', '.'] ∉ (Form.ofText start).segments) :
    FindsAbove root cwd names start ↔ StaysOnWay root cwd names start := by
  have hhere := locate_of_isPassablePath hstart hne
  rcases findUp_cases hstart names with
    ⟨hnone, hfind⟩ | ⟨dir, hdir, name, hname, hsome, hfile, hfind⟩
  · refine iff_of_true (fun p hp => ?_) fun found hfound => ?_
    · cases hfind.symm.trans hp
    · cases hnone.symm.trans hfound
  have hfound : (root.host cwd).isFile (within dir name) = true := by
    rw [← find?_isFile_within hstart hdir] at hfile
    simpa using List.find?_some hfile
  have hlocate := locate_within_of_isFile (isPassablePath_of_mem_ascending hstart hdir)
    (hnames name hname) hfound
  have hupDir : ['.', '.'] ∉ (Form.ofText dir).segments := by
    have hhead : (dir.head? == some '/') = (start.head? == some '/') := by
      rw [Bool.eq_iff_iff, beq_iff_eq, beq_iff_eq, head?_of_mem_ascending hdir]
    rw [segments_eq_fold_names] at hup ⊢
    rw [hhead]
    exact up_not_mem_fold_of_isPrefix hup (names_isPrefix_of_mem_ascending hdir)
  have hplace : walk cwd dir <+: walk cwd start ↔
      (Form.ofText dir).segments <+: (Form.ofText start).segments := by
    rw [walk_eq_append hupDir, walk_eq_append hup, origin_of_mem_ascending cwd hdir,
      List.prefix_append_right_inj]
  constructor
  · intro h found hsome'
    obtain ⟨here, dir', hhere', hprefix, name', -, hlocate'⟩ := h _ hfind
    obtain rfl := Except.ok.inj (hhere.symm.trans hhere')
    obtain rfl := Option.some.inj (hsome.symm.trans hsome')
    have hdir' := Except.ok.inj (hlocate.symm.trans hlocate')
    rw [← hplace, (List.append_inj' hdir' rfl).1]
    exact hprefix
  · intro h p hp
    obtain rfl := Option.some.inj (hfind.symm.trans hp)
    exact ⟨_, _, hhere, hplace.mpr (h _ hsome), name, hname, hlocate⟩

end FindUp

/-- **When a search does not depend on how its start is spelled.** From a directory, a search for
names agrees with the one from the normal form of its path exactly when what it finds is a name
within a directory on the way up from the normal form. For a path that is absolute, or does not
climb out of the working directory, that is a directory that lies around the start directory, or
the start directory itself. A path that climbs first is searched as its normal form, whatever is
looked for. -/
theorem findUp_normalize_iff (root : FileTree) (cwd : List Text) {start : Text}
    (hstart : (root.host cwd).isDirectory start = true) :
    (∀ names, (∀ name ∈ names, IsName name) →
      (SearchesAgree (root.host cwd) names start (normalize start) ↔
        ∀ p, findUp (root.host cwd) names start = some p →
          ∃ dir ∈ ascending (normalize start), ∃ name ∈ names,
            normalize p = normalize (within dir name)) ∧
      (start.head? = some '/' ∨ Descends (normalize start) →
        (SearchesAgree (root.host cwd) names start (normalize start) ↔
          FindsAbove root cwd names start))) ∧
    (ClimbsFirst start →
      ∀ names, SearchesAgree (root.host cwd) names start (normalize start)) := by
  have hne : start ≠ [] := by
    rintro rfl
    cases hstart
  have hpassable := (isDirectory_iff hne).mp hstart
  refine ⟨fun names hnames => ?_, fun hfirst names => ?_⟩
  · have hagree : SearchesAgree (root.host cwd) names start (normalize start) ↔
        StaysOnWay root cwd names start :=
      ⟨fun h => staysOnWay_of_exists hnames hpassable fun p => exists_of_searchesAgree hpassable h,
        searchesAgree_of_staysOnWay hpassable⟩
    refine ⟨⟨fun h p => exists_of_searchesAgree hpassable h,
      fun h => hagree.mpr (staysOnWay_of_exists hnames hpassable h)⟩, fun hplace => ?_⟩
    have hup : ['.', '.'] ∉ (Form.ofText start).segments := by
      intro hmem
      rcases hplace with hroot | hdescends
      · rw [segments_eq_fold_names, up_mem_fold_iff] at hmem
        simp [hroot] at hmem
      · rw [← names_normalize] at hmem
        exact hdescends (List.mem_of_mem_filter hmem)
    rw [hagree, findsAbove_iff hnames hne hpassable hup]
  · refine searchesAgree_of_staysOnWay hpassable fun found hfound => ?_
    obtain ⟨-, first, hprefix, rfl⟩ := of_nearest hfound
    rw [segments_eq_fold_names]
    exact hfirst.fold_isPrefix _ hprefix

/-! ### A search that looks below its start -/

/-- The tree with one configuration, in `/d`. -/
def oneBelowTree : FileTree :=
  .directory [("d".toList, .directory [("tsconfig.json".toList, .file [0x7b, 0x7d])])]

/-- From `d/../d` the configuration is found above, and so it is found from `d`. From `d/..` it is
found as well, but not above, and so it is not found from the normal form. -/
theorem findUp_normalize_iff_oneBelow :
    let host := oneBelowTree.host []
    host.isDirectory "d/../d".toList = true ∧
      SearchesAgree host fileNames "d/../d".toList (normalize "d/../d".toList) ∧
      host.isDirectory "d/..".toList = true ∧
      ¬SearchesAgree host fileNames "d/..".toList (normalize "d/..".toList) := by
  intro host
  have hnames : ∀ name ∈ fileNames, IsName name := by decide
  have hback : host.isDirectory "d/../d".toList = true := rfl
  have hup : host.isDirectory "d/..".toList = true := rfl
  refine ⟨hback, ?_, hup, ?_⟩
  · refine (((findUp_normalize_iff oneBelowTree [] hback).1 fileNames hnames).2
      (.inr (by decide))).mpr fun p hp => ?_
    obtain rfl : "d/../d/tsconfig.json".toList = p := Option.some.inj hp
    exact ⟨["d".toList], ["d".toList], rfl, List.prefix_refl _, "tsconfig.json".toList, by decide,
      rfl⟩
  · intro hagree
    obtain ⟨here, dir, hhere, hprefix, name, -, hfound⟩ :=
      (((findUp_normalize_iff oneBelowTree [] hup).1 fileNames hnames).2
        (.inr (by decide))).mp hagree "d/tsconfig.json".toList rfl
    obtain rfl : [] = here := Except.ok.inj hhere
    obtain rfl := List.prefix_nil.mp hprefix
    cases Except.ok.inj hfound

/-- The tree with one configuration, in the working directory `/w`. -/
def oneBesideTree : FileTree :=
  .directory [("w".toList, .directory [("tsconfig.json".toList, .file [0x7b, 0x7d])])]

/-- **A search may look below its start.** The directory of `d/..` and the one of `..` have no
configuration, and nor has one around them. The first search finds what lies in `d`, which it does
not find from the normal form; the second finds what lies in the working directory. -/
theorem findUp_looks_below :
    let below := oneBelowTree.host []
    let beside := oneBesideTree.host ["w".toList]
    (below.isDirectory "d".toList = true ∧ below.isDirectory "d/..".toList = true ∧
        findUp below fileNames "d/..".toList = some "d/tsconfig.json".toList ∧
        findUp below fileNames (normalize "d/..".toList) = none) ∧
      (beside.isDirectory "..".toList = true ∧
        findUp beside fileNames "..".toList = some "tsconfig.json".toList ∧
        locate oneBesideTree ["w".toList] "..".toList = .ok [] ∧
        locate oneBesideTree ["w".toList] "tsconfig.json".toList =
          .ok ["w".toList, "tsconfig.json".toList]) :=
  ⟨⟨rfl, rfl, rfl, rfl⟩, rfl, rfl, rfl, rfl⟩

end Config

end ImportAlias
