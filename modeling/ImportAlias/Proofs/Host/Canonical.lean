import ImportAlias.Proofs.Host.Location

/-!
# Canonical paths

The canonical path of a file or directory is the absolute path made of the names that lead to it
from the root. It can be read back: it spells its own place (`place_absolutePath`), and adding a
name to it adds the name to the place (`within_absolutePath`).

The working directory of a run is given by such a path, while the host takes relative paths from
the working directory itself. Both lead to the same: a path within the canonical path of the
working directory names what it names by itself (`locate_within_absolutePath`).
-/

namespace ImportAlias

namespace FileTree

open ImportAlias.Path

/-! ### Reading canonical paths -/

section AbsolutePath

variable {ns : List Text}

theorem splitOn_absolutePath (hns : ∀ n ∈ ns, IsName n) (hne : ns ≠ []) :
    (absolutePath ns).splitOn '/' = [] :: ns := by
  have hcons : absolutePath ns = [] ++ '/' :: ['/'].intercalate ns := rfl
  rw [hcons, List.splitOn_append_cons_self, List.splitOn_nil,
    List.splitOn_intercalate '/' (fun n hn => (hns n hn).2.2.2) hne]
  rfl

theorem names_absolutePath (hns : ∀ n ∈ ns, IsName n) : names (absolutePath ns) = ns := by
  by_cases hne : ns = []
  · subst hne
    decide
  · rw [names, splitOn_absolutePath hns hne, moves_cons_of_isBlank (.inl rfl), moves_eq_self hns]

/-- A canonical path spells the place that it was made of. -/
theorem place_absolutePath (hns : ∀ n ∈ ns, IsName n) (cwd : List Text) :
    place cwd (absolutePath ns) = ns := by
  rw [place, names_absolutePath hns]
  rfl

theorem descends_absolutePath (hns : ∀ n ∈ ns, IsName n) : Descends (absolutePath ns) := by
  by_cases hne : ns = []
  · subst hne
    decide
  · rw [Descends, splitOn_absolutePath hns hne]
    intro h
    rcases List.mem_cons.mp h with h | h
    · cases h
    · exact (hns _ h).2.2.1 rfl

theorem within_absolutePath (hns : ∀ n ∈ ns, IsName n) {name : Text} (hname : IsName name) :
    within (absolutePath ns) name = absolutePath (ns ++ [name]) := by
  by_cases hne : ns = []
  · subst hne
    rw [within_of_ne_nil hname.head?_ne (by simp [absolutePath])]
    simp [absolutePath]
  have hall : ∀ n ∈ ns ++ [name], IsName n := by
    intro n hn
    rcases List.mem_append.mp hn with hn | hn
    · exact hns n hn
    · exact List.mem_singleton.mp hn ▸ hname
  -- Both have the same segments: no name is blank, so the directory ends in no separator.
  have hsplit : (within (absolutePath ns) name).splitOn '/' =
      (absolutePath (ns ++ [name])).splitOn '/' := by
    rw [splitOn_absolutePath hall (by simp)]
    rcases splitOn_within hname.head?_ne (absolutePath ns) with h | ⟨segments, hblank, -⟩
    · rw [h, splitOn_absolutePath hns hne, hname.splitOn]
      rfl
    · rw [splitOn_absolutePath hns hne] at hblank
      obtain ⟨outer, last, rfl⟩ := List.eq_nil_or_concat ns |>.resolve_left hne
      have hnil : last = [] := by
        have hends := congrArg List.getLast? hblank
        rw [List.concat_eq_append, ← List.cons_append, List.getLast?_concat,
          List.getLast?_concat] at hends
        exact Option.some.inj hends
      exact absurd hnil (hns last (by simp)).1
  have hpaths := congrArg (['/'].intercalate ·) hsplit
  simpa only [List.intercalate_splitOn] using hpaths

end AbsolutePath

/-- The host has a canonical path for what a path leads to. -/
theorem canonicalize_of_locate {root : FileTree} {cwd q : List Text} {p : Text}
    (h : locate root cwd p = .ok q) : (root.host cwd).canonicalize p = some (absolutePath q) := by
  simp only [host, h]

theorem canonicalize_of_error {root : FileTree} {cwd : List Text} {p : Text} {e : ReadError}
    (h : locate root cwd p = .error e) : (root.host cwd).canonicalize p = none := by
  simp only [host, h]

/-! ### Names that paths lead to -/

section Names

variable {root : FileTree}

theorem isName_of_follow {here q : List Text} {s : Text} (hhere : ∀ n ∈ here, IsName n)
    (hs : '/' ∉ s) (h : follow root here s = .ok q) : ∀ n ∈ q, IsName n := by
  by_cases hdir : ∃ entries, root.at? here.reverse = some (.directory entries)
  · obtain ⟨entries, hat⟩ := hdir
    by_cases hblank : IsBlank s
    · rw [follow_of_directory hat, if_pos hblank] at h
      cases h
      exact hhere
    · by_cases hup : s = ['.', '.']
      · rw [follow_of_directory hat, if_neg hblank, if_pos hup] at h
        cases h
        exact fun n hn => hhere n (List.mem_of_mem_tail hn)
      · obtain ⟨rfl, -⟩ := (follow_eq_ok_iff hblank hup).mp h
        have hname : IsName s :=
          ⟨fun hnil => hblank (.inl hnil), fun hdot => hblank (.inr hdot), hup, hs⟩
        intro n hn
        rcases List.mem_cons.mp hn with rfl | hn
        · exact hname
        · exact hhere n hn
  · obtain ⟨e, he⟩ := exists_error_of_follow (not_exists.mp hdir)
    rw [he] at h
    cases h

theorem isName_of_followAll {segments here q : List Text} (hhere : ∀ n ∈ here, IsName n)
    (hsegments : ∀ s ∈ segments, '/' ∉ s) (h : followAll root here segments = .ok q) :
    ∀ n ∈ q, IsName n := by
  induction segments generalizing here with
  | nil =>
    cases h
    exact hhere
  | cons s segments ih =>
    rw [followAll_cons] at h
    cases hfollow : follow root here s with
    | error e =>
      rw [hfollow] at h
      cases h
    | ok next =>
      rw [hfollow] at h
      have hnext := isName_of_follow hhere (hsegments s List.mem_cons_self) hfollow
      exact ih hnext (fun s' hs' => hsegments s' (List.mem_cons_of_mem s hs')) h

/-- Names that lead to something can be followed. -/
theorem followAll_names {here ns : List Text} (hns : ∀ n ∈ ns, IsName n)
    (hsome : (root.at? (here.reverse ++ ns)).isSome) :
    followAll root here ns = .ok (ns.reverse ++ here) := by
  rcases List.eq_nil_or_concat ns with rfl | ⟨outer, name, rfl⟩
  · rfl
  · rw [List.concat_eq_append] at hns hsome ⊢
    have hname : IsName name := hns name (by simp)
    have houter : ∀ n ∈ outer, IsName n := fun n hn => hns n (List.mem_append_left _ hn)
    have hup : ['.', '.'] ∉ outer := fun h => (houter _ h).2.2.1 rfl
    refine (followAll_concat_eq_ok_iff hup hname).mpr ?_
    rw [moves_eq_self houter]
    exact ⟨by simp, by simpa using hsome⟩

end Names

/-! ### The working directory -/

/-- The names lead to a directory that a run can work in. -/
structure IsWorkingDirectory (root : FileTree) (w : List Text) : Prop where
  isName : ∀ n ∈ w, IsName n
  exists_directory : ∃ entries, root.at? w = some (.directory entries)

namespace IsWorkingDirectory

variable {root : FileTree} {w : List Text}

theorem locate_dot (hw : IsWorkingDirectory root w) : locate root w ['.'] = .ok w := by
  obtain ⟨entries, hat⟩ := hw.exists_directory
  have hdot : followAll root w.reverse [['.']] = .ok w.reverse := by
    rw [followAll_cons, follow_of_directory (by rwa [List.reverse_reverse]), if_pos (.inr rfl)]
    rfl
  have hsplit : ['.'].splitOn '/' = [['.']] := List.splitOn_eq_singleton (by decide)
  have horigin : origin w ['.'] = w := rfl
  rw [locate_eq (by simp), hsplit, horigin, hdot]
  simp [Except.map]

/-- Whatever a path leads to is led to by names. -/
theorem isName_of_locate (hw : IsWorkingDirectory root w) {p : Text} {q : List Text}
    (h : locate root w p = .ok q) : ∀ n ∈ q, IsName n := by
  have hp : p ≠ [] := by
    rintro rfl
    cases h
  have hstart : ∀ n ∈ (origin w p).reverse, IsName n := by
    intro n hn
    rw [origin] at hn
    split at hn
    · cases hn
    · exact hw.isName n (List.mem_reverse.mp hn)
  rw [locate_eq hp] at h
  cases hall : followAll root (origin w p).reverse (p.splitOn '/') with
  | error e =>
    rw [hall] at h
    cases h
  | ok here =>
    rw [hall] at h
    cases h
    have hhere := isName_of_followAll hstart (fun s hs => not_mem_of_mem_splitOn hs) hall
    exact fun n hn => hhere n (List.mem_reverse.mp hn)

/-- The directories that a path leads to can be worked in. -/
theorem of_locate (hw : IsWorkingDirectory root w) {p : Text} {q : List Text}
    {entries : List (Text × FileTree)} (hlocate : locate root w p = .ok q)
    (hat : root.at? q = some (.directory entries)) : IsWorkingDirectory root q :=
  ⟨hw.isName_of_locate hlocate, entries, hat⟩

/-- The canonical path of the working directory leads to it from the root. -/
theorem followAll_absolutePath (hw : IsWorkingDirectory root w) :
    followAll root [] ((absolutePath w).splitOn '/') = .ok w.reverse := by
  obtain ⟨entries, hat⟩ := hw.exists_directory
  obtain ⟨rootEntries, hroot⟩ : ∃ rootEntries, root.at? [] = some (.directory rootEntries) := by
    by_cases hne : w = []
    · subst hne
      exact ⟨entries, hat⟩
    · exact exists_directory_of_at? hne hat
  have hblank : follow root [] [] = .ok [] := by
    rw [follow_of_directory hroot, if_pos (.inl rfl)]
  by_cases hne : w = []
  · subst hne
    have hsplit : (absolutePath []).splitOn '/' = [[], []] := by decide
    rw [hsplit, followAll_blank, followAll_cons, hblank]
    rfl
  · have hsome : (root.at? ([].reverse ++ w)).isSome := by
      rw [List.reverse_nil, List.nil_append, hat]
      rfl
    rw [splitOn_absolutePath hw.isName hne, followAll_cons, hblank]
    exact (followAll_names hw.isName hsome).trans (by rw [List.append_nil])

/-- **A path within the working directory** leads to where the path leads by itself. -/
theorem locate_within_absolutePath (hw : IsWorkingDirectory root w) {p : Text} (hp : p ≠ []) :
    locate root w (within (absolutePath w) p) = locate root w p := by
  by_cases hhead : p.head? = some '/'
  · simp [within, hhead]
  have hne : within (absolutePath w) p ≠ [] := by
    rw [within_of_ne_nil hhead (by simp [absolutePath])]
    split <;> simp [absolutePath]
  have horigin : origin w p = w := by simp [origin, hhead]
  have hfollow : followAll root [] ((within (absolutePath w) p).splitOn '/') =
      followAll root w.reverse (p.splitOn '/') := by
    have hall := hw.followAll_absolutePath
    rcases splitOn_within hhead (absolutePath w) with h | ⟨segments, hblank, h⟩
    · rw [h, followAll_append, hall]
      rfl
    · rw [hblank] at hall
      rw [h, followAll_append, followAll_of_concat_blank hall]
      rfl
  rw [locate_eq hne, locate_eq hp, origin_within hhead, horigin]
  exact congrArg _ hfollow

end IsWorkingDirectory

end FileTree

end ImportAlias
