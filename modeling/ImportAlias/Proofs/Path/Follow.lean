import ImportAlias.Path.Relative
import ImportAlias.Proofs.Path.Uncovered
import ImportAlias.Proofs.Path.Walk

/-!
# Following a path under a platform's convention

A platform decides where a path is cut into pieces. Followed from a directory, a path leads where a
walk along its pieces ends (`follow`), and only segments that are not empty count, so a path that is
put together from segments is followed one segment after another (`follow_intercalate`).

On Windows an absolute path is followed behind its drive. Whether two absolute paths are of the same
place shows in their drives and in where they lead behind them (`samePlace_windows_iff`).
-/

namespace ImportAlias

namespace Path

open ImportAlias.Text (lowercase)

/-! ### One piece after another -/

section Pieces

variable (platform : Platform)

theorem pieces_append (p q : Text) :
    pieces platform (p ++ '/' :: q) = pieces platform p ++ pieces platform q := by
  have hslash : slash (p ++ '/' :: q) = slash p ++ '/' :: slash q := by simp [slash]
  cases platform with
  | posix => exact List.splitOn_append_cons_self ..
  | windows => rw [pieces, hslash, List.splitOn_append_cons_self]; rfl

theorem pieces_nil : pieces platform [] = [[]] := by cases platform <;> rfl

/-- The pieces of joined segments are those of each. -/
theorem pieces_intercalate {segments : List Text} (h : segments ≠ []) :
    pieces platform (['/'].intercalate segments) = segments.flatMap (pieces platform) := by
  induction segments with
  | nil => exact absurd rfl h
  | cons s segments ih =>
    cases segments with
    | nil => simp
    | cons t segments =>
      rw [List.intercalate_cons_cons, List.append_assoc, List.singleton_append, pieces_append,
        ih (by simp), List.flatMap_cons (x := s)]

/-- Where a walk along the segments of the path ends that starts in `dir`, whatever the path starts
with. -/
def follow (dir : List Text) (p : Text) : List Text := (pieces platform p).foldl step dir

variable {platform} (dir : List Text)

theorem follow_eq (p : Text) :
    follow platform dir p =
      dir.take (dir.length - climb (pieces platform p)) ++ kept [] (pieces platform p) :=
  foldl_step_eq ..

@[simp] theorem follow_nil : follow platform dir [] = dir := by
  rw [follow, pieces_nil]
  exact step_blank dir isBlank_nil

theorem follow_append (p q : Text) :
    follow platform dir (p ++ '/' :: q) = follow platform (follow platform dir p) q := by
  rw [follow, pieces_append, List.foldl_append]
  rfl

theorem follow_intercalate (segments : List Text) :
    follow platform dir (['/'].intercalate segments) =
      segments.foldl (follow platform) dir := by
  by_cases h : segments = []
  · rw [h]
    exact follow_nil dir
  · rw [follow, pieces_intercalate platform h, List.foldl_flatMap]
    rfl

/-- Only the segments of a path that are not empty count. -/
theorem follow_segments (p : Text) :
    follow platform dir p = (segments p).foldl (follow platform) dir := by
  have hjoined : ['/'].intercalate (p.splitOn '/') = p := List.intercalate_splitOn ..
  rw [← hjoined, follow_intercalate, hjoined, segments]
  generalize p.splitOn '/' = pieces
  induction pieces generalizing dir with
  | nil => rfl
  | cons s pieces ih =>
    rw [List.foldl_cons, ih]
    by_cases hs : s = []
    · simp [hs]
    · simp [hs]

/-- Segments that are one piece each are walked as they are. -/
theorem foldl_follow {segments : List Text} (h : ∀ s ∈ segments, pieces platform s = [s]) :
    segments.foldl (follow platform) dir = segments.foldl step dir := by
  induction segments generalizing dir with
  | nil => rfl
  | cons s segments ih =>
    have hs : follow platform dir s = step dir s := by
      rw [follow, h s List.mem_cons_self]
      rfl
    rw [List.foldl_cons, hs, ih _ fun t ht => h t (List.mem_cons_of_mem s ht), List.foldl_cons]

/-- The segment is a name, and nothing in it separates names on the platform. -/
def IsEntry (platform : Platform) (s : Text) : Prop := IsName s ∧ pieces platform s = [s]

theorem foldl_follow_entries {segments : List Text} (h : ∀ s ∈ segments, IsEntry platform s) :
    segments.foldl (follow platform) dir = dir ++ segments := by
  rw [foldl_follow dir fun s hs => (h s hs).2, foldl_step_names fun s hs => (h s hs).1]

end Pieces

/-! ### Segments that are not empty -/

theorem segments_append (p q : Text) : segments (p ++ '/' :: q) = segments p ++ segments q := by
  rw [segments, List.splitOn_append_cons_self, List.filter_append]
  rfl

theorem segments_slash (p : Text) : segments ('/' :: p) = segments p := by
  simpa [segments] using segments_append [] p

theorem mem_segments {p s : Text} : s ∈ segments p ↔ s ∈ p.splitOn '/' ∧ s ≠ [] := by
  simp [segments]

/-! ### Absolute paths on Windows -/

theorem drive_of_isSlash {c : Char} (hc : isSlash c) (p : Text) : drive (c :: p) = [] := by
  rw [← drive_slash, slash_cons_of_isSlash hc]
  exact drive_of_head? rfl

theorem drive_append_afterDrive (p : Text) : drive p ++ afterDrive p = p := by
  by_cases h : drive p = []
  · rw [h, afterDrive_of_drive_eq_nil h, List.nil_append]
  · obtain ⟨letter, rest, hletter, rfl⟩ := exists_of_drive_ne_nil h
    rw [drive_cons hletter, afterDrive_cons hletter]
    rfl

/-- A drive, or none, is read back in front of a separator. -/
theorem drive_drive_append (p : Text) {sep : Char} (hsep : isSlash sep) (rest : Text) :
    drive (drive p ++ sep :: rest) = drive p ∧
      afterDrive (drive p ++ sep :: rest) = sep :: rest := by
  by_cases h : drive p = []
  · have hnone : drive (sep :: rest) = [] := drive_of_isSlash hsep rest
    rw [h, List.nil_append]
    exact ⟨hnone, afterDrive_of_drive_eq_nil hnone⟩
  · obtain ⟨letter, behind, hletter, rfl⟩ := exists_of_drive_ne_nil h
    rw [drive_cons hletter, List.cons_append, List.cons_append, List.nil_append]
    exact ⟨drive_cons hletter _, afterDrive_cons hletter _⟩

/-- A path is absolute when a separator stands behind its drive, or in front if it has none. -/
theorem isAbsolute_iff_afterDrive {p : Text} :
    isAbsolute .windows p ↔ (afterDrive p).head?.any isSlash := by
  rw [isAbsolute, Bool.or_eq_true, Bool.and_eq_true, bne_iff_ne]
  by_cases h : drive p = []
  · simp [h, afterDrive_of_drive_eq_nil h]
  · obtain ⟨letter, behind, hletter, rfl⟩ := exists_of_drive_ne_nil h
    simp [h, not_isSlash_of_isAlpha hletter]

/-- A drive is a segment of its own. -/
theorem segments_drive (p : Text) :
    segments (drive p) = if drive p = [] then [] else [drive p] := by
  by_cases h : drive p = []
  · rw [h, if_pos rfl]
    rfl
  · obtain ⟨letter, behind, hletter, rfl⟩ := exists_of_drive_ne_nil h
    rw [if_neg h, drive_cons hletter, segments, (isName_drive hletter).splitOn]
    rfl

theorem isEntry_of_mem_drive {p s : Text} (h : s ∈ segments (drive p)) : IsEntry .windows s := by
  rw [segments_drive] at h
  split at h
  · cases h
  · rename_i hdrive
    obtain ⟨letter, behind, hletter, rfl⟩ := exists_of_drive_ne_nil hdrive
    rw [drive_cons hletter, List.mem_singleton] at h
    have hname := isName_drive hletter
    rw [h]
    exact ⟨hname, by rw [pieces, slash_cons hletter]; exact hname.splitOn⟩

section Absolute

variable {p : Text} (hp : isAbsolute .windows p)

include hp

theorem exists_of_isAbsolute :
    ∃ sep rest, isSlash sep ∧ afterDrive p = sep :: rest ∧ p = drive p ++ sep :: rest := by
  have hafter := isAbsolute_iff_afterDrive.mp hp
  cases hbehind : afterDrive p with
  | nil => simp [hbehind] at hafter
  | cons sep rest =>
    rw [hbehind] at hafter
    exact ⟨sep, rest, hafter, rfl, by rw [← hbehind, drive_append_afterDrive]⟩

theorem drive_append (q : Text) :
    drive (p ++ q) = drive p ∧ afterDrive (p ++ q) = afterDrive p ++ q := by
  obtain ⟨sep, rest, hsep, hafter, hwhole⟩ := exists_of_isAbsolute hp
  have happend : p ++ q = drive p ++ sep :: (rest ++ q) := by
    rw [hwhole, (drive_drive_append p hsep rest).1]
    simp
  rw [happend, hafter]
  exact drive_drive_append p hsep _

theorem isAbsolute_append (q : Text) : isAbsolute .windows (p ++ q) := by
  obtain ⟨sep, rest, hsep, hafter, -⟩ := exists_of_isAbsolute hp
  rw [isAbsolute_iff_afterDrive, (drive_append hp q).2, hafter]
  simpa using hsep

theorem head?_slash_afterDrive : (slash (afterDrive p)).head? = some '/' :=
  head?_slash (isAbsolute_iff_afterDrive.mp hp)

/-- What is folded of an absolute path is what stands behind its drive. -/
theorem drive_normalizeOn_of_isAbsolute :
    drive (normalizeOn .windows p) = drive p ∧
      afterDrive (normalizeOn .windows p) = normalize (slash (afterDrive p)) := by
  have hnormal : normalizeOn .windows p = drive p ++ normalize (slash (afterDrive p)) := by
    have hne : slash (afterDrive p) ≠ [] := by
      intro hnil
      have hhead := head?_slash_afterDrive hp
      rw [hnil] at hhead
      cases hhead
    simp only [normalizeOn, drive_slash, afterDrive_slash, if_neg hne]
    split
    · rename_i hdrive
      rw [hdrive, afterDrive_of_drive_eq_nil hdrive, List.nil_append]
    · rfl
  obtain ⟨rest, hrest⟩ := List.head?_eq_some_iff.mp
    ((head?_normalize _).mpr (head?_slash_afterDrive hp))
  rw [hnormal, hrest]
  exact drive_drive_append p rfl rest

/-- An absolute path is followed as what stands behind its drive, from the directory of that
name. -/
theorem follow_drive (dir : List Text) :
    follow .windows dir p = follow .windows (dir ++ segments (drive p)) (afterDrive p) := by
  obtain ⟨sep, rest, hsep, hafter, hwhole⟩ := exists_of_isAbsolute hp
  have hsplit (dir : List Text) (d : Text) : follow .windows dir (d ++ sep :: rest) =
      follow .windows (follow .windows dir d) rest := by
    have hslash : slash (d ++ sep :: rest) = slash (d ++ '/' :: rest) := by
      rw [slash_append, slash_append, slash_cons_of_isSlash hsep, slash_cons_of_isSlash rfl]
    rw [← follow_append, follow, pieces, hslash]
    rfl
  have hdrive : follow .windows dir (drive p) = dir ++ segments (drive p) := by
    rw [follow_segments, foldl_follow_entries dir fun _ => isEntry_of_mem_drive]
  have hafterDrive := hsplit (dir ++ segments (drive p)) []
  rw [List.nil_append, follow_nil] at hafterDrive
  rw [hafter, hafterDrive, ← hdrive, ← hsplit, ← hwhole]

end Absolute

/-! ### Segments of absolute paths -/

/-- What a path in normal form on Windows has behind its drive is written with `/`. -/
theorem head?_afterDrive {p : Text} (hp : isAbsolute .windows p) (h : '\\' ∉ p) :
    (afterDrive p).head? = some '/' := by
  have hbehind : '\\' ∉ afterDrive p := fun hmem => h (List.mem_of_mem_drop hmem)
  exact (startsWithSlash_iff hbehind).mp (isAbsolute_iff_afterDrive.mp hp)

/-- The segments of an absolute path that is written from a folded form are names. -/
theorem isName_of_mem_segments {p s : Text} (h : IsWritten p) (hhead : p.head? = some '/')
    (hs : s ∈ segments p) : IsName s := by
  obtain ⟨hmem, hne⟩ := mem_segments.mp hs
  obtain ⟨-, -, hdot, climbs, rest, hpieces, hup, hclimbs⟩ := isCanonical_of_isWritten h
  refine ⟨hne, ?_, ?_, not_mem_of_mem_splitOn hmem⟩
  · rintro rfl
    refine hdot ?_ ?_ hmem <;> rintro rfl <;> cases hhead
  · rintro rfl
    rw [hpieces, hclimbs hhead] at hmem
    exact hup hmem

/-- A path with a separator behind its drive has the drive as its first segment, if it has one. -/
theorem segments_eq {p : Text} (h : (afterDrive p).head? = some '/') :
    segments p = segments (drive p) ++ segments (afterDrive p) := by
  obtain ⟨rest, hrest⟩ := List.head?_eq_some_iff.mp h
  have hwhole : drive p ++ '/' :: rest = p := hrest ▸ drive_append_afterDrive p
  calc segments p = segments (drive p ++ '/' :: rest) := by rw [hwhole]
    _ = segments (drive p) ++ segments rest := segments_append _ _
    _ = segments (drive p) ++ segments (afterDrive p) := by rw [hrest, segments_slash]

/-- The segments of an absolute path in normal form are names on its platform. -/
theorem isEntry_of_mem_segments {platform : Platform} {p s : Text} (hp : isAbsolute platform p)
    (hnormal : normalizeOn platform p = p) (hs : s ∈ segments p) : IsEntry platform s := by
  rw [normalizeOn_eq_self_iff] at hnormal
  cases platform with
  | posix =>
    have hname : IsName s := isName_of_mem_segments hnormal (isAbsolute_posix_iff.mp hp) hs
    exact ⟨hname, hname.splitOn⟩
  | windows =>
    obtain ⟨hbackslash, hafter⟩ := hnormal
    have hhead := head?_afterDrive hp hbackslash
    rw [segments_eq hhead] at hs
    rcases List.mem_append.mp hs with hs | hs
    · exact isEntry_of_mem_drive hs
    · have hwritten : IsWritten (afterDrive p) := by
        refine hafter.resolve_left fun hnil => ?_
        rw [hnil.2] at hhead
        cases hhead
      have hname : IsName s := isName_of_mem_segments hwritten hhead hs
      have hplain : '\\' ∉ s := fun hmem => hbackslash (List.mem_of_mem_drop
        (mem_of_mem_splitOn (mem_segments.mp hs).1 hmem))
      exact ⟨hname, by rw [pieces, slash_eq_self hplain]; exact hname.splitOn⟩

/-! ### Paths of the same place -/

/-- The normal forms of the paths are the same, but for one separator at the end and on Windows the
letter case of the drive. -/
def SamePlace : Platform → Text → Text → Prop
  | .posix, p, q => SameUpToSeparator p q
  | .windows, p, q =>
    lowercase (drive (normalizeOn .windows p)) = lowercase (drive (normalizeOn .windows q)) ∧
      SameUpToSeparator (afterDrive (normalizeOn .windows p)) (afterDrive (normalizeOn .windows q))

instance (platform : Platform) (p q : Text) : Decidable (SamePlace platform p q) :=
  match platform with
  | .posix => inferInstanceAs (Decidable (SameUpToSeparator p q))
  | .windows => inferInstanceAs (Decidable (_ ∧ SameUpToSeparator _ _))

section SamePlace

variable {p q : Text}

/-- Paths that start at the root differ at most in a separator when the same names are left of
them. -/
theorem sameUpToSeparator_iff_kept (hp : p.head? = some '/') (hq : q.head? = some '/') :
    SameUpToSeparator p q ↔ kept [] (p.splitOn '/') = kept [] (q.splitOn '/') := by
  simp [sameUpToSeparator_iff, Form.ofText, hp, hq, fold_eq]

theorem samePlace_posix_iff (hp : isAbsolute .posix p) (hq : isAbsolute .posix q) :
    SamePlace .posix p q ↔ follow .posix [] p = follow .posix [] q := by
  rw [isAbsolute_posix_iff] at hp hq
  rw [SamePlace, sameUpToSeparator_iff_kept hp hq, follow, follow, foldl_step_root, foldl_step_root]
  rfl

/-- Absolute paths on Windows are of the same place when their drives are the same but for case and
what stands behind them leads to the same directory. -/
theorem samePlace_windows_iff (hp : isAbsolute .windows p) (hq : isAbsolute .windows q) :
    SamePlace .windows p q ↔ lowercase (drive p) = lowercase (drive q) ∧
      follow .windows [] (afterDrive p) = follow .windows [] (afterDrive q) := by
  obtain ⟨hdrive, hafter⟩ := drive_normalizeOn_of_isAbsolute hp
  obtain ⟨hdrive', hafter'⟩ := drive_normalizeOn_of_isAbsolute hq
  have hnormal (x y : Text) : SameUpToSeparator (normalize x) (normalize y) ↔
      SameUpToSeparator x y := by
    simp only [SameUpToSeparator, normalize_normalize]
  rw [SamePlace, hdrive, hafter, hdrive', hafter', hnormal,
    sameUpToSeparator_iff_kept (head?_slash_afterDrive hp) (head?_slash_afterDrive hq),
    follow, follow, foldl_step_root, foldl_step_root]
  rfl

end SamePlace

end Path

end ImportAlias
