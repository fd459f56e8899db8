import ImportAlias.Proofs.Path.Follow

/-!
# Reading back what is shown

A path is shown to a user as the way to it from the working directory, and the user reads it there:
an absolute text by itself, any other behind the directory and a separator (`readIn`). On POSIX this
leads back to the path, however it is written. The way climbs to the segments that the two share and
then follows what the path has behind them (`follow_way`), so nothing of the path needs to be folded
for it.

On Windows the same is true behind a drive. What can go wrong there is the drive itself, which the
way takes for a segment like any other: a drive in the other letter case is not shared and comes to
stand behind climbs, and what the path has behind the shared segments may begin with a drive or a
backslash and be read as absolute (`displayRelative_misleads`). `LeadsBack` says when it goes well,
and the main statement is that nothing else does (`displayRelative_leads_back_iff`).
-/

namespace ImportAlias

namespace Path

open ImportAlias.Text (lowercase trimStart)

/-! ### The way from a directory -/

/-- The path as it is shown to a user who works in `cwd`, an absolute path. -/
def shownFrom (platform : Platform) (cwd p : Text) : Text :=
  let start := Text.trimStart '/' cwd
  let target := Text.trimStart '/' p
  if platform = .windows ∧ rootName start ≠ rootName target then p
  else if relative start target = [] then ['.']
  else relative start target

theorem displayRelative_of_isAbsolute {platform : Platform} {cwd : Text}
    (h : isAbsolute platform cwd) (p : Text) :
    displayRelative platform cwd p = .ok (shownFrom platform cwd p) := by
  simp only [displayRelative, if_pos h, shownFrom]
  split
  · rfl
  · split <;> rfl

/-- Separators in front of a path make no segments. -/
theorem segments_trimStart (p : Text) : segments (trimStart '/' p) = segments p := by
  induction p with
  | nil => rfl
  | cons c p ih =>
    by_cases hc : c = '/'
    · rw [hc, segments_slash, ← ih]
      simp [trimStart]
    · simp [trimStart, hc]

section Way

variable {as bs up down : List Text}

/-- What is left of two lists stands behind a common start. -/
theorem exists_of_dropCommon (h : dropCommon as bs = (up, down)) :
    ∃ common, as = common ++ up ∧ bs = common ++ down := by
  induction as generalizing bs with
  | nil =>
    cases h
    exact ⟨[], rfl, rfl⟩
  | cons a as ih =>
    cases bs with
    | nil =>
      cases h
      exact ⟨[], rfl, rfl⟩
    | cons b bs =>
      by_cases hab : a = b
      · subst hab
        rw [dropCommon, if_pos rfl] at h
        obtain ⟨common, rfl, rfl⟩ := ih h
        exact ⟨a :: common, rfl, rfl⟩
      · rw [dropCommon, if_neg hab] at h
        cases h
        exact ⟨[], rfl, rfl⟩

theorem dropCommon_append (common as bs : List Text) :
    dropCommon (common ++ as) (common ++ bs) = dropCommon as bs := by
  induction common with
  | nil => rfl
  | cons s common ih => rw [List.cons_append, List.cons_append, dropCommon, if_pos rfl, ih]

/-- The segments of the way. -/
def waySegments (up down : List Text) : List Text := up.map (fun _ => ['.', '.']) ++ down

/-- The way leaves as many directories as it climbs, and then goes down. -/
theorem foldl_follow_way {platform : Platform} (dir : List Text) :
    (waySegments up down).foldl (follow platform) dir =
      down.foldl (follow platform) (dir.take (dir.length - up.length)) := by
  have hpieces : ∀ s ∈ List.replicate up.length ['.', '.'], pieces platform s = [s] := by
    intro s hs
    rw [List.eq_of_mem_replicate hs]
    cases platform <;> rfl
  rw [waySegments, List.map_const', List.foldl_append, foldl_follow dir hpieces,
    foldl_step_climbs]

variable {platform : Platform} {cwd p : Text}
  (hway : dropCommon (segments cwd) (segments p) = (up, down))
  (hroot : platform = .windows → rootName (trimStart '/' cwd) = rootName (trimStart '/' p))

include hway

theorem waySegments_ok {s : Text} (hs : s ∈ waySegments up down) : s ≠ [] ∧ '/' ∉ s := by
  obtain ⟨common, -, htarget⟩ := exists_of_dropCommon hway
  rcases List.mem_append.mp hs with hs | hs
  · obtain ⟨-, -, rfl⟩ := List.mem_map.mp hs
    decide
  · have hmem : s ∈ segments p := htarget ▸ List.mem_append_right common hs
    exact ⟨(mem_segments.mp hmem).2, not_mem_of_mem_splitOn (mem_segments.mp hmem).1⟩

include hroot

/-- Unless the whole path is shown, what is shown is the way, with `.` for none. -/
theorem shownFrom_eq : shownFrom platform cwd p =
    if waySegments up down = [] then ['.'] else ['/'].intercalate (waySegments up down) := by
  have hrelative : relative (trimStart '/' cwd) (trimStart '/' p) =
      ['/'].intercalate (waySegments up down) := by
    rw [relative, segments_trimStart, segments_trimStart, hway]
    rfl
  have hshared : ¬(platform = .windows ∧
      rootName (trimStart '/' cwd) ≠ rootName (trimStart '/' p)) := fun h => h.2 (hroot h.1)
  rw [shownFrom, if_neg hshared, hrelative]
  by_cases hnil : waySegments up down = []
  · rw [if_pos hnil, hnil]
    rfl
  · have hne := (intercalate_ends hnil fun _ => waySegments_ok hway).1
    rw [if_neg hnil, if_neg hne]

omit hroot in
/-- A way that climbs begins with `..`, and is not absolute. -/
theorem up_eq_nil_of_isAbsolute
    (hroot : rootName (trimStart '/' cwd) = rootName (trimStart '/' p))
    (h : isAbsolute .windows (shownFrom .windows cwd p)) : up = [] := by
  cases up with
  | nil => rfl
  | cons u up =>
    have hcons : waySegments (u :: up) down = ['.', '.'] :: waySegments up down := rfl
    rw [shownFrom_eq hway fun _ => hroot, hcons, if_neg (List.cons_ne_nil _ _)] at h
    cases hrest : waySegments up down <;>
      simp [hrest, List.intercalate_cons_cons, isAbsolute, drive, isSlash] at h

/-- Whoever follows what is shown climbs first and then goes down. -/
theorem follow_shownFrom (dir : List Text) :
    follow platform dir (shownFrom platform cwd p) =
      down.foldl (follow platform) (dir.take (dir.length - up.length)) := by
  rw [shownFrom_eq hway hroot, ← foldl_follow_way]
  split
  · rename_i hnil
    have hdot : pieces platform ['.'] = [['.']] := by cases platform <;> rfl
    rw [hnil, follow, hdot]
    exact step_blank dir (.inr rfl)
  · exact follow_intercalate dir _

end Way

/-! ### The first name -/

theorem splitOn_eq_takeWhile (p : Text) :
    ∃ pieces, p.splitOn '/' = p.takeWhile (· ≠ '/') :: pieces := by
  induction p with
  | nil => exact ⟨[], rfl⟩
  | cons c p ih =>
    obtain ⟨pieces, hpieces⟩ := ih
    by_cases hc : c = '/'
    · exact ⟨p.splitOn '/', by simp [hc, splitOn_slash]⟩
    · exact ⟨pieces, by simp [List.splitOn_cons_eq_if_modifyHead, hc, hpieces]⟩

/-- The name by which roots are compared is the first segment without its letter case. -/
theorem rootName_trimStart (p : Text) :
    rootName (trimStart '/' p) = lowercase ((segments p).headD []) := by
  induction p with
  | nil => rfl
  | cons c p ih =>
    by_cases hc : c = '/'
    · rw [hc, segments_slash, ← ih]
      simp [trimStart]
    · obtain ⟨pieces, hpieces⟩ := splitOn_eq_takeWhile (c :: p)
      simp [rootName, trimStart, hc, segments, hpieces]

/-- A backslash has no letter case. -/
theorem mem_lowercase_iff {t : Text} : '\\' ∈ lowercase t ↔ '\\' ∈ t := by
  refine ⟨fun h => ?_, fun h => List.mem_map.mpr ⟨_, h, rfl⟩⟩
  obtain ⟨c, hmem, hc⟩ := List.mem_map.mp h
  suffices c = '\\' from this ▸ hmem
  by_cases hcapital : c.val ≥ 'A'.val ∧ c.val ≤ 'Z'.val
  · -- A capital letter becomes another letter.
    have hlower : c.toLower.val = c.val + 32 := congrArg Char.val (dif_pos hcapital)
    have hval : c.val + 32 = 92 := hlower.symm.trans (congrArg Char.val hc)
    have hfirst : 65 ≤ c.val := hcapital.1
    have hlast : c.val ≤ 90 := hcapital.2
    grind
  · have hlower : c.toLower = c := dif_neg hcapital
    exact hlower.symm.trans hc

/-- An absolute path whose first name is that of a path without backslashes has `/` behind its
drive. -/
theorem head?_afterDrive_of_rootName {p q : Text} (hp : '\\' ∉ p) (hq : isAbsolute .windows q)
    (h : rootName (trimStart '/' p) = rootName (trimStart '/' q)) :
    (afterDrive q).head? = some '/' := by
  obtain ⟨sep, rest, hsep, hafter, hwhole⟩ := exists_of_isAbsolute hq
  have heither : sep = '/' ∨ sep = '\\' := by simpa [isSlash] using hsep
  rcases heither with rfl | rfl
  · rw [hafter]
    rfl
  · have hmem : '\\' ∈ rootName (trimStart '/' q) := by
      rw [rootName, mem_lowercase_iff, hwhole]
      by_cases hdrive : drive q = []
      · simp [hdrive, trimStart]
      · obtain ⟨letter, behind, hletter, hcons⟩ := exists_of_drive_ne_nil hdrive
        have hslash := drive_ne_slash hletter
        simp [hcons, drive_cons hletter, trimStart, hslash]
    rw [← h, rootName, mem_lowercase_iff] at hmem
    exact absurd ((List.dropWhile_suffix _).subset ((List.takeWhile_prefix _).subset hmem)) hp

/-- The text as it is read by someone who works in `cwd`. -/
def readIn (platform : Platform) (cwd t : Text) : Text :=
  if isAbsolute platform t then t else cwd ++ '/' :: t

/-- What is shown of a path leads back to it on Windows. Read as absolute, it has to be on the drive
of the path, and to climb behind it as many directories as the working directory has segments. Read
from the working directory, that has to be on the drive of the path, and to spell it alike unless
the path climbs above its root. -/
def LeadsBack (cwd p shown : Text) : Prop :=
  if isAbsolute .windows shown then
    lowercase (drive shown) = lowercase (drive p) ∧
      (segments cwd).length ≤ climb (pieces .windows (afterDrive shown))
  else
    lowercase (drive cwd) = lowercase (drive p) ∧
      (drive cwd = drive p ∨ climb (pieces .windows (afterDrive p)) ≠ 0)

instance (cwd p shown : Text) : Decidable (LeadsBack cwd p shown) :=
  inferInstanceAs (Decidable (if isAbsolute .windows shown then _ ∧ _ else _ ∧ (_ ∨ _)))

/-! ### Reading back -/

/-- Texts that differ in letter case are both empty or neither is. -/
theorem eq_nil_iff_of_lowercase_eq {s t : Text} (h : lowercase s = lowercase t) :
    s = [] ↔ t = [] := by
  have hmap : s.map Char.toLower = t.map Char.toLower := h
  rw [← List.map_eq_nil_iff (f := Char.toLower), hmap, List.map_eq_nil_iff]

section Back

variable {platform : Platform} {cwd p : Text} {up down : List Text}

/-- **The way leads back**: from the last segment that the directory and the path share it goes on
as the path does. -/
theorem follow_way {start target t : Text} (hstart : ∀ s ∈ segments start, IsEntry platform s)
    (hway : dropCommon (segments start) (segments target) = (up, down))
    (ht : ∀ dir, follow platform dir t =
      down.foldl (follow platform) (dir.take (dir.length - up.length))) :
    follow platform [] (start ++ '/' :: t) = follow platform [] target := by
  obtain ⟨common, hup, hdown⟩ := exists_of_dropCommon hway
  have hcommon : ∀ s ∈ common, IsEntry platform s := fun s hs =>
    hstart s (hup ▸ List.mem_append_left up hs)
  have hshared : (common ++ up).take ((common ++ up).length - up.length) = common := by simp
  calc follow platform [] (start ++ '/' :: t)
      = follow platform (common ++ up) t := by
        rw [follow_append, follow_segments [] start, foldl_follow_entries [] hstart, hup,
          List.nil_append]
    _ = down.foldl (follow platform) common := by rw [ht, hshared]
    _ = follow platform [] target := by
        rw [follow_segments [] target, hdown, List.foldl_append, foldl_follow_entries [] hcommon,
          List.nil_append]

/-- On POSIX what is shown is read from the directory, and leads back to the path. -/
theorem samePlace_shownFrom_posix (hcwd : isAbsolute .posix cwd)
    (hnormal : normalizeOn .posix cwd = cwd) (hp : isAbsolute .posix p) :
    SamePlace .posix (readIn .posix cwd (shownFrom .posix cwd p)) p := by
  rcases hway : dropCommon (segments cwd) (segments p) with ⟨up, down⟩
  have hroot : Platform.posix = .windows →
      rootName (trimStart '/' cwd) = rootName (trimStart '/' p) := nofun
  have hrelative : ¬isAbsolute .posix (shownFrom .posix cwd p) := by
    rw [isAbsolute_posix_iff, shownFrom_eq hway hroot]
    split
    · simp
    · rename_i hne
      exact (intercalate_ends hne fun _ => waySegments_ok hway).2.1
  have habsolute : isAbsolute .posix (cwd ++ '/' :: shownFrom .posix cwd p) := by
    rw [isAbsolute_posix_iff] at hcwd ⊢
    rw [List.head?_append, hcwd, Option.some_or]
  rw [readIn, if_neg hrelative, samePlace_posix_iff habsolute hp]
  exact follow_way (fun _ => isEntry_of_mem_segments hcwd hnormal) hway
    (follow_shownFrom hway hroot)

section Windows

variable (hcwd : isAbsolute .windows cwd) (hnormal : normalizeOn .windows cwd = cwd)
  (hp : isAbsolute .windows p)
  (hroot : rootName (trimStart '/' cwd) = rootName (trimStart '/' p))

include hcwd hnormal hp hroot

/-- Both paths have their drives as first segments. -/
theorem segments_eq_of_rootName :
    segments cwd = segments (drive cwd) ++ segments (afterDrive cwd) ∧
      segments p = segments (drive p) ++ segments (afterDrive p) := by
  have hbackslash : '\\' ∉ cwd := (normalizeOn_eq_self_iff.mp hnormal).1
  exact ⟨segments_eq (head?_afterDrive hcwd hbackslash),
    segments_eq (head?_afterDrive_of_rootName hbackslash hp hroot)⟩

/-- The way to a drive that is spelled differently climbs to the root and goes down into the drive
as if it were a directory. -/
theorem follow_shownFrom_of_drive_ne (hdrive : drive cwd ≠ []) (hdrive' : drive p ≠ [])
    (hne : drive cwd ≠ drive p) :
    follow .windows (segments (afterDrive cwd)) (shownFrom .windows cwd p) =
      follow .windows [drive p] (afterDrive p) := by
  obtain ⟨hstart, htarget⟩ := segments_eq_of_rootName hcwd hnormal hp hroot
  rw [segments_drive, if_neg hdrive, List.singleton_append] at hstart
  rw [segments_drive, if_neg hdrive', List.singleton_append] at htarget
  have hway : dropCommon (segments cwd) (segments p) = (segments cwd, segments p) := by
    rw [hstart, htarget, dropCommon, if_neg hne]
  have hall : (segments (afterDrive cwd)).length - (segments cwd).length = 0 := by
    rw [hstart, List.length_cons]
    omega
  rw [follow_shownFrom hway fun _ => hroot, hall, List.take_zero, ← follow_segments,
    follow_drive hp, segments_drive, if_neg hdrive', List.nil_append]

/-- What is read from the directory leads back on the same drive. If the drives differ in letter
case, the path has to climb out of the segment that its drive has become. -/
theorem samePlace_of_relative
    (hshown : ¬isAbsolute .windows (shownFrom .windows cwd p)) :
    SamePlace .windows (readIn .windows cwd (shownFrom .windows cwd p)) p ↔
      lowercase (drive cwd) = lowercase (drive p) ∧
        (drive cwd = drive p ∨ climb (pieces .windows (afterDrive p)) ≠ 0) := by
  obtain ⟨hstart, htarget⟩ := segments_eq_of_rootName hcwd hnormal hp hroot
  have hentries : ∀ s ∈ segments (afterDrive cwd), IsEntry .windows s := fun s hs =>
    isEntry_of_mem_segments hcwd hnormal (hstart ▸ List.mem_append_right _ hs)
  obtain ⟨hdrive, hafter⟩ := drive_append hcwd ('/' :: shownFrom .windows cwd p)
  rw [readIn, if_neg hshown, samePlace_windows_iff (isAbsolute_append hcwd _) hp, hdrive, hafter]
  refine and_congr_right fun hcase => ?_
  by_cases hsame : drive cwd = drive p
  · rcases hway : dropCommon (segments cwd) (segments p) with ⟨up, down⟩
    have hbehind :
        dropCommon (segments (afterDrive cwd)) (segments (afterDrive p)) = (up, down) := by
      rwa [hstart, htarget, hsame, dropCommon_append] at hway
    exact iff_of_true (follow_way hentries hbehind (follow_shownFrom hway fun _ => hroot))
      (.inl hsame)
  · have hnone : drive cwd = [] ↔ drive p = [] := eq_nil_iff_of_lowercase_eq hcase
    have hdrive : drive cwd ≠ [] := fun h => hsame (h.trans (hnone.mp h).symm)
    have hdrive' : drive p ≠ [] := fun h => hdrive (hnone.mpr h)
    rw [follow_append, follow_segments [] (afterDrive cwd), foldl_follow_entries [] hentries,
      List.nil_append,
      follow_shownFrom_of_drive_ne hcwd hnormal hp hroot hdrive hdrive' hsame, follow_eq, follow_eq]
    cases climb (pieces .windows (afterDrive p)) <;> simp [hsame]

/-- What the directory shares with a path is its drive and a beginning of what stands behind it. -/
theorem exists_of_segments_append (h : segments p = segments cwd ++ down) :
    ∃ common, segments cwd = segments (drive p) ++ common ∧
      segments (afterDrive p) = common ++ down := by
  obtain ⟨-, htarget⟩ := segments_eq_of_rootName hcwd hnormal hp hroot
  rw [h] at htarget
  by_cases hdrive : drive p = []
  · rw [segments_drive, if_pos hdrive] at htarget ⊢
    exact ⟨segments cwd, rfl, htarget.symm⟩
  · rw [segments_drive, if_neg hdrive] at htarget ⊢
    cases hcommon : segments cwd with
    | nil =>
      -- The root has no first name, and the path has one.
      rw [rootName_trimStart, rootName_trimStart, h, htarget, hcommon] at hroot
      exact absurd ((eq_nil_iff_of_lowercase_eq hroot).mp rfl) hdrive
    | cons first common =>
      rw [hcommon, List.cons_append, List.singleton_append, List.cons.injEq] at htarget
      exact ⟨common, by rw [htarget.1, List.singleton_append], htarget.2.symm⟩

/-- What is read as absolute leads back when it is on the drive of the path and climbs out of all
that the path has in front of it. -/
theorem samePlace_of_absolute
    (hshown : isAbsolute .windows (shownFrom .windows cwd p)) :
    SamePlace .windows (readIn .windows cwd (shownFrom .windows cwd p)) p ↔
      lowercase (drive (shownFrom .windows cwd p)) = lowercase (drive p) ∧
        (segments cwd).length ≤
          climb (pieces .windows (afterDrive (shownFrom .windows cwd p))) := by
  rcases hway : dropCommon (segments cwd) (segments p) with ⟨up, down⟩
  obtain rfl : up = [] := up_eq_nil_of_isAbsolute hway hroot hshown
  have hshared : segments p = segments cwd ++ down := by
    obtain ⟨common, hstart, htarget⟩ := exists_of_dropCommon hway
    rw [htarget, hstart, List.append_nil]
  obtain ⟨common, hstart, hbehind⟩ := exists_of_segments_append hcwd hnormal hp hroot hshared
  have hcommon : ∀ s ∈ common, IsEntry .windows s := fun s hs =>
    isEntry_of_mem_segments hcwd hnormal (hstart ▸ List.mem_append_right _ hs)
  rw [readIn, if_pos hshown, samePlace_windows_iff hshown hp]
  refine and_congr_right fun hcase => ?_
  have hlength : (common ++ segments (drive (shownFrom .windows cwd p))).length =
      (segments cwd).length := by
    have hnone := eq_nil_iff_of_lowercase_eq hcase
    rw [hstart, segments_drive, segments_drive]
    by_cases hdrive : drive p = [] <;> simp [hnone, hdrive]
  have htarget : follow .windows [] (afterDrive p) =
      follow .windows (common ++ segments (drive (shownFrom .windows cwd p)))
        (afterDrive (shownFrom .windows cwd p)) := by
    rw [follow_segments [], hbehind, List.foldl_append, foldl_follow_entries [] hcommon,
      List.nil_append, ← follow_drive hshown, follow_shownFrom hway fun _ => hroot]
    simp
  rw [htarget, follow_eq, follow_eq, hlength, List.take_nil, List.nil_append,
    List.self_eq_append_left, List.take_eq_nil_iff, ← List.length_eq_zero_iff, hlength]
  omega

end Windows

end Back

/-- **When what is shown leads back.** A path is always shown to a user who works in an absolute
directory. On POSIX it leads back to the path, and so it does on Windows when the whole path is
shown since its root has another name. In all other cases `LeadsBack` decides. -/
theorem displayRelative_leads_back_iff {platform : Platform} {cwd p : Text}
    (hcwd : isAbsolute platform cwd) (hnormal : normalizeOn platform cwd = cwd)
    (hp : isAbsolute platform p) :
    ∃ shown, displayRelative platform cwd p = .ok shown ∧
      (SamePlace platform (readIn platform cwd shown) p ↔
        platform = .posix ∨ rootName (trimStart '/' cwd) ≠ rootName (trimStart '/' p) ∨
          LeadsBack cwd p shown) := by
  refine ⟨shownFrom platform cwd p, displayRelative_of_isAbsolute hcwd p, ?_⟩
  cases platform with
  | posix => exact iff_of_true (samePlace_shownFrom_posix hcwd hnormal hp) (.inl rfl)
  | windows =>
    rw [LeadsBack, or_iff_right nofun]
    by_cases hroot : rootName (trimStart '/' cwd) = rootName (trimStart '/' p)
    · rw [or_iff_right (not_not_intro hroot)]
      by_cases hshown : isAbsolute .windows (shownFrom .windows cwd p)
      · rw [if_pos hshown]
        exact samePlace_of_absolute hcwd hnormal hp hroot hshown
      · rw [if_neg hshown]
        exact samePlace_of_relative hcwd hnormal hp hroot hshown
    · have hwhole : shownFrom .windows cwd p = p := if_pos ⟨rfl, hroot⟩
      rw [hwhole, readIn, if_pos hp, samePlace_windows_iff hp hp]
      exact iff_of_true ⟨rfl, rfl⟩ (.inl hroot)

/-- A path that is not in normal form, seen from another directory of its drive. -/
theorem displayRelative_leads_back_iff_climbing :
    isAbsolute .windows "C:/a/b".toList ∧ normalizeOn .windows "C:/a/b".toList = "C:/a/b".toList ∧
      isAbsolute .windows "C:/a\\c/../d//e/".toList ∧
      displayRelative .windows "C:/a/b".toList "C:/a\\c/../d//e/".toList =
        .ok "../../a\\c/../d/e".toList ∧
      SamePlace .windows (readIn .windows "C:/a/b".toList "../../a\\c/../d/e".toList)
        "C:/a\\c/../d//e/".toList := by
  have hcwd : isAbsolute .windows "C:/a/b".toList := by decide +kernel
  have hnormal : normalizeOn .windows "C:/a/b".toList = "C:/a/b".toList := by decide +kernel
  have hp : isAbsolute .windows "C:/a\\c/../d//e/".toList := by decide +kernel
  have hvalue : displayRelative .windows "C:/a/b".toList "C:/a\\c/../d//e/".toList =
      .ok "../../a\\c/../d/e".toList := rfl
  obtain ⟨shown, hshown, hiff⟩ := displayRelative_leads_back_iff hcwd hnormal hp
  obtain rfl : "../../a\\c/../d/e".toList = shown := Except.ok.inj (hvalue.symm.trans hshown)
  exact ⟨hcwd, hnormal, hp, hvalue, hiff.mpr (.inr (.inr (by decide +kernel)))⟩

/-- The path is shown by a text that leads elsewhere. -/
def Misleads (cwd p shown : Text) : Prop :=
  isAbsolute .windows cwd ∧ normalizeOn .windows cwd = cwd ∧ isAbsolute .windows p ∧
    displayRelative .windows cwd p = .ok shown ∧
    ¬SamePlace .windows (readIn .windows cwd shown) p

/-- **What is shown can mislead on Windows.** A drive in the other letter case is shown behind
climbs, which stop at the root of the drive; a separator in front of the directory is not told from
a drive; and what is left of a path once the shared segments are gone may read as absolute. -/
theorem displayRelative_misleads :
    Misleads "C:/project".toList "c:/project/src/a".toList "../../c:/project/src/a".toList ∧
      Misleads "/C:/x".toList "C:/x/y".toList "y".toList ∧
      Misleads "C:/a".toList "C:/a/D:/x".toList "D:/x".toList ∧
      Misleads "C:/a".toList "C:/a/\\x".toList "\\x".toList := by
  refine ⟨?_, ?_, ?_, ?_⟩ <;>
    exact ⟨by decide +kernel, by decide +kernel, by decide +kernel, rfl, by decide +kernel⟩

end Path

end ImportAlias
