import ImportAlias.Proofs.Path.Conventions
import ImportAlias.Proofs.Path.DriveRoot

/-!
# Drives that folding uncovers

On Windows the drive of a path is set aside before the rest is folded, and a path without a drive is
folded as a whole. That may bring a segment to the front that reads as a drive: `./C:/x` becomes
`C:/x`, which is another file, and `./C:./x` becomes `C:./x`, of which a second pass makes `C:x`.

The names that come to the front are `uncovered`. One pass is enough unless they begin with a drive
and a `.` that more names follow, and a relative path stays relative unless they begin with a bare
drive that a separator follows (`normalizeOn_windows_stable_iff`). A path that starts with its drive
or with a separator is not affected, and two passes are always enough.
-/

namespace ImportAlias

namespace Path

/-! ### The first segment of a written path -/

namespace Form

variable {f : Form} (hf : f.IsFolded) {first : Text} (hfirst : IsName first)

include hf hfirst

/-- What stands in front of a separator is the first segment of a relative path, and what stands
behind it is written of the others. -/
theorem exists_segments_of_render {rest : Text} (h : f.render = first ++ '/' :: rest) :
    f.absolute = false ∧ ∃ names, f.segments = first :: names ∧
      rest.splitOn '/' = names ++ if f.trailing then [[]] else [] := by
  have hrelative : f.absolute = false := by
    obtain ⟨c, tail, rfl⟩ := List.exists_cons_of_ne_nil hfirst.1
    rw [← Bool.not_eq_true, ← head?_render hf, h]
    exact hfirst.head?_ne
  have hsplit : f.render.splitOn '/' = first :: rest.splitOn '/' := by
    rw [h, List.splitOn_append_cons_self, hfirst.splitOn, List.singleton_append]
  have hne : f.segments ≠ [] := by
    intro hnil
    -- Without segments the path is written with a `.` in front.
    rw [render, if_pos hnil, hrelative] at hsplit
    cases htrailing : f.trailing <;> rw [htrailing] at hsplit <;>
      exact hfirst.2.1 (List.cons.inj hsplit).1.symm
  obtain ⟨s, names, hs⟩ := List.exists_cons_of_ne_nil hne
  rw [splitOn_render hf hne, hs, hrelative] at hsplit
  obtain ⟨rfl, hrest⟩ := List.cons.inj hsplit
  exact ⟨hrelative, names, hs, hrest.symm⟩

/-- Something follows the separator behind the first segment when there is a second one. -/
theorem exists_render_ne_nil_iff :
    (∃ rest, rest ≠ [] ∧ f.render = first ++ '/' :: rest) ↔
      ∃ name names, f.absolute = false ∧ f.segments = first :: name :: names := by
  constructor
  · rintro ⟨rest, hne, h⟩
    obtain ⟨hrelative, names, hsegments, hrest⟩ := exists_segments_of_render hf hfirst h
    cases names with
    | cons name names => exact ⟨name, names, hrelative, hsegments⟩
    | nil =>
      have hjoined : ['/'].intercalate (rest.splitOn '/') = rest := List.intercalate_splitOn ..
      rw [hrest] at hjoined
      cases htrailing : f.trailing <;> simp [htrailing] at hjoined <;> exact absurd hjoined hne
  · rintro ⟨name, names, hrelative, h⟩
    have hok : ∀ s ∈ name :: names, s ≠ [] ∧ '/' ∉ s := fun s hs =>
      hf.segment_ok (h ▸ List.mem_cons_of_mem first hs)
    obtain ⟨hbody, -⟩ := intercalate_ends (List.cons_ne_nil name names) hok
    refine ⟨['/'].intercalate (name :: names) ++ if f.trailing then ['/'] else [], ?_, ?_⟩
    · exact fun hnil => hbody (List.append_eq_nil_iff.mp hnil).1
    · simp [render, h, hrelative, List.intercalate_cons_cons]

/-- A separator stands behind the first segment when there is a second one or the path ends in
it. -/
theorem exists_render_iff :
    (∃ rest, f.render = first ++ '/' :: rest) ↔
      ∃ names, (f.absolute = false ∧ f.segments = first :: names) ∧ (names ≠ [] ∨ f.trailing) := by
  constructor
  · rintro ⟨rest, h⟩
    obtain ⟨hrelative, names, hsegments, hrest⟩ := exists_segments_of_render hf hfirst h
    refine ⟨names, ⟨hrelative, hsegments⟩, Decidable.or_iff_not_imp_left.mpr fun hnil => ?_⟩
    rw [Decidable.not_not.mp hnil, List.nil_append] at hrest
    cases htrailing : f.trailing with
    | true => rfl
    | false => simp [htrailing] at hrest
  · rintro ⟨names, ⟨hrelative, h⟩, hends⟩
    cases names with
    | nil =>
      have htrailing : f.trailing := hends.resolve_left (fun hne => hne rfl)
      exact ⟨[], by simp [render, h, hrelative, htrailing]⟩
    | cons name names =>
      obtain ⟨rest, -, hrest⟩ :=
        (exists_render_ne_nil_iff hf hfirst).mpr ⟨_, _, hrelative, h⟩
      exact ⟨rest, hrest⟩

omit hfirst

/-- A drive in front of a written path is the beginning of its first segment. -/
theorem exists_drive_render_iff {letter : Char} (hletter : letter.isAlpha) :
    (∃ rest, f.render = letter :: ':' :: rest) ↔
      ∃ rest names, f.absolute = false ∧ f.segments = (letter :: ':' :: rest) :: names := by
  have hslash : letter ≠ '/' := drive_ne_slash hletter
  constructor
  · rintro ⟨rest, h⟩
    have hrelative : f.absolute = false := by
      rw [← Bool.not_eq_true, ← head?_render hf, h]
      simpa using hslash
    have hne : f.segments ≠ [] := by
      rintro hnil
      cases htrailing : f.trailing <;> simp [render, hnil, hrelative, htrailing] at h
    obtain ⟨s, names, hs⟩ := List.exists_cons_of_ne_nil hne
    obtain ⟨first, pieces, hpieces⟩ := List.exists_cons_of_ne_nil (List.splitOn_ne_nil '/' rest)
    have hsplit : f.render.splitOn '/' = (letter :: ':' :: first) :: pieces := by
      simp [h, List.splitOn_cons_eq_if_modifyHead, hslash, hpieces]
    rw [splitOn_render hf hne, hs, hrelative] at hsplit
    exact ⟨first, names, hrelative, (List.cons.inj hsplit).1 ▸ hs⟩
  · rintro ⟨rest, names, hrelative, h⟩
    cases names with
    | nil => exact ⟨_, by simp [render, h, hrelative]; rfl⟩
    | cons name names => exact ⟨_, by simp [render, h, hrelative, List.intercalate_cons_cons]; rfl⟩

end Form

/-! ### Drives in front -/

variable {p : Text}

theorem drive_ne_nil_iff :
    drive p ≠ [] ↔ ∃ letter : Char, letter.isAlpha ∧ ∃ rest, p = letter :: ':' :: rest := by
  constructor
  · intro h
    obtain ⟨letter, rest, hletter, heq⟩ := exists_of_drive_ne_nil h
    exact ⟨letter, hletter, rest, heq⟩
  · rintro ⟨letter, hletter, rest, rfl⟩
    simp [drive_cons hletter]

theorem dotBehindDrive_iff :
    DotBehindDrive p ↔ ∃ letter : Char, letter.isAlpha ∧
      ∃ rest, rest ≠ [] ∧ p = [letter, ':', '.'] ++ '/' :: rest := by
  constructor
  · rintro ⟨hdrive, rest, hrest, hafter⟩
    obtain ⟨letter, behind, hletter, rfl⟩ := exists_of_drive_ne_nil hdrive
    rw [afterDrive_cons hletter] at hafter
    exact ⟨letter, hletter, rest, hrest, by rw [hafter]; rfl⟩
  · rintro ⟨letter, hletter, rest, hrest, rfl⟩
    refine ⟨?_, rest, hrest, ?_⟩
    · simp [drive_cons hletter]
    · exact afterDrive_cons hletter _

/-- Without backslashes there is one separator to start with. -/
theorem startsWithSlash_iff (h : '\\' ∉ p) : p.head?.any isSlash ↔ p.head? = some '/' := by
  cases p with
  | nil => simp
  | cons c p =>
    have hc : c ≠ '\\' := fun hc => h (hc ▸ List.mem_cons_self)
    simp [isSlash, hc]

/-- A path without backslashes is absolute when it starts with a separator, or with a drive and a
separator. -/
theorem isAbsolute_windows_iff (h : '\\' ∉ p) :
    isAbsolute .windows p ↔
      p.head? = some '/' ∨
        ∃ letter : Char, letter.isAlpha ∧ ∃ rest, p = [letter, ':'] ++ '/' :: rest := by
  rw [isAbsolute, Bool.or_eq_true, Bool.and_eq_true, startsWithSlash_iff h, bne_iff_ne]
  refine or_congr_right ⟨?_, ?_⟩
  · rintro ⟨hdrive, hafter⟩
    obtain ⟨letter, behind, hletter, rfl⟩ := exists_of_drive_ne_nil hdrive
    rw [afterDrive_cons hletter, startsWithSlash_iff fun hmem => h (by simp [hmem])] at hafter
    obtain ⟨rest, rfl⟩ := List.head?_eq_some_iff.mp hafter
    exact ⟨letter, hletter, rest, rfl⟩
  · rintro ⟨letter, hletter, rest, rfl⟩
    simp [drive_cons hletter, afterDrive_cons hletter, isSlash]

/-! ### What folding brings to the front -/

/-- The names that a relative path without a drive comes to when it does not climb. -/
def uncovered (p : Text) : List Text :=
  if drive p = [] ∧ ¬isAbsolute .windows p ∧ climb (pieces .windows p) = 0 then
    kept [] (pieces .windows p)
  else []

theorem uncovered_of_drive (h : drive p ≠ []) : uncovered p = [] := if_neg fun hp => h hp.1

section WithoutDrive

variable (hdrive : drive p = [])

include hdrive

theorem absolute_ofText_slash : (Form.ofText (slash p)).absolute = isAbsolute .windows p := by
  have hhead := startsWithSlash_iff (not_mem_slash p)
  rw [startsWithSlash_slash] at hhead
  rw [Bool.eq_iff_iff, isAbsolute, hdrive]
  simpa [Form.ofText] using hhead.symm

/-- The form that a path without a drive is written from has the uncovered names as segments. -/
theorem uncovered_eq_cons_iff {first : Text} (hfirst : first ≠ ['.', '.']) {names : List Text} :
    uncovered p = first :: names ↔
      (Form.ofText (slash p)).absolute = false ∧
        (Form.ofText (slash p)).segments = first :: names := by
  have hsegments : (Form.ofText (slash p)).segments =
      List.replicate (if isAbsolute .windows p then 0 else climb (pieces .windows p)) ['.', '.'] ++
        kept [] (pieces .windows p) := by
    rw [← absolute_ofText_slash hdrive, ← fold_eq]
    rfl
  rw [absolute_ofText_slash hdrive, hsegments, uncovered]
  cases isAbsolute .windows p with
  | true => simp
  | false =>
    cases climb (pieces .windows p) with
    | zero => simp [hdrive]
    | succ climbs => simp [List.replicate_succ, Ne.symm hfirst]

/-- One pass gives a normal form unless a drive and a `.` come to the front. -/
theorem isNormal_normalizeOn_iff :
    IsNormal .windows (normalizeOn .windows p) ↔
      ¬∃ (letter : Char) (name : Text) (names : List Text),
        letter.isAlpha ∧ uncovered p = [letter, ':', '.'] :: name :: names := by
  have hfolded : (Form.ofText (slash p)).IsFolded := Form.isFolded_ofText _
  have hname {letter : Char} (hletter : letter.isAlpha) : IsName [letter, ':', '.'] :=
    ⟨by simp, by simp, by simp, by simp [(drive_ne_slash hletter).symm]⟩
  rw [normalizeOn_of_drive_eq_nil ((drive_slash p).trans hdrive),
    isNormal_windows_iff (isWritten_normalize _), dotBehindDrive_iff,
    and_iff_right (not_mem_normalize (not_mem_slash p)), normalize]
  refine not_congr (exists_congr fun letter => ?_)
  simp only [exists_and_left]
  refine and_congr_right fun hletter => ?_
  rw [Form.exists_render_ne_nil_iff hfolded (hname hletter)]
  simp only [uncovered_eq_cons_iff hdrive (hname hletter).2.2.1]

/-- One pass keeps a path relative unless a bare drive comes to the front. -/
theorem isAbsolute_normalizeOn_windows_iff :
    isAbsolute .windows (normalizeOn .windows p) = isAbsolute .windows p ↔
      ¬∃ (letter : Char) (names : List Text), letter.isAlpha ∧
        uncovered p = [letter, ':'] :: names ∧ (names ≠ [] ∨ p.getLast?.any isSlash) := by
  have hfolded : (Form.ofText (slash p)).IsFolded := Form.isFolded_ofText _
  have htrailing : (Form.ofText (slash p)).trailing ↔ p.getLast?.any isSlash := by
    rw [← getLast?_slash]
    simp [Form.ofText]
  have hnormal : isAbsolute .windows (normalizeOn .windows p) ↔ isAbsolute .windows p ∨
      ∃ (letter : Char) (names : List Text), letter.isAlpha ∧
        uncovered p = [letter, ':'] :: names ∧ (names ≠ [] ∨ p.getLast?.any isSlash) := by
    rw [normalizeOn_of_drive_eq_nil ((drive_slash p).trans hdrive),
      isAbsolute_windows_iff (not_mem_normalize (not_mem_slash p)), normalize,
      Form.head?_render hfolded, absolute_ofText_slash hdrive]
    refine or_congr_right (exists_congr fun letter => ?_)
    rw [exists_and_left]
    refine and_congr_right fun hletter => ?_
    have hname := isName_drive hletter
    simp only [Form.exists_render_iff hfolded hname, uncovered_eq_cons_iff hdrive hname.2.2.1,
      htrailing]
  cases habsolute : isAbsolute .windows p with
  | true =>
    refine iff_of_true (hnormal.mpr (.inl habsolute)) ?_
    rintro ⟨letter, names, -, huncovered, -⟩
    simp [uncovered, habsolute] at huncovered
  | false =>
    rw [← Bool.not_eq_true, hnormal, habsolute]
    simp

/-- One pass brings no drive to the front unless a segment that begins with one comes there. -/
theorem drive_normalizeOn_iff :
    drive (normalizeOn .windows p) = drive p ↔
      ¬∃ (letter : Char) (rest : Text) (names : List Text),
        letter.isAlpha ∧ uncovered p = (letter :: ':' :: rest) :: names := by
  have hfolded : (Form.ofText (slash p)).IsFolded := Form.isFolded_ofText _
  rw [hdrive, ← Decidable.not_not (p := drive _ = []), ← ne_eq, drive_ne_nil_iff,
    normalizeOn_of_drive_eq_nil ((drive_slash p).trans hdrive), normalize]
  refine not_congr (exists_congr fun letter => ?_)
  simp only [exists_and_left]
  refine and_congr_right fun hletter => ?_
  rw [Form.exists_drive_render_iff hfolded hletter]
  refine exists_congr fun rest => exists_congr fun names => ?_
  rw [uncovered_eq_cons_iff hdrive (by simp)]

end WithoutDrive

/-! ### What a pass changes -/

section WithDrive

variable (hdrive : drive p ≠ [])

include hdrive

/-- A drive in front stays where it is. -/
theorem drive_normalizeOn_of_drive : drive (normalizeOn .windows p) = drive p := by
  obtain ⟨letter, rest, hletter, rfl⟩ := exists_of_drive_ne_nil hdrive
  rw [normalizeOn_cons hletter, drive_cons hletter, drive_cons hletter]

/-- A separator behind the drive stays where it is. -/
theorem isAbsolute_normalizeOn_of_drive :
    isAbsolute .windows (normalizeOn .windows p) = isAbsolute .windows p := by
  obtain ⟨letter, rest, hletter, rfl⟩ := exists_of_drive_ne_nil hdrive
  have hbehind : (normalize (slash rest)).head?.any isSlash = rest.head?.any isSlash := by
    rw [Bool.eq_iff_iff, startsWithSlash_iff (not_mem_normalize (not_mem_slash rest)),
      head?_normalize, ← startsWithSlash_iff (not_mem_slash rest), startsWithSlash_slash]
  rw [normalizeOn_cons hletter]
  by_cases hrest : rest = []
  · simp [hrest]
  · simp [isAbsolute, if_neg hrest, drive_cons hletter, afterDrive_cons hletter, hbehind]

end WithDrive

/-- A second pass leaves nothing to be done, whatever the first one brought to the front. -/
theorem isNormal_normalizeOn_normalizeOn (p : Text) :
    IsNormal .windows (normalizeOn .windows (normalizeOn .windows p)) := by
  refine isNormal_normalizeOn fun hdrive => ?_
  by_cases hp : drive p = []
  · rw [normalizeOn_of_drive_eq_nil ((drive_slash p).trans hp)] at hdrive ⊢
    rwa [slash_eq_self (not_mem_normalize (not_mem_slash p)), normalize_normalize]
  · rw [drive_normalizeOn_of_drive hp] at hdrive
    exact absurd hdrive hp

/-- **When a pass on Windows settles a path.** The names that come to the front of a relative path
without a drive decide. One pass is enough unless they begin with a drive and a `.` in one segment
and another segment follows, and two are always enough. The path stays relative unless they begin
with a bare drive and a separator follows, and it gains a drive when they begin with a letter and a
colon. Neither is lost. -/
theorem normalizeOn_windows_stable_iff (p : Text) :
    (normalizeOn .windows (normalizeOn .windows p) = normalizeOn .windows p ↔
        ¬∃ (letter : Char) (name : Text) (names : List Text),
          letter.isAlpha ∧ uncovered p = [letter, ':', '.'] :: name :: names) ∧
      (isAbsolute .windows (normalizeOn .windows p) = isAbsolute .windows p ↔
        ¬∃ (letter : Char) (names : List Text), letter.isAlpha ∧
          uncovered p = [letter, ':'] :: names ∧ (names ≠ [] ∨ p.getLast?.any isSlash)) ∧
      (drive (normalizeOn .windows p) = drive p ↔
        ¬∃ (letter : Char) (rest : Text) (names : List Text),
          letter.isAlpha ∧ uncovered p = (letter :: ':' :: rest) :: names) ∧
      normalizeOn .windows (normalizeOn .windows (normalizeOn .windows p)) =
        normalizeOn .windows (normalizeOn .windows p) := by
  have htwice := normalizeOn_eq_self_iff.mpr (isNormal_normalizeOn_normalizeOn p)
  rw [normalizeOn_eq_self_iff]
  by_cases hdrive : drive p = []
  · exact ⟨isNormal_normalizeOn_iff hdrive, isAbsolute_normalizeOn_windows_iff hdrive,
      drive_normalizeOn_iff hdrive, htwice⟩
  · have hnormal : IsNormal .windows (normalizeOn .windows p) :=
      isNormal_normalizeOn fun hp => absurd hp hdrive
    simp [uncovered_of_drive hdrive, hnormal, isAbsolute_normalizeOn_of_drive hdrive,
      drive_normalizeOn_of_drive hdrive, htwice]

/-- **Folding can uncover a drive**, behind a `.` or a directory that the path leaves again. The
path then names a file of another drive, or one of the drive's current directory, and only a second
pass folds what follows the drive. -/
theorem normalizeOn_windows_uncovers_drive :
    (normalizeOn .windows "./C:/x".toList = "C:/x".toList ∧
        ¬isAbsolute .windows "./C:/x".toList ∧ isAbsolute .windows "C:/x".toList) ∧
      normalizeOn .windows "a/..\\C:/x".toList = "C:/x".toList ∧
      (normalizeOn .windows "./C:./x".toList = "C:./x".toList ∧
        normalizeOn .windows "C:./x".toList = "C:x".toList) := by
  decide +kernel

end Path

end ImportAlias
