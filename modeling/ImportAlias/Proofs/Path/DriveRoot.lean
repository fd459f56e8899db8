import ImportAlias.Proofs.Path.Climb
import ImportAlias.Proofs.Path.DriveForm

/-!
# Anchoring to a directory on a drive

On Windows a relative path is joined to its base before its drive is looked at. Joining knows no
drives: to it `C:` is the first name of a relative path, which a `..` may take away like any other.
Normalizing the base and the path as one text sets the drive aside first and folds what is left
below the root.

The two agree as long as the drive outlives the join, with something behind it. Behind the drive
both keep the same names; where these names climb, the join loses the drive to the first climb, and
where nothing is left of them it writes the drive without the separator of its root. The main
statement says that these are the only two ways to part (`anchor_windows_eq_iff`), and each does
occur (`anchor_windows_drops_drive`).
-/

namespace ImportAlias

namespace Path

/-! ### A path behind a drive, folded with its drive and without -/

theorem splitOn_slash (p : Text) : ('/' :: p).splitOn '/' = [] :: p.splitOn '/' := by
  rw [List.splitOn_cons_eq_if_modifyHead]
  rfl

/-- The form of what stands behind the drive. -/
theorem ofText_root (p : Text) :
    Form.ofText ('/' :: p) =
      { absolute := true
        segments := kept [] (p.splitOn '/')
        trailing := ('/' :: p).getLast? == some '/' } := by
  simp [Form.ofText, splitOn_slash, fold_eq, kept_blank, isBlank_nil]

section Drive

variable {letter : Char} (hletter : letter.isAlpha)

include hletter

theorem drive_ne_slash : letter ≠ '/' := ne_of_isAlpha hletter (by decide)

theorem isName_drive : IsName [letter, ':'] := by
  have hslash := drive_ne_slash hletter
  exact ⟨by simp, by simp, by simp, by simp [Ne.symm hslash]⟩

theorem splitOn_drive (p : Text) :
    (letter :: ':' :: '/' :: p).splitOn '/' = [letter, ':'] :: p.splitOn '/' := by
  have happend := List.splitOn_append_cons_self [letter, ':'] p (a := '/')
  rwa [(isName_drive hletter).splitOn] at happend

/-- The form of a path on a drive as a path that knows no drives. -/
theorem ofText_drive (p : Text) :
    Form.ofText (letter :: ':' :: '/' :: p) =
      { absolute := false
        segments := List.replicate (climb (p.splitOn '/') - 1) ['.', '.'] ++
          kept [] ([letter, ':'] :: p.splitOn '/')
        trailing := ('/' :: p).getLast? == some '/' } := by
  have hslash := drive_ne_slash hletter
  have hname := isName_drive hletter
  have hclimb : climb ([letter, ':'] :: p.splitOn '/') = climb (p.splitOn '/') - 1 :=
    climb_name _ hname.not_isBlank hname.2.2.1
  simp [Form.ofText, splitOn_drive hletter, fold_eq, hclimb, hslash]

/-- While the path does not climb the drive is the first of the names, and the separator behind it
is written if something comes behind that. -/
theorem normalize_drive {p : Text} (hclimb : climb (p.splitOn '/') = 0)
    (hrest : kept [] (p.splitOn '/') ≠ [] ∨ ('/' :: p).getLast? = some '/') :
    normalize (letter :: ':' :: '/' :: p) = letter :: ':' :: normalize ('/' :: p) := by
  have hname := isName_drive hletter
  have hkept : kept [] ([letter, ':'] :: p.splitOn '/') =
      [letter, ':'] :: kept [] (p.splitOn '/') :=
    kept_name _ _ hname.not_isBlank hname.2.2.1 (by rwa [List.append_nil])
  rw [normalize, normalize, ofText_drive hletter, ofText_root, hclimb, hkept]
  cases hnames : kept [] (p.splitOn '/') with
  | nil =>
    have hlast : ('/' :: p).getLast? = some '/' := hrest.resolve_left (fun hne => hne hnames)
    simp [Form.render, hlast]
  | cons s names => simp [Form.render, List.intercalate_cons_cons]

/-- A path that comes to nothing behind its drive keeps no separator there. -/
theorem normalize_drive_nil {p : Text} (hclimb : climb (p.splitOn '/') = 0)
    (hnames : kept [] (p.splitOn '/') = []) (hlast : ('/' :: p).getLast? ≠ some '/') :
    normalize (letter :: ':' :: '/' :: p) = [letter, ':'] := by
  have hname := isName_drive hletter
  have hkept : kept [] ([letter, ':'] :: p.splitOn '/') = [[letter, ':']] := by
    rw [kept_name _ _ hname.not_isBlank hname.2.2.1 (by rwa [List.append_nil]), hnames]
  rw [normalize, ofText_drive hletter, hclimb, hkept]
  simp [Form.render, hlast]

/-- A written path that is normalized to one behind a drive has that drive itself. -/
theorem exists_of_normalizeOn {p q : Text} (hp : IsWritten p) (hbackslash : '\\' ∉ p)
    (h : normalizeOn .windows p = letter :: ':' :: q) (hq : q.head? = some '/') :
    ∃ rest, p = letter :: ':' :: '/' :: rest ∧ q = normalize ('/' :: rest) := by
  by_cases hdrive : drive p = []
  · have hself : normalizeOn .windows p = p :=
      normalizeOn_eq_self_iff.mpr ((isNormal_of_drive_eq_nil hdrive).mpr ⟨hbackslash, hp⟩)
    rw [← hself, h, drive_cons hletter] at hdrive
    cases hdrive
  · obtain ⟨other, rest, hother, rfl⟩ := exists_of_drive_ne_nil hdrive
    have hslash : slash rest = rest :=
      slash_eq_self fun hmem => hbackslash (List.mem_cons_of_mem _ (List.mem_cons_of_mem _ hmem))
    rw [normalizeOn_cons hother, hslash, List.cons.injEq, List.cons.injEq] at h
    obtain ⟨rfl, -, rfl⟩ := h
    by_cases hrest : rest = []
    · simp [hrest] at hq
    · rw [if_neg hrest, head?_normalize] at hq
      obtain ⟨rest, rfl⟩ := List.head?_eq_some_iff.mp hq
      exact ⟨rest, rfl, if_neg hrest⟩

/-- A written path that begins with a drive does not climb behind it. -/
theorem climb_of_isWritten {p : Text} (h : IsWritten (letter :: ':' :: '/' :: p)) :
    climb (p.splitOn '/') = 0 := by
  obtain ⟨f, hf, hrender⟩ := h
  have habsolute : f.absolute = false := by
    have hhead := Form.head?_render hf
    rw [hrender] at hhead
    simpa [drive_ne_slash hletter] using hhead
  have hne : f.segments ≠ [] := by
    intro hnil
    cases htrailing : f.trailing <;> simp [Form.render, hnil, habsolute, htrailing] at hrender
  have hpieces := Form.splitOn_render hf hne
  obtain ⟨climbs, names, hsegments, hnames, -⟩ := hf
  rw [hrender, splitOn_drive hletter, habsolute, hsegments] at hpieces
  cases climbs with
  | succ climbs =>
    rw [List.replicate_succ] at hpieces
    exact absurd (List.cons.inj hpieces).1 (isName_drive hletter).2.2.1
  | zero =>
    -- All that is written is names, and a blank piece at the end.
    refine climb_eq_zero fun hup => ?_
    have hmem : ['.', '.'] ∈ names ++ if f.trailing then [[]] else [] := by
      have hcons := List.mem_cons_of_mem [letter, ':'] hup
      rw [hpieces] at hcons
      simpa using hcons
    rcases List.mem_append.mp hmem with hmem | hmem
    · exact (hnames _ hmem).2.2.1 rfl
    · split at hmem <;> simp at hmem

/-- **When the drive outlives a join**: what comes behind it does not climb, and is not nothing. -/
theorem normalizeOn_normalize_drive_iff {p : Text} (hbackslash : '\\' ∉ p) :
    normalizeOn .windows (normalize (letter :: ':' :: '/' :: p)) =
        letter :: ':' :: normalize ('/' :: p) ↔
      climb (p.splitOn '/') = 0 ∧
        (kept [] (p.splitOn '/') ≠ [] ∨ ('/' :: p).getLast? = some '/') := by
  have hname := isName_drive hletter
  have hletter' : letter ≠ '\\' := ne_of_isAlpha hletter (by decide)
  constructor
  · intro h
    have hplain : '\\' ∉ normalize (letter :: ':' :: '/' :: p) :=
      not_mem_normalize (by simp [hbackslash, hletter'.symm])
    obtain ⟨rest, hjoined, hroot⟩ :=
      exists_of_normalizeOn hletter (isWritten_normalize _) hplain h ((head?_normalize _).mpr rfl)
    have hrest : climb (rest.splitOn '/') = 0 :=
      climb_of_isWritten hletter (hjoined ▸ isWritten_normalize _)
    have hnames : kept [] (p.splitOn '/') = kept [] (rest.splitOn '/') := by
      have hsegments := congrArg (fun q => (Form.ofText q).segments) hroot
      simpa only [segments_normalize, ofText_root] using hsegments
    have hdrive : List.replicate (climb (p.splitOn '/') - 1) ['.', '.'] ++
        kept [] ([letter, ':'] :: p.splitOn '/') = [letter, ':'] :: kept [] (p.splitOn '/') := by
      have hsegments := congrArg (fun q => (Form.ofText q).segments) hjoined
      simp only [segments_normalize, ofText_drive hletter, hrest] at hsegments
      rw [hsegments, hnames, kept_name _ _ hname.not_isBlank hname.2.2.1 (by simpa using hrest)]
      rfl
    have hclimb : climb (p.splitOn '/') = 0 := by
      refine Decidable.byContradiction fun hne => ?_
      -- The first climb would have taken the drive, and left fewer names.
      rw [kept_of_climb _ _ (by simpa using hne)] at hdrive
      cases hclimbs : climb (p.splitOn '/') - 1 with
      | zero =>
        rw [hclimbs] at hdrive
        exact List.cons_ne_self _ _ hdrive.symm
      | succ n =>
        rw [hclimbs, List.replicate_succ] at hdrive
        exact hname.2.2.1 (List.cons.inj hdrive).1.symm
    refine ⟨hclimb, Decidable.byContradiction fun hnone => ?_⟩
    obtain ⟨hnil, hlast⟩ := not_or.mp hnone
    rw [normalize_drive_nil hletter hclimb (Decidable.not_not.mp hnil) hlast] at hjoined
    cases hjoined
  · rintro ⟨hclimb, hrest⟩
    rw [normalize_drive hletter hclimb hrest, normalizeOn_eq_self_iff, isNormal_cons hletter]
    exact ⟨not_mem_normalize (by simp [hbackslash]), .inr (isWritten_normalize _)⟩

end Drive

/-! ### Anchoring -/

theorem slash_cons_of_isSlash {c : Char} (hc : isSlash c) (p : Text) :
    slash (c :: p) = '/' :: slash p := by
  have heither : c = '/' ∨ c = '\\' := by simpa [isSlash] using hc
  rcases heither with rfl | rfl <;> rfl

theorem getLast?_slash (p : Text) :
    (slash p).getLast? = some '/' ↔ p.getLast?.any isSlash := by
  rw [slash, List.getLast?_map]
  cases hlast : p.getLast? with
  | none => simp
  | some c => by_cases hc : c = '\\' <;> simp [isSlash, hc]

/-- **Anchoring to a directory on a drive** gives the normal form of the two taken as one path
exactly when what comes behind the drive does not climb above its root, and either leaves a name or
ends in a separator. What is anchored is then absolute and on the drive of the directory. -/
theorem anchor_windows_eq_iff {letter sep : Char} (hletter : letter.isAlpha) (hsep : isSlash sep)
    (rest : Text) {p : Text} (hp : p ≠ []) (habsolute : ¬isAbsolute .windows p) :
    let base := letter :: ':' :: sep :: rest
    let behind := pieces .windows (rest ++ '/' :: p)
    (anchor .windows base p = normalizeOn .windows (base ++ '/' :: p) ↔
        climb behind = 0 ∧ (kept [] behind ≠ [] ∨ p.getLast?.any isSlash)) ∧
      (climb behind = 0 ∧ (kept [] behind ≠ [] ∨ p.getLast?.any isSlash) →
        isAbsolute .windows (anchor .windows base p) ∧
          drive (anchor .windows base p) = drive base) := by
  intro base behind
  obtain ⟨q, hq⟩ : ∃ q, q = slash (rest ++ '/' :: p) := ⟨_, rfl⟩
  have hbehind : behind = q.splitOn '/' := by rw [hq]; rfl
  have happend : slash rest ++ '/' :: slash p = q := by simp [hq, slash]
  have hwhole : normalizeOn .windows (base ++ '/' :: p) =
      letter :: ':' :: normalize ('/' :: q) := by
    rw [List.cons_append, List.cons_append, List.cons_append, normalizeOn_cons hletter,
      slash_cons_of_isSlash hsep, hq, if_neg (List.cons_ne_nil _ _)]
  have hanchor : anchor .windows base p =
      normalizeOn .windows (normalize (letter :: ':' :: '/' :: q)) := by
    obtain ⟨c, p, rfl⟩ := List.exists_cons_of_ne_nil hp
    rw [anchor, if_neg habsolute, slash_cons hletter, slash_cons_of_isSlash hsep, ← happend]
    rfl
  have hlast : ('/' :: q).getLast? = some '/' ↔ p.getLast?.any isSlash := by
    have hslash : slash p ≠ [] := by simpa [slash] using hp
    have hfront : '/' :: q = ('/' :: slash rest ++ ['/']) ++ slash p := by simp [← happend]
    rw [← getLast?_slash, hfront, List.getLast?_append, List.getLast?_eq_some_getLast hslash,
      Option.some_or]
  have hiff : anchor .windows base p = normalizeOn .windows (base ++ '/' :: p) ↔
      climb behind = 0 ∧ (kept [] behind ≠ [] ∨ p.getLast?.any isSlash) := by
    rw [hanchor, hwhole, hbehind, ← hlast]
    exact normalizeOn_normalize_drive_iff hletter (hq ▸ not_mem_slash _)
  refine ⟨hiff, fun h => ?_⟩
  have hroot : (normalize ('/' :: q)).head? = some '/' := (head?_normalize _).mpr rfl
  rw [hiff.mpr h, hwhole, isAbsolute, drive_cons hletter, drive_cons hletter,
    afterDrive_cons hletter, hroot]
  exact ⟨by simp [isSlash], rfl⟩

/-- A path that climbs to the root of the drive and no further, in both kinds of separators. -/
theorem anchor_windows_eq_iff_root :
    'C'.isAlpha ∧ isSlash '\\' ∧ "..\\x/../../lib/*".toList ≠ [] ∧
      ¬isAbsolute .windows "..\\x/../../lib/*".toList ∧
      anchor .windows "C:\\a\\b".toList "..\\x/../../lib/*".toList = "C:/lib/*".toList ∧
      isAbsolute .windows "C:/lib/*".toList := by
  have hp : "..\\x/../../lib/*".toList ≠ [] := by decide
  have habsolute : ¬isAbsolute .windows "..\\x/../../lib/*".toList := by decide
  obtain ⟨hiff, hdrive⟩ :=
    @anchor_windows_eq_iff 'C' '\\' rfl rfl "a\\b".toList _ hp habsolute
  have hcondition :
      climb (pieces .windows ("a\\b".toList ++ '/' :: "..\\x/../../lib/*".toList)) = 0 ∧
      (kept [] (pieces .windows ("a\\b".toList ++ '/' :: "..\\x/../../lib/*".toList)) ≠ [] ∨
        "..\\x/../../lib/*".toList.getLast?.any isSlash) := by decide +kernel
  have hanchor : anchor .windows "C:\\a\\b".toList "..\\x/../../lib/*".toList = "C:/lib/*".toList :=
    (hiff.mpr hcondition).trans (by decide +kernel)
  exact ⟨rfl, rfl, hp, habsolute, hanchor, hanchor ▸ (hdrive hcondition).1⟩

/-- **Anchoring can drop the drive.** One climb too many leaves a relative path, or one on another
drive if the path names it; a climb to the root itself leaves the drive without the separator that
makes it absolute. -/
theorem anchor_windows_drops_drive :
    isAbsolute .windows "C:/a".toList ∧
      (¬isAbsolute .windows "../../x".toList ∧ drive "../../x".toList = [] ∧
        anchor .windows "C:/a".toList "../../x".toList = "x".toList ∧
        normalizeOn .windows "C:/a/../../x".toList = "C:/x".toList) ∧
      (¬isAbsolute .windows "../../D:/x".toList ∧ drive "../../D:/x".toList = [] ∧
        anchor .windows "C:/a".toList "../../D:/x".toList = "D:/x".toList ∧
        normalizeOn .windows "C:/a/../../D:/x".toList = "C:/D:/x".toList) ∧
      (¬isAbsolute .windows "..".toList ∧ drive "..".toList = [] ∧
        anchor .windows "C:/a".toList "..".toList = "C:".toList ∧
        normalizeOn .windows "C:/a/..".toList = "C:/".toList) := by
  decide +kernel

end Path

end ImportAlias
