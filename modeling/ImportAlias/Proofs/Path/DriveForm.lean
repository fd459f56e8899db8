import ImportAlias.Path.Anchor
import ImportAlias.Proofs.Path.NormalForm

/-!
# Normal forms under a convention

On Windows a path is in normal form when it has no backslash and what follows its drive is
written from a folded form, or nothing follows the drive at all. With this reading of a normal
path, `normalizeOn_eq_self_iff` says what the fixed points of `normalizeOn` are.

`normalizeOn` itself does not always give such a path: folding `./C:./x` uncovers the drive of
`C:./x`, and only a second pass would fold what follows it. Anchoring is a case where the first
pass suffices (`isNormal_anchor`), since either the drive is there from the start or the path was
folded before. Joining makes one pass that knows nothing of drives and backslashes, so of a joined
path these two things are to be asked (`isNormal_windows_iff`).
-/

namespace ImportAlias

namespace Path

/-- The path is in normal form under a platform's convention. -/
def IsNormal : Platform → Text → Prop
  | .posix, p => IsWritten p
  | .windows, p =>
    '\\' ∉ p ∧ (drive p ≠ [] ∧ afterDrive p = [] ∨ IsWritten (afterDrive p))

/-! ### Backslashes -/

theorem not_mem_slash (p : Text) : '\\' ∉ slash p := by
  intro h
  obtain ⟨c, -, hc⟩ := List.mem_map.mp h
  split at hc
  · cases hc
  · contradiction

theorem slash_eq_self {p : Text} (h : '\\' ∉ p) : slash p = p := by
  have hsame : ∀ c ∈ p, (if c = '\\' then '/' else c) = c := by
    rintro c hc
    exact if_neg (ne_of_mem_of_not_mem hc h)
  exact (List.map_congr_left hsame).trans (List.map_id' p)

theorem not_mem_normalize {p : Text} (h : '\\' ∉ p) : '\\' ∉ normalize p := by
  intro hc
  rcases mem_normalize hc with hc | hc | hc
  · exact h hc
  · cases hc
  · cases hc

/-- Writing every separator as `/` and folding leaves exactly the paths that have no backslash and
are folded. -/
theorem normalize_slash_eq_self_iff {p : Text} :
    normalize (slash p) = p ↔ '\\' ∉ p ∧ IsWritten p := by
  rw [← normalize_eq_self_iff]
  constructor
  · intro h
    have hp : '\\' ∉ p := h ▸ not_mem_normalize (not_mem_slash p)
    rw [slash_eq_self hp] at h
    exact ⟨hp, h⟩
  · rintro ⟨hp, h⟩
    rw [slash_eq_self hp, h]

/-! ### Drives -/

theorem ne_of_isAlpha {letter c : Char} (hletter : letter.isAlpha) (hc : ¬c.isAlpha) :
    letter ≠ c := fun h => hc (h ▸ hletter)

theorem not_isSlash_of_isAlpha {letter : Char} (hletter : letter.isAlpha) : ¬isSlash letter := by
  have hslash : letter ≠ '/' := ne_of_isAlpha hletter (by decide)
  have hbackslash : letter ≠ '\\' := ne_of_isAlpha hletter (by decide)
  simp [isSlash, hslash, hbackslash]

/-- A path has a drive when it begins with a letter and a colon. -/
theorem exists_of_drive_ne_nil {p : Text} (h : drive p ≠ []) :
    ∃ letter rest, letter.isAlpha ∧ p = letter :: ':' :: rest := by
  unfold drive at h
  split at h
  · rename_i letter rest
    by_cases hletter : letter.isAlpha
    · exact ⟨letter, rest, hletter, rfl⟩
    · simp [hletter] at h
  · contradiction

theorem drive_of_head? {p : Text} (h : p.head? = some '/') : drive p = [] := by
  by_cases hdrive : drive p = []
  · exact hdrive
  · obtain ⟨letter, rest, hletter, rfl⟩ := exists_of_drive_ne_nil hdrive
    exact absurd (Option.some.inj h) (ne_of_isAlpha hletter (by decide))

theorem afterDrive_of_drive_eq_nil {p : Text} (h : drive p = []) : afterDrive p = p := by
  rw [afterDrive, h, List.length_nil, List.drop_zero]

theorem normalizeOn_of_drive_eq_nil {p : Text} (h : drive (slash p) = []) :
    normalizeOn .windows p = normalize (slash p) := by
  simp only [normalizeOn, if_pos h]

theorem isNormal_of_drive_eq_nil {p : Text} (h : drive p = []) :
    IsNormal .windows p ↔ '\\' ∉ p ∧ IsWritten p := by
  simp [IsNormal, h, afterDrive_of_drive_eq_nil h]

section Cons

variable {letter : Char} (hletter : letter.isAlpha) (rest : Text)

include hletter

theorem drive_cons : drive (letter :: ':' :: rest) = [letter, ':'] := by simp [drive, hletter]

theorem afterDrive_cons : afterDrive (letter :: ':' :: rest) = rest := by
  rw [afterDrive, drive_cons hletter]
  rfl

theorem slash_cons : slash (letter :: ':' :: rest) = letter :: ':' :: slash rest := by
  simp [slash, ne_of_isAlpha (c := '\\') hletter (by decide)]

theorem normalizeOn_cons :
    normalizeOn .windows (letter :: ':' :: rest) =
      letter :: ':' :: if rest = [] then [] else normalize (slash rest) := by
  simp only [normalizeOn, slash_cons hletter, drive_cons hletter, afterDrive_cons hletter]
  by_cases hrest : rest = []
  · simp [hrest, slash]
  · simp [hrest, slash]

theorem isNormal_cons :
    IsNormal .windows (letter :: ':' :: rest) ↔ '\\' ∉ rest ∧ (rest = [] ∨ IsWritten rest) := by
  have h : letter ≠ '\\' := ne_of_isAlpha hletter (by decide)
  simp [h.symm, IsNormal, drive_cons hletter, afterDrive_cons hletter]

end Cons

/-- The drive of a path does not depend on how its separators are written. -/
theorem drive_slash (p : Text) : drive (slash p) = drive p := by
  by_cases hp : drive p = []
  · by_cases hs : drive (slash p) = []
    · rw [hs, hp]
    · -- The letter and the colon are no separators, so `p` begins with them already.
      obtain ⟨letter, rest, hletter, heq⟩ := exists_of_drive_ne_nil hs
      obtain ⟨a, t, rfl, ha, ht⟩ := List.map_eq_cons_iff.mp heq
      obtain ⟨b, t, rfl, hb, -⟩ := List.map_eq_cons_iff.mp ht
      have hslash : letter ≠ '/' := ne_of_isAlpha hletter (by decide)
      have hcolon : b = ':' := by grind
      have hsame : a = letter := by grind
      rw [hcolon, hsame, drive_cons hletter] at hp
      cases hp
  · obtain ⟨letter, rest, hletter, rfl⟩ := exists_of_drive_ne_nil hp
    rw [slash_cons hletter, drive_cons hletter, drive_cons hletter]

/-! ### Fixed points under a convention -/

/-- **The fixed points of `normalizeOn`** are the normal paths of the platform. -/
theorem normalizeOn_eq_self_iff {platform : Platform} {p : Text} :
    normalizeOn platform p = p ↔ IsNormal platform p := by
  cases platform with
  | posix => exact normalize_eq_self_iff
  | windows =>
    by_cases hdrive : drive p = []
    · rw [normalizeOn_of_drive_eq_nil ((drive_slash p).trans hdrive),
        isNormal_of_drive_eq_nil hdrive, normalize_slash_eq_self_iff]
    · obtain ⟨letter, rest, hletter, rfl⟩ := exists_of_drive_ne_nil hdrive
      rw [normalizeOn_cons hletter, isNormal_cons hletter, List.cons_inj_right, List.cons_inj_right]
      by_cases hrest : rest = []
      · simp [hrest]
      · simp [hrest, normalize_slash_eq_self_iff]

/-- One pass gives a normal path unless folding uncovers a drive. -/
theorem isNormal_normalizeOn {p : Text} (h : drive p = [] → drive (normalize (slash p)) = []) :
    IsNormal .windows (normalizeOn .windows p) := by
  by_cases hdrive : drive p = []
  · rw [normalizeOn_of_drive_eq_nil ((drive_slash p).trans hdrive),
      isNormal_of_drive_eq_nil (h hdrive)]
    exact ⟨not_mem_normalize (not_mem_slash p), isWritten_normalize _⟩
  · obtain ⟨letter, rest, hletter, rfl⟩ := exists_of_drive_ne_nil hdrive
    rw [normalizeOn_cons hletter, isNormal_cons hletter]
    by_cases hrest : rest = []
    · simp [hrest]
    · rw [if_neg hrest]
      exact ⟨not_mem_normalize (not_mem_slash rest), .inr (isWritten_normalize _)⟩

/-! ### Anchored paths -/

theorem isWritten_join (base segment : Text) : IsWritten (join base segment) := by
  unfold join
  split <;> exact isWritten_normalize _

theorem not_mem_join {base segment : Text} (hbase : '\\' ∉ base) (hsegment : '\\' ∉ segment) :
    '\\' ∉ join base segment := by
  unfold join
  split <;> refine not_mem_normalize ?_ <;> simp_all

theorem head?_slash {p : Text} (h : p.head?.any isSlash) : (slash p).head? = some '/' := by
  cases p with
  | nil => cases h
  | cons c p =>
    have hc : c = '/' ∨ c = '\\' := by simpa [isSlash] using h
    rcases hc with rfl | rfl <;> rfl

/-- **What is anchored is in normal form.** -/
theorem isNormal_anchor (platform : Platform) (base p : Text) :
    IsNormal platform (anchor platform base p) := by
  cases platform with
  | posix =>
    rw [anchor]
    split
    · exact isWritten_normalize p
    · exact isWritten_join base p
  | windows =>
    rw [anchor]
    by_cases habsolute : isAbsolute .windows p
    · rw [if_pos habsolute]
      by_cases hslash : p.head?.any isSlash
      · rw [if_pos hslash]
        refine isNormal_normalizeOn fun hdrive => drive_of_head? ?_
        -- The drive of the base is in front, unless the base has none.
        have hbase : drive (slash base) = [] := by
          by_cases hne : drive (slash base) = []
          · exact hne
          · obtain ⟨letter, rest, hletter, heq⟩ := exists_of_drive_ne_nil hne
            rw [heq, drive_cons hletter, List.cons_append, List.cons_append,
              drive_cons hletter] at hdrive
            cases hdrive
        rw [hbase, List.nil_append, head?_normalize, head?_slash hslash]
      · rw [if_neg hslash]
        refine isNormal_normalizeOn fun hdrive => ?_
        simp [isAbsolute, hslash, hdrive] at habsolute
    · rw [if_neg habsolute]
      refine isNormal_normalizeOn fun hdrive => ?_
      rw [slash_eq_self (not_mem_join (not_mem_slash base) (not_mem_slash p)),
        normalize_eq_self_iff.mpr (isWritten_join _ _), hdrive]

/-! ### Joined paths

Joining knows neither drives nor backslashes. Of a joined path a backslash may be left over, and
a `.` behind the drive that is a segment of its own only once the drive is set aside. -/

/-- Behind the drive of the path stands a `.` that could be left out. -/
def DotBehindDrive (p : Text) : Prop :=
  drive p ≠ [] ∧ ∃ rest, rest ≠ [] ∧ afterDrive p = '.' :: '/' :: rest

/-- The text behind the first segment of a form. -/
private def behind (segments : List Text) (trailing : Bool) : Text :=
  (if segments = [] then [] else '/' :: ['/'].intercalate segments) ++
    if trailing then ['/'] else []

private theorem render_cons (s : Text) (segments : List Text) (trailing : Bool) :
    Form.render { absolute := false, segments := s :: segments, trailing } =
      s ++ behind segments trailing := by
  cases segments <;> simp [Form.render, behind, List.intercalate_cons_cons]

/-- A `.` that something follows is not written. -/
private theorem not_isWritten_dot {rest : Text} (h : rest ≠ []) :
    ¬IsWritten ('.' :: '/' :: rest) := by
  rintro ⟨f, hf, hrender⟩
  have hne : f.segments ≠ [] := by
    intro hnil
    simp only [Form.render, hnil, if_true] at hrender
    grind
  have hpieces := Form.splitOn_render hf hne
  have hleft : ('.' :: '/' :: rest).splitOn '/' = ['.'] :: rest.splitOn '/' :=
    List.splitOn_append_cons_self ['.'] rest
  rw [hrender, hleft] at hpieces
  obtain ⟨s, segments, hs⟩ := List.exists_cons_of_ne_nil hne
  cases habsolute : f.absolute with
  | true => simp [habsolute] at hpieces
  | false =>
    have hdot : ['.'] = s := by simp [habsolute, hs] at hpieces; exact hpieces.1
    rcases Folded.mem hf (hs ▸ List.mem_cons_self : s ∈ f.segments) with hup | hname
    · rw [hup] at hdot
      cases hdot
    · exact hname.2.1 hdot.symm

/-- A written path that begins with a drive has names behind it. -/
private theorem exists_of_isWritten_cons {letter : Char} (hletter : letter.isAlpha) {rest : Text}
    (h : IsWritten (letter :: ':' :: rest)) :
    ∃ s segments trailing, '/' ∉ s ∧ (∀ s' ∈ segments, IsName s') ∧
      rest = s ++ behind segments trailing := by
  obtain ⟨⟨absolute, segments, trailing⟩, hf, hrender⟩ := h
  have hslash : letter ≠ '/' := ne_of_isAlpha hletter (by decide)
  have hdot : letter ≠ '.' := ne_of_isAlpha hletter (by decide)
  obtain rfl : absolute = false := by
    have hhead := Form.head?_render hf
    rw [hrender] at hhead
    simpa [hslash] using hhead
  cases segments with
  | nil => cases trailing <;> simp [Form.render, hdot.symm] at hrender
  | cons first segments =>
    obtain ⟨hne, hfirst⟩ := hf.segment_ok (s := first) List.mem_cons_self
    -- The first segment begins with the letter, so nothing climbs.
    obtain ⟨c, first, rfl⟩ := List.exists_cons_of_ne_nil hne
    rw [render_cons, List.cons_append, List.cons.injEq] at hrender
    obtain ⟨rfl, hrender⟩ := hrender
    have hnames : ∀ s ∈ segments, IsName s := by
      obtain ⟨climbs, names, hsegments, hnames, -⟩ := hf
      cases climbs with
      | zero =>
        intro s hs
        refine hnames s ?_
        rw [List.replicate_zero, List.nil_append] at hsegments
        exact hsegments ▸ List.mem_cons_of_mem _ hs
      | succ climbs => simp [List.replicate_succ, hdot] at hsegments
    cases first with
    | nil =>
      -- Behind a segment stands a separator, not the colon of a drive.
      rw [List.nil_append, behind] at hrender
      split at hrender <;> cases trailing <;> simp at hrender
    | cons colon s =>
      rw [List.cons_append, List.cons.injEq] at hrender
      refine ⟨s, segments, trailing, fun hs => hfirst ?_, hnames, hrender.2.symm⟩
      exact List.mem_cons_of_mem _ (List.mem_cons_of_mem _ hs)

/-- What names leave behind a drive is written, but for a `.` in front of more. -/
private theorem isWritten_behind {s : Text} {segments : List Text} {trailing : Bool}
    (hs : '/' ∉ s) (hnames : ∀ s' ∈ segments, IsName s')
    (hdot : ∀ rest, rest ≠ [] → s ++ behind segments trailing ≠ '.' :: '/' :: rest) :
    s ++ behind segments trailing = [] ∨ IsWritten (s ++ behind segments trailing) := by
  by_cases hnil : s = []
  · subst hnil
    by_cases hsegments : segments = []
    · cases trailing with
      | false => exact .inl (by simp [behind, hsegments])
      | true =>
        refine .inr ⟨{ absolute := true, segments := [], trailing := true }, ?_, ?_⟩
        · exact ⟨0, [], rfl, by simp, fun _ => rfl⟩
        · simp [Form.render, behind, hsegments]
    · refine .inr ⟨{ absolute := true, segments, trailing }, ?_, ?_⟩
      · exact ⟨0, segments, rfl, hnames, fun _ => rfl⟩
      · simp [Form.render, behind, hsegments]
  by_cases hcurrent : s = ['.']
  · subst hcurrent
    by_cases hsegments : segments = []
    · refine .inr ⟨{ absolute := false, segments := [], trailing }, ?_, ?_⟩
      · exact ⟨0, [], rfl, by simp, fun _ => rfl⟩
      · cases trailing <;> simp [Form.render, behind, hsegments]
    · obtain ⟨hbody, -⟩ := intercalate_ends hsegments fun s' hs' =>
        ⟨(hnames s' hs').1, (hnames s' hs').2.2.2⟩
      refine absurd ?_ (hdot (['/'].intercalate segments ++ if trailing then ['/'] else []) ?_)
      · simp [behind, hsegments]
      · simp [hbody]
  refine .inr ⟨{ absolute := false, segments := s :: segments, trailing }, ?_, render_cons ..⟩
  by_cases hup : s = ['.', '.']
  · exact ⟨1, segments, by simp [hup, List.replicate_succ], hnames, by simp⟩
  · refine ⟨0, s :: segments, rfl, fun s' hs' => ?_, by simp⟩
    rcases List.mem_cons.mp hs' with rfl | hs'
    · exact ⟨hnil, hcurrent, hup, hs⟩
    · exact hnames s' hs'

/-- **On Windows a written path is in normal form** unless it has a backslash, or a `.` that could
be left out once its drive is set aside. -/
theorem isNormal_windows_iff {p : Text} (h : IsWritten p) :
    IsNormal .windows p ↔ '\\' ∉ p ∧ ¬DotBehindDrive p := by
  by_cases hdrive : drive p = []
  · simp [isNormal_of_drive_eq_nil hdrive, DotBehindDrive, hdrive, h]
  · obtain ⟨letter, rest, hletter, rfl⟩ := exists_of_drive_ne_nil hdrive
    have hbackslash : '\\' ∉ letter :: ':' :: rest ↔ '\\' ∉ rest := by
      have hne : letter ≠ '\\' := ne_of_isAlpha hletter (by decide)
      simp [hne.symm]
    obtain ⟨s, segments, trailing, hs, hnames, rfl⟩ := exists_of_isWritten_cons hletter h
    rw [isNormal_cons hletter, hbackslash, DotBehindDrive, afterDrive_cons hletter]
    refine and_congr_right fun _ => ⟨?_, fun hdot => ?_⟩
    · rintro (hnil | hwritten) ⟨-, rest, hrest, heq⟩
      · rw [hnil] at heq
        cases heq
      · exact not_isWritten_dot hrest (heq ▸ hwritten)
    · exact isWritten_behind hs hnames fun rest hrest heq => hdot ⟨hdrive, rest, hrest, heq⟩

end Path

end ImportAlias
