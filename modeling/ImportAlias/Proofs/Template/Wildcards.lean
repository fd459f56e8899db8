import ImportAlias.Proofs.Path.Absolute
import ImportAlias.Proofs.Path.DriveRoot
import ImportAlias.Proofs.Template.Marks

/-!
# The wildcards of an anchored template

A template is anchored before its wildcards are looked for, so base and template are one text by
then. Its wildcards should be those of the template as it was written, in their order, and in most
cases they are. But a `*` in the name of a directory is a wildcard of the anchored template too, and
a `..` that folds a segment away takes the wildcards of the segment with it; either way the
wildcards behind are filled with the captures of others.

The main statement says exactly when the wildcards are kept (`keepsWildcards_iff`): no directory of
the base that is left has a wildcard, and no segment of the template that has one is left again by a
`..` behind it. Both can fail (`not_keepsWildcards`).
-/

namespace ImportAlias

namespace Template

open ImportAlias.Path (join anchor normalize normalizeOn drive slash isSlash isAbsolute pieces
  Form IsWritten)

/-- Anchoring keeps the wildcards of the template. There are as many in the anchored template, and
when it is filled with marks it is what the template becomes whose wildcards, as they were written,
take their captures before it is anchored: the one behind `n` others takes capture `n + 1` or the
last, and nothing of the base is replaced. -/
def KeepsWildcards (platform : Platform) (base template : Text) : Prop :=
  (anchor platform base template).count wildcard = template.count wildcard ∧
    ∀ id captures, (∀ c ∈ id :: captures, IsMark c) →
      fill id captures (anchor platform base template) =
        anchor platform base (fillWith (capture id captures) template)

/-! ### Wildcards in written paths -/

theorem count_intercalate (segments : List Text) :
    (['/'].intercalate segments).count wildcard = segments.flatten.count wildcard := by
  induction segments with
  | nil => rfl
  | cons s segments ih =>
    cases segments with
    | nil => simp
    | cons s' segments =>
      have hslash : List.count wildcard ['/'] = 0 := by decide
      have hflatten : (s :: s' :: segments).flatten = s ++ (s' :: segments).flatten := rfl
      rw [List.intercalate_cons_cons, List.count_append, List.count_append, ih, hslash, hflatten,
        List.count_append, Nat.add_zero]

theorem count_splitOn (p : Text) : (p.splitOn '/').flatten.count wildcard = p.count wildcard := by
  rw [← count_intercalate, List.intercalate_splitOn]

/-- A form is written with the wildcards of its segments. -/
theorem count_render (form : Form) :
    form.render.count wildcard = form.segments.flatten.count wildcard := by
  have hends : List.count wildcard ['/'] = 0 := by decide
  obtain ⟨absolute, segments, trailing⟩ := form
  by_cases hne : segments = []
  · subst hne
    cases absolute <;> cases trailing <;> decide
  · simp only [Form.render, if_neg hne, List.count_append, count_intercalate]
    cases absolute <;> cases trailing <;> simp [hends]

/-- Filling a written form fills its segments. -/
theorem fillWith_render (f : Nat → Text) (form : Form) :
    fillWith f form.render = { form with segments := fillAll f form.segments }.render := by
  obtain ⟨absolute, segments, trailing⟩ := form
  have hsep : wildcard ∉ (['/'] : Text) := by decide
  cases segments with
  | nil =>
    simp only [Form.render, fillAll_nil, if_true]
    cases absolute <;> cases trailing <;> exact fillWith_eq_self f (by decide)
  | cons s segments =>
    have hne : fillAll f (s :: segments) ≠ [] := List.cons_ne_nil _ _
    have hbody (g : Nat → Text) : fillWith g
        (['/'].intercalate (s :: segments) ++ if trailing then ['/'] else []) =
          fillWith g (['/'].intercalate (s :: segments)) ++ if trailing then ['/'] else [] := by
      rw [fillWith_append]
      cases trailing
      · rfl
      · exact congrArg _ (fillWith_eq_self _ hsep)
    simp only [Form.render, if_neg hne, List.cons_ne_nil, if_false, List.append_assoc]
    cases absolute
    · simp only [Bool.false_eq_true, if_false, List.nil_append, hbody, fillWith_intercalate]
    · simp only [if_true, List.singleton_append, fillWith_cons f (show '/' ≠ wildcard by decide),
        hbody, fillWith_intercalate]

/-! ### Joined and normalized paths -/

/-- The wildcards of a joined path: those that are left of the base and those that are kept. -/
theorem count_join (base p : Text) :
    (join base p).count wildcard =
      (Path.kept (p.splitOn '/') (base.splitOn '/')).flatten.count wildcard +
        (Path.kept [] (p.splitOn '/')).flatten.count wildcard := by
  have hclimbs (n : Nat) : (List.replicate n ['.', '.']).flatten.count wildcard = 0 := by
    refine List.count_eq_zero.mpr fun h => ?_
    obtain ⟨s, hs, hmem⟩ := List.mem_flatten.mp h
    rw [List.eq_of_mem_replicate hs] at hmem
    revert hmem
    decide
  rw [Path.join_eq, count_render, Path.fold_eq, Path.kept_append, List.append_nil,
    List.flatten_append, List.flatten_append, List.count_append, List.count_append, hclimbs,
    Nat.zero_add]

theorem count_normalize (p : Text) :
    (normalize p).count wildcard = (Path.kept [] (p.splitOn '/')).flatten.count wildcard := by
  have hjoin : (normalize p).count wildcard = _ := count_join [] p
  rw [List.splitOn_nil, Path.kept_blank _ _ Path.isBlank_nil] at hjoin
  simpa [Path.kept] using hjoin

/-- No wildcard of a written path is folded away. -/
theorem wildcardsSurvive_of_isWritten {p : Text} (h : IsWritten p) :
    WildcardsSurvive (p.splitOn '/') := by
  rw [← count_kept_eq_iff, ← count_normalize, Path.normalize_eq_self_iff.mpr h, count_splitOn]

section Marked

variable {f : Nat → Text} (hf : ∀ n, IsMark (f n))

include hf

/-- **Joining and marking in either order.** -/
theorem join_fillWith {base p : Text}
    (hbase : WildcardsPerish (p.splitOn '/') (base.splitOn '/'))
    (hp : WildcardsSurvive (p.splitOn '/')) :
    join base (fillWith f p) = fillWith f (join base p) := by
  -- A mark is no separator, so both paths start and end alike.
  have habsolute : ((base ++ fillWith f p).head? == some '/') =
      ((base ++ p).head? == some '/') := by
    cases base with
    | nil =>
      rw [Bool.eq_iff_iff, beq_iff_eq, beq_iff_eq]
      exact head?_fillWith hf (by decide) p
    | cons c base => rfl
  have htrailing : ((base ++ fillWith f p).getLast? == some '/') =
      ((base ++ p).getLast? == some '/') := by
    by_cases hnil : p = []
    · rw [hnil, fillWith_nil]
    · have hfilled : fillWith f p ≠ [] := mt (fillWith_eq_nil_iff hf).mp hnil
      rw [Bool.eq_iff_iff, beq_iff_eq, beq_iff_eq, List.getLast?_append, List.getLast?_append,
        List.getLast?_eq_some_getLast hnil, List.getLast?_eq_some_getLast hfilled,
        Option.some_or, Option.some_or, ← List.getLast?_eq_some_getLast hnil,
        ← List.getLast?_eq_some_getLast hfilled]
      exact getLast?_fillWith hf (by decide) p
  rw [Path.join_eq, Path.join_eq, fillWith_render, habsolute, htrailing,
    splitOn_fillWith_of_isMark hf, fold_fillAll hf _ hbase hp]

theorem normalize_fillWith {p : Text} (hp : WildcardsSurvive (p.splitOn '/')) :
    normalize (fillWith f p) = fillWith f (normalize p) := by
  have hnone : WildcardsPerish (p.splitOn '/') (([] : Text).splitOn '/') := by
    rw [List.splitOn_nil, wildcardsPerish_cons_iff]
    exact ⟨fun h => absurd h List.not_mem_nil, by simp [WildcardsPerish]⟩
  exact join_fillWith hf hnone hp

end Marked

/-! ### A second pass behind the drive

Joining on Windows knows no drives; what is joined is normalized once more behind its drive. No
wildcard is lost there. -/

theorem wildcardsSurvive_behind_drive {letter : Char} (hletter : letter.isAlpha) {p : Text}
    (h : IsWritten (letter :: ':' :: p)) : WildcardsSurvive (p.splitOn '/') := by
  obtain ⟨s, segments, hpieces⟩ := List.exists_cons_of_ne_nil (List.splitOn_ne_nil '/' p)
  have hslash : letter ≠ '/' := Path.drive_ne_slash hletter
  -- The first segment behind the drive is written right behind it; the others are the same.
  have hwhole : (letter :: ':' :: p).splitOn '/' = (letter :: ':' :: s) :: segments := by
    simp [List.splitOn_cons_eq_if_modifyHead, hslash, hpieces]
  have hsurvive := wildcardsSurvive_of_isWritten h
  rw [hwhole, wildcardsSurvive_cons_iff] at hsurvive
  rw [hpieces, wildcardsSurvive_cons_iff]
  exact ⟨fun hs => hsurvive.1 (List.mem_cons_of_mem _ (List.mem_cons_of_mem _ hs)), hsurvive.2⟩

section Written

variable {p : Text} (hp : IsWritten p) (hbackslash : '\\' ∉ p)

include hp hbackslash

theorem normalizeOn_of_isWritten (hdrive : drive p = []) : normalizeOn .windows p = p :=
  Path.normalizeOn_eq_self_iff.mpr ((Path.isNormal_of_drive_eq_nil hdrive).mpr ⟨hbackslash, hp⟩)

theorem count_normalizeOn_of_isWritten :
    (normalizeOn .windows p).count wildcard = p.count wildcard := by
  by_cases hdrive : drive p = []
  · rw [normalizeOn_of_isWritten hp hbackslash hdrive]
  · obtain ⟨letter, rest, hletter, rfl⟩ := Path.exists_of_drive_ne_nil hdrive
    have hrest : '\\' ∉ rest := fun h =>
      hbackslash (List.mem_cons_of_mem _ (List.mem_cons_of_mem _ h))
    have hcount : (if rest = [] then [] else normalize rest).count wildcard =
        rest.count wildcard := by
      split
      · rename_i hnil
        rw [hnil]
      · rw [count_normalize, count_kept_eq_iff.mpr (wildcardsSurvive_behind_drive hletter hp),
          count_splitOn]
    rw [Path.normalizeOn_cons hletter, Path.slash_eq_self hrest]
    simp only [List.count_cons, hcount]

/-- **The second pass and marking in either order**, when the path is written with its marks too. -/
theorem normalizeOn_fillWith {f : Nat → Text} (hf : ∀ n, IsMark (f n))
    (hfilled : IsWritten (fillWith f p)) :
    normalizeOn .windows (fillWith f p) = fillWith f (normalizeOn .windows p) := by
  have hplain : '\\' ∉ fillWith f p := fun h => hbackslash (mem_fillWith hf (by decide) h)
  by_cases hdrive : drive p = []
  · rw [normalizeOn_of_isWritten hp hbackslash hdrive,
      normalizeOn_of_isWritten hfilled hplain ((drive_fillWith hf p).trans hdrive)]
  · obtain ⟨letter, rest, hletter, rfl⟩ := Path.exists_of_drive_ne_nil hdrive
    have hrest : '\\' ∉ rest := fun h =>
      hbackslash (List.mem_cons_of_mem _ (List.mem_cons_of_mem _ h))
    have hrest' : '\\' ∉ fillWith f rest := fun h => hrest (mem_fillWith hf (by decide) h)
    rw [fillWith_drive f hletter, Path.normalizeOn_cons hletter, Path.normalizeOn_cons hletter,
      fillWith_drive f hletter, Path.slash_eq_self hrest, Path.slash_eq_self hrest']
    by_cases hnil : rest = []
    · simp [hnil, fillWith_nil]
    · rw [if_neg hnil, if_neg (mt (fillWith_eq_nil_iff hf).mp hnil),
        normalize_fillWith hf (wildcardsSurvive_behind_drive hletter hp)]

end Written

/-! ### Anchored paths -/

section Anchor

theorem wildcard_not_mem_drive (p : Text) : wildcard ∉ drive p := by
  by_cases hdrive : drive p = []
  · simp [hdrive]
  · obtain ⟨letter, rest, hletter, rfl⟩ := Path.exists_of_drive_ne_nil hdrive
    have hne : letter ≠ wildcard := HasMeaning.ne_wildcard (.inr hletter)
    have hcolon : ':' ≠ wildcard := by decide
    simp [Path.drive_cons hletter, Ne.symm hne, Ne.symm hcolon]

/-- A path that begins with a separator is put on the drive of the base as it is. -/
theorem anchor_of_startsWithSlash (base : Text) {p : Text} (h : p.head?.any isSlash) :
    anchor .windows base p = drive (slash base) ++ normalize (slash p) := by
  have habsolute : isAbsolute .windows p := by simp [isAbsolute, h]
  rw [anchor, if_pos habsolute, if_pos h]
  by_cases hdrive : drive (slash base) = []
  · have hnone : drive (slash p) = [] := Path.drive_of_head? (Path.head?_slash h)
    rw [hdrive, List.nil_append, List.nil_append, Path.normalizeOn_of_drive_eq_nil hnone]
  · obtain ⟨letter, rest, hletter, hbase⟩ := Path.exists_of_drive_ne_nil hdrive
    have hne : p ≠ [] := by
      rintro rfl
      cases h
    rw [hbase, Path.drive_cons hletter, List.cons_append, List.cons_append, List.nil_append,
      Path.normalizeOn_cons hletter, if_neg hne]
    rfl

/-- An absolute path that does not begin with a separator begins with a drive and a separator. -/
theorem exists_of_isAbsolute {p : Text} (habsolute : isAbsolute .windows p)
    (h : ¬p.head?.any isSlash) :
    ∃ letter c rest, letter.isAlpha ∧ isSlash c ∧ p = letter :: ':' :: c :: rest := by
  have hdrive : drive p ≠ [] := by
    intro hnone
    simp [isAbsolute, h, hnone] at habsolute
  obtain ⟨letter, rest, hletter, rfl⟩ := Path.exists_of_drive_ne_nil hdrive
  have hhead : isSlash letter = false := by simpa using h
  have hrest : rest.head?.any isSlash := by
    simpa [isAbsolute, hhead, hdrive, Path.afterDrive_cons hletter] using habsolute
  cases rest with
  | nil => cases hrest
  | cons c rest => exact ⟨letter, c, rest, hletter, hrest, rfl⟩

theorem pieces_of_drive {letter c : Char} (hletter : letter.isAlpha) (hc : isSlash c)
    (rest : Text) :
    pieces .windows (letter :: ':' :: c :: rest) = [letter, ':'] :: (slash rest).splitOn '/' := by
  rw [pieces, Path.slash_cons hletter, Path.slash_cons_of_isSlash hc, Path.splitOn_drive hletter]

theorem anchor_of_drive (base : Text) {letter c : Char} (hletter : letter.isAlpha)
    (hc : isSlash c) (rest : Text) :
    anchor .windows base (letter :: ':' :: c :: rest) =
      letter :: ':' :: normalize ('/' :: slash rest) := by
  have habsolute : isAbsolute .windows (letter :: ':' :: c :: rest) := by
    simp [isAbsolute, Path.drive_cons hletter, Path.afterDrive_cons hletter, hc]
  have hhead : ¬(letter :: ':' :: c :: rest).head?.any isSlash := by
    simpa using Path.not_isSlash_of_isAlpha hletter
  rw [anchor, if_pos habsolute, if_neg hhead, Path.normalizeOn_cons hletter,
    if_neg (List.cons_ne_nil _ _), Path.slash_cons_of_isSlash hc]

/-- **The wildcards of an anchored template**: those of the base that are left, unless the template
is absolute, and those of the template that are kept. -/
theorem count_anchor (platform : Platform) (base template : Text) :
    (anchor platform base template).count wildcard =
      (if isAbsolute platform template then 0
        else (Path.kept (pieces platform template) (pieces platform base)).flatten.count wildcard) +
      (Path.kept [] (pieces platform template)).flatten.count wildcard := by
  cases platform with
  | posix =>
    rw [anchor]
    split
    · rw [count_normalize, Nat.zero_add]
      rfl
    · exact count_join base template
  | windows =>
    by_cases habsolute : isAbsolute .windows template
    · rw [if_pos habsolute, Nat.zero_add]
      by_cases hhead : template.head?.any isSlash
      · have hdrive : (drive (slash base)).count wildcard = 0 :=
          List.count_eq_zero_of_not_mem (wildcard_not_mem_drive _)
        rw [anchor_of_startsWithSlash base hhead, List.count_append, hdrive, Nat.zero_add,
          count_normalize]
        rfl
      · obtain ⟨letter, c, rest, hletter, hc, rfl⟩ := exists_of_isAbsolute habsolute hhead
        have hfree : wildcard ∉ [letter, ':'] := by
          rw [← Path.drive_cons hletter rest]
          exact wildcard_not_mem_drive _
        have hcount (p : Text) : (letter :: ':' :: p).count wildcard = p.count wildcard := by
          have hsplit : letter :: ':' :: p = [letter, ':'] ++ p := rfl
          rw [hsplit, List.count_append, List.count_eq_zero_of_not_mem hfree, Nat.zero_add]
        rw [anchor_of_drive base hletter hc, pieces_of_drive hletter hc, count_kept_cons hfree,
          hcount, count_normalize, Path.splitOn_slash, Path.kept_blank _ _ Path.isBlank_nil]
    · rw [if_neg habsolute, anchor, if_neg habsolute,
        count_normalizeOn_of_isWritten (Path.isWritten_join _ _)
          (Path.not_mem_join (Path.not_mem_slash _) (Path.not_mem_slash _))]
      exact count_join _ _

theorem count_pieces (platform : Platform) (p : Text) :
    (pieces platform p).flatten.count wildcard = p.count wildcard := by
  cases platform with
  | posix => exact count_splitOn p
  | windows =>
    have hslash : (slash p).count wildcard = p.count wildcard := by
      induction p with
      | nil => rfl
      | cons c p ih =>
        have hcons : slash (c :: p) = (if c = '\\' then '/' else c) :: slash p := rfl
        rw [hcons, List.count_cons, List.count_cons, ih]
        by_cases hc : c = '\\'
        · rw [hc]
          rfl
        · rw [if_neg hc]
    rw [pieces, count_splitOn, hslash]

theorem pieces_fillWith {f : Nat → Text} (hf : ∀ n, IsMark (f n)) (platform : Platform) (p : Text) :
    pieces platform (fillWith f p) = fillAll f (pieces platform p) := by
  cases platform with
  | posix => exact splitOn_fillWith_of_isMark hf p
  | windows => rw [pieces, slash_fillWith hf, splitOn_fillWith_of_isMark hf, pieces]

theorem startsWithSlash_fillWith {f : Nat → Text} (hf : ∀ n, IsMark (f n)) (p : Text) :
    (fillWith f p).head?.any isSlash = p.head?.any isSlash := by
  have hiff (t : Text) : t.head?.any isSlash ↔ t.head? = some '/' ∨ t.head? = some '\\' := by
    cases t <;> simp [isSlash]
  rw [Bool.eq_iff_iff, hiff, hiff, head?_fillWith hf (by decide), head?_fillWith hf (by decide)]

/-- A path is absolute with marks when it is without. -/
theorem isAbsolute_fillWith {f : Nat → Text} (hf : ∀ n, IsMark (f n)) (platform : Platform)
    (p : Text) : isAbsolute platform (fillWith f p) = isAbsolute platform p := by
  cases platform with
  | posix =>
    rw [Bool.eq_iff_iff, Path.isAbsolute_posix_iff, Path.isAbsolute_posix_iff]
    exact head?_fillWith hf (by decide) p
  | windows =>
    rw [isAbsolute, isAbsolute, startsWithSlash_fillWith hf, drive_fillWith hf]
    by_cases hdrive : drive p = []
    · simp [hdrive]
    · obtain ⟨letter, rest, hletter, rfl⟩ := Path.exists_of_drive_ne_nil hdrive
      rw [fillWith_drive f hletter, Path.afterDrive_cons hletter, Path.afterDrive_cons hletter,
        startsWithSlash_fillWith hf]

/-- **Anchoring and marking in either order.** -/
theorem anchor_fillWith {f : Nat → Text} (hf : ∀ n, IsMark (f n)) {platform : Platform}
    {base template : Text} (htemplate : WildcardsSurvive (pieces platform template))
    (hbase : ¬isAbsolute platform template →
      WildcardsPerish (pieces platform template) (pieces platform base)) :
    anchor platform base (fillWith f template) = fillWith f (anchor platform base template) := by
  have habsolute := isAbsolute_fillWith hf platform template
  cases platform with
  | posix =>
    rw [anchor, anchor, habsolute]
    split
    · exact normalize_fillWith hf htemplate
    · rename_i hrelative
      exact join_fillWith hf (hbase hrelative) htemplate
  | windows =>
    by_cases hrelative : isAbsolute .windows template
    · by_cases hhead : template.head?.any isSlash
      · have hfree : fillWith f (drive (slash base)) = drive (slash base) :=
          fillWith_eq_self f (wildcard_not_mem_drive _)
        have hcount : (drive (slash base)).count wildcard = 0 :=
          List.count_eq_zero_of_not_mem (wildcard_not_mem_drive _)
        rw [anchor_of_startsWithSlash base ((startsWithSlash_fillWith hf template).trans hhead),
          anchor_of_startsWithSlash base hhead, slash_fillWith hf, fillWith_append, hfree, hcount,
          normalize_fillWith hf htemplate]
        rfl
      · obtain ⟨letter, c, rest, hletter, hc, rfl⟩ := exists_of_isAbsolute hrelative hhead
        have hc' : c ≠ wildcard := by
          rintro rfl
          cases hc
        have hsurvive : WildcardsSurvive (('/' :: slash rest).splitOn '/') := by
          rw [pieces_of_drive hletter hc, wildcardsSurvive_cons_iff] at htemplate
          rw [Path.splitOn_slash, wildcardsSurvive_cons_iff]
          exact ⟨fun h => absurd h List.not_mem_nil, htemplate.2⟩
        rw [fillWith_drive f hletter, fillWith_cons f hc', anchor_of_drive base hletter hc,
          anchor_of_drive base hletter hc, fillWith_drive f hletter, slash_fillWith hf,
          ← fillWith_cons f (show '/' ≠ wildcard by decide), normalize_fillWith hf hsurvive]
    · -- What is joined is written, with marks and without; that is all the second pass asks for.
      have hjoin : join (slash base) (slash (fillWith f template)) =
          fillWith f (join (slash base) (slash template)) := by
        rw [slash_fillWith hf]
        exact join_fillWith hf (hbase hrelative) htemplate
      rw [anchor, anchor, habsolute, if_neg hrelative, if_neg hrelative, hjoin]
      exact normalizeOn_fillWith (Path.isWritten_join _ _)
        (Path.not_mem_join (Path.not_mem_slash _) (Path.not_mem_slash _)) hf
        (hjoin ▸ Path.isWritten_join _ _)

end Anchor

/-- **When anchoring keeps the wildcards of a template.** Nothing behind a segment of the template
with a wildcard climbs out of it, and, unless the template is absolute, what comes behind a segment
of the base with a wildcard does. -/
theorem keepsWildcards_iff (platform : Platform) (base template : Text) :
    KeepsWildcards platform base template ↔
      WildcardsSurvive (pieces platform template) ∧
        (¬isAbsolute platform template →
          WildcardsPerish (pieces platform template) (pieces platform base)) := by
  have hcount := count_anchor platform base template
  constructor
  · rintro ⟨hsame, hmarked⟩
    -- With every wildcard marked, a wildcard that is left comes from the base.
    have hmark : ∀ c ∈ [['0']], IsMark c := by decide
    have hf := isMark_capture hmark
    have hnone :
        (anchor platform base (fillWith (capture ['0'] []) template)).count wildcard = 0 := by
      rw [← hmarked _ _ hmark, fill_eq_fillWith]
      exact List.count_eq_zero_of_not_mem (not_mem_fillWith hf _)
    rw [count_anchor, pieces_fillWith hf, isAbsolute_fillWith hf,
      Path.kept_congr (climb_fillAll hf _)] at hnone
    have hleft := Nat.eq_zero_of_add_eq_zero_right hnone
    constructor
    · rw [← count_kept_eq_iff, count_pieces, ← hsame, hcount, hleft, Nat.zero_add]
    · intro hrelative
      rw [if_neg hrelative] at hleft
      exact count_kept_eq_zero_iff.mp hleft
  · rintro ⟨htemplate, hbase⟩
    constructor
    · rw [hcount, count_kept_eq_iff.mpr htemplate, count_pieces]
      split
      · exact Nat.zero_add _
      · rename_i hrelative
        rw [count_kept_eq_zero_iff.mpr (hbase hrelative), Nat.zero_add]
    · intro id captures hmarks
      rw [fill_eq_fillWith, anchor_fillWith (isMark_capture hmarks) htemplate hbase]

/-- **Anchoring can lose and gain wildcards.** A directory of the base with a `*` in its name adds
a wildcard in front, which takes the first capture; a `..` takes a wildcard away, and the one behind
it takes the first capture in its place. -/
theorem not_keepsWildcards :
    ¬KeepsWildcards .posix "/p*q".toList "src/*".toList ∧
      ¬KeepsWildcards .posix "/p".toList "*/../*".toList ∧
      (∃ m, Mapping.compile .posix "/p*q".toList "@/*/*".toList ["src/*/*".toList] = .ok m ∧
        m.pathFor? "@/x/y".toList = some "/pxq/src/y/y".toList) ∧
      ∃ m, Mapping.compile .posix "/p".toList "*/*".toList ["*/../*".toList] = .ok m ∧
        m.pathFor? "a/b".toList = some "/p/a".toList := by
  refine ⟨fun h => ?_, fun h => ?_, ⟨_, rfl, by decide +kernel⟩, ⟨_, rfl, by decide +kernel⟩⟩
  · exact absurd h.1 (by decide +kernel)
  · exact absurd h.1 (by decide +kernel)

end Template

end ImportAlias
