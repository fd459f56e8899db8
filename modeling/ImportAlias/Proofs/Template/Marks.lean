import ImportAlias.Proofs.Path.Climb
import ImportAlias.Proofs.Path.DriveForm
import ImportAlias.Proofs.Template.Fill

/-!
# Marking wildcards

To follow the wildcards of a template through an operation on paths, each is replaced by a mark: a
text that means nothing to the operation. What becomes of a mark is what becomes of its wildcard,
for a path and the same path with marks are treated alike: they are absolute alike, have the same
drive and the same pieces, and of these pieces the same ones move, climb or stay.

A wildcard is lost when its segment is folded away, that is when what comes behind it climbs out of
it. `WildcardsSurvive` says of segments that this happens to none of their wildcards, and
`WildcardsPerish` that it happens to all of them. Counting wildcards before and after folding tells
which is the case (`count_kept_eq_iff`, `count_kept_eq_zero_iff`), and where all survive, folding
and marking can be done in either order (`fold_fillAll`, `join_fillWith`).
-/

namespace ImportAlias

namespace Template

/-! ### Marks -/

/-- Paths give a meaning to the character. -/
def HasMeaning (c : Char) : Prop := c ∈ ['/', '\\', '.', ':'] ∨ c.isAlpha

instance (c : Char) : Decidable (HasMeaning c) := inferInstanceAs (Decidable (_ ∨ _))

/-- The text is not empty, and neither paths nor templates give a meaning to its characters. -/
def IsMark (mark : Text) : Prop := mark ≠ [] ∧ ∀ c ∈ mark, ¬HasMeaning c ∧ c ≠ wildcard

-- The characters of the mark are tried, and not all there are.
instance (mark : Text) : Decidable (IsMark mark) :=
  have : Decidable (∀ c ∈ mark, ¬HasMeaning c ∧ c ≠ wildcard) := List.decidableBAll _ _
  inferInstanceAs (Decidable (_ ∧ _))

theorem IsMark.exists_cons {mark : Text} (h : IsMark mark) :
    ∃ c t, mark = c :: t ∧ ¬HasMeaning c ∧ c ≠ wildcard := by
  obtain ⟨c, t, rfl⟩ := List.exists_cons_of_ne_nil h.1
  exact ⟨c, t, rfl, h.2 c List.mem_cons_self⟩

theorem HasMeaning.ne_wildcard {c : Char} (h : HasMeaning c) : c ≠ wildcard := by
  rintro rfl
  revert h
  decide

theorem isMark_capture {id : Text} {captures : List Text} (h : ∀ c ∈ id :: captures, IsMark c)
    (n : Nat) : IsMark (capture id captures n) := by
  have hlt : min (n + 1) captures.length < (id :: captures).length :=
    Nat.lt_succ_of_le (Nat.min_le_right _ _)
  simp only [capture, List.getD_eq_getElem?_getD, List.getElem?_eq_getElem hlt, Option.getD_some]
  exact h _ (List.getElem_mem hlt)

/-- A drive is not filled. -/
theorem fillWith_drive (f : Nat → Text) {letter : Char} (hletter : letter.isAlpha) (t : Text) :
    fillWith f (letter :: ':' :: t) = letter :: ':' :: fillWith f t := by
  rw [fillWith_cons f (HasMeaning.ne_wildcard (.inr hletter)), fillWith_cons f (by decide)]

section Marked

variable {f : Nat → Text} (hf : ∀ n, IsMark (f n))

include hf

/-- What a wildcard is replaced by is seen at neither end of the text. -/
theorem head?_fillWith {c : Char} (hc : HasMeaning c) (t : Text) :
    (fillWith f t).head? = some c ↔ t.head? = some c := by
  cases t with
  | nil => rfl
  | cons d t =>
    by_cases hd : d = wildcard
    · obtain ⟨x, mark, hmark, hx, -⟩ := (hf 0).exists_cons
      have hne : x ≠ c := by
        rintro rfl
        exact hx hc
      rw [hd, fillWith_wildcard, hmark]
      simp [hne, Ne.symm hc.ne_wildcard]
    · rw [fillWith_cons f hd]
      rfl

theorem getLast?_fillWith {c : Char} (hc : HasMeaning c) (t : Text) :
    (fillWith f t).getLast? = some c ↔ t.getLast? = some c := by
  rcases List.eq_nil_or_concat t with rfl | ⟨t, d, rfl⟩
  · rfl
  · rw [List.concat_eq_append, fillWith_append, List.getLast?_concat]
    by_cases hd : d = wildcard
    · obtain ⟨hne, hmark⟩ := hf (0 + t.count wildcard)
      have hlast : ∀ x, (f (0 + t.count wildcard)).getLast? = some x → x ≠ c := by
        rintro x hx rfl
        exact (hmark x (List.mem_of_getLast? hx)).1 hc
      rw [hd, fillWith_wildcard, fillWith_nil, List.append_nil, List.getLast?_append,
        List.getLast?_eq_some_getLast hne, Option.some_or]
      simpa [Ne.symm hc.ne_wildcard] using hlast _ (List.getLast?_eq_some_getLast hne)
    · rw [fillWith_cons _ hd, fillWith_nil, List.getLast?_concat]

theorem fillWith_eq_nil_iff {t : Text} : fillWith f t = [] ↔ t = [] := by
  cases t with
  | nil => simp [fillWith_nil]
  | cons c t =>
    by_cases hc : c = wildcard
    · simp [hc, fillWith_wildcard, (hf 0).1]
    · simp [fillWith_cons f hc]

/-- Marks bring in no character that has a meaning. -/
theorem mem_fillWith {c : Char} (hc : HasMeaning c) {t : Text} (h : c ∈ fillWith f t) : c ∈ t := by
  induction t generalizing f with
  | nil => exact h
  | cons d t ih =>
    by_cases hd : d = wildcard
    · rw [hd, fillWith_wildcard] at h
      rcases List.mem_append.mp h with h | h
      · exact absurd hc ((hf 0).2 c h).1
      · exact List.mem_cons_of_mem _ (ih (fun n => hf (n + 1)) h)
    · rw [fillWith_cons f hd] at h
      rcases List.mem_cons.mp h with rfl | h
      · exact List.mem_cons_self
      · exact List.mem_cons_of_mem _ (ih hf h)

/-- Marks bring in no wildcards. -/
theorem not_mem_fillWith (t : Text) : wildcard ∉ fillWith f t := by
  induction t generalizing f with
  | nil => simp [fillWith_nil]
  | cons c t ih =>
    by_cases hc : c = wildcard
    · rw [hc, fillWith_wildcard, List.mem_append, not_or]
      exact ⟨fun h => ((hf 0).2 _ h).2 rfl, ih fun n => hf (n + 1)⟩
    · rw [fillWith_cons f hc, List.mem_cons, not_or]
      exact ⟨Ne.symm hc, ih hf⟩

theorem slash_fillWith (t : Text) : Path.slash (fillWith f t) = fillWith f (Path.slash t) := by
  induction t generalizing f with
  | nil => rfl
  | cons c t ih =>
    by_cases hc : c = wildcard
    · have hmark : Path.slash (f 0) = f 0 :=
        Path.slash_eq_self fun h => ((hf 0).2 _ h).1 (by decide)
      have hwild : Path.slash (wildcard :: t) = wildcard :: Path.slash t := rfl
      have happend (s : Text) : Path.slash (f 0 ++ s) = Path.slash (f 0) ++ Path.slash s :=
        List.map_append
      rw [hc, hwild, fillWith_wildcard, fillWith_wildcard, happend, hmark,
        ih fun n => hf (n + 1)]
    · have hslash : (if c = '\\' then '/' else c) ≠ wildcard := by
        split
        · decide
        · exact hc
      have hcons (t : Text) :
          Path.slash (c :: t) = (if c = '\\' then '/' else c) :: Path.slash t := rfl
      rw [fillWith_cons f hc, hcons, hcons, fillWith_cons f hslash, ih hf]

/-- A path has the same drive with marks. -/
theorem drive_fillWith (t : Text) : Path.drive (fillWith f t) = Path.drive t := by
  by_cases h : Path.drive t = []
  · by_cases hdrive : Path.drive (fillWith f t) = []
    · rw [hdrive, h]
    · -- Neither the letter nor the colon can come from a mark.
      obtain ⟨letter, rest, hletter, heq⟩ := Path.exists_of_drive_ne_nil hdrive
      have hhead : t.head? = some letter :=
        (head?_fillWith hf (.inr hletter) t).mp (by rw [heq]; rfl)
      obtain ⟨t, rfl⟩ := List.head?_eq_some_iff.mp hhead
      rw [fillWith_cons f (HasMeaning.ne_wildcard (.inr hletter)), List.cons.injEq] at heq
      have hcolon : t.head? = some ':' :=
        (head?_fillWith hf (by decide) t).mp (by rw [heq.2]; rfl)
      obtain ⟨t, rfl⟩ := List.head?_eq_some_iff.mp hcolon
      rw [Path.drive_cons hletter] at h
      cases h
  · obtain ⟨letter, rest, hletter, rfl⟩ := Path.exists_of_drive_ne_nil h
    rw [fillWith_drive f hletter, Path.drive_cons hletter, Path.drive_cons hletter]

/-- Marks cut no segment. -/
theorem flatMap_splitOn_fillAll {segments : List Text} (h : ∀ s ∈ segments, '/' ∉ s) :
    (fillAll f segments).flatMap (List.splitOn '/') = fillAll f segments := by
  induction segments generalizing f with
  | nil => rfl
  | cons s segments ih =>
    have hslash : '/' ∉ fillWith f s := fun hmem =>
      h s List.mem_cons_self (mem_fillWith hf (by decide) hmem)
    rw [fillAll_cons, List.flatMap_cons, List.splitOn_eq_singleton hslash,
      ih (fun n => hf _) fun t ht => h t (List.mem_cons_of_mem _ ht), List.singleton_append]

/-- The pieces of a path with marks are its pieces with marks. -/
theorem splitOn_fillWith_of_isMark (p : Text) :
    (fillWith f p).splitOn '/' = fillAll f (p.splitOn '/') := by
  rw [splitOn_fillWith, flatMap_splitOn_fillAll hf fun _ hs => Path.not_mem_of_mem_splitOn hs]

/-- A segment with marks is blank when it is blank without, and a `..` likewise. -/
theorem moves_fillWith (s : Text) :
    (Path.IsBlank (fillWith f s) ↔ Path.IsBlank s) ∧
      (fillWith f s = ['.', '.'] ↔ s = ['.', '.']) := by
  by_cases hs : wildcard ∈ s
  · -- A mark stands in the segment, and a wildcard in the one without marks.
    obtain ⟨c, hc, hdot⟩ : ∃ c ∈ fillWith f s, c ≠ '.' := by
      obtain ⟨front, back, rfl⟩ := List.append_of_mem hs
      obtain ⟨c, mark, hmark, hc, -⟩ := (hf (0 + front.count wildcard)).exists_cons
      refine ⟨c, ?_, fun h => hc (h ▸ by decide)⟩
      rw [fillWith_append, fillWith_wildcard, hmark]
      simp
    have hplain {t : Text} {x : Char} (hx : x ∈ t) (hne : x ≠ '.') :
        ¬Path.IsBlank t ∧ t ≠ ['.', '.'] := by
      refine ⟨?_, ?_⟩
      · rintro (rfl | rfl) <;> simp_all
      · rintro rfl
        simp_all
    have hfilled := hplain hc hdot
    have hwild := hplain hs (by decide)
    exact ⟨iff_of_false hfilled.1 hwild.1, iff_of_false hfilled.2 hwild.2⟩
  · rw [fillWith_eq_self f hs]
    exact ⟨Iff.rfl, Iff.rfl⟩

theorem climb_fillAll (segments : List Text) :
    Path.climb (fillAll f segments) = Path.climb segments := by
  induction segments generalizing f with
  | nil => rfl
  | cons s segments ih =>
    simp only [fillAll_cons, Path.climb, moves_fillWith hf, ih fun n => hf _]

end Marked

/-! ### Which wildcards are folded away -/

/-- Nothing climbs out of a segment with a wildcard. -/
def WildcardsSurvive (segments : List Text) : Prop :=
  ∀ s after, s :: after <:+ segments → wildcard ∈ s → Path.climb after = 0

/-- Out of each segment with a wildcard climbs what comes behind it. -/
def WildcardsPerish (behind segments : List Text) : Prop :=
  ∀ s after, s :: after <:+ segments → wildcard ∈ s → Path.climb (after ++ behind) ≠ 0

section Fate

variable {s : Text} {behind segments : List Text}

/-- What holds of each segment and those behind it holds of the first and of the others. -/
theorem forall_suffix_cons_iff {P : Text → List Text → Prop} :
    (∀ t after, t :: after <:+ s :: segments → P t after) ↔
      P s segments ∧ ∀ t after, t :: after <:+ segments → P t after := by
  constructor
  · intro h
    exact ⟨h s segments (List.suffix_refl _), fun t after hsuffix =>
      h t after (hsuffix.trans (List.suffix_cons s segments))⟩
  · rintro ⟨hs, hsegments⟩ t after hsuffix
    rcases List.suffix_cons_iff.mp hsuffix with heq | hsuffix
    · obtain ⟨rfl, rfl⟩ := List.cons.inj heq
      exact hs
    · exact hsegments t after hsuffix

theorem wildcardsSurvive_cons_iff :
    WildcardsSurvive (s :: segments) ↔
      (wildcard ∈ s → Path.climb segments = 0) ∧ WildcardsSurvive segments :=
  forall_suffix_cons_iff

theorem wildcardsPerish_cons_iff :
    WildcardsPerish behind (s :: segments) ↔
      (wildcard ∈ s → Path.climb (segments ++ behind) ≠ 0) ∧ WildcardsPerish behind segments :=
  forall_suffix_cons_iff

/-- A segment with a wildcard is a name. -/
theorem entry_of_wildcard_mem (h : wildcard ∈ s) : ¬Path.IsBlank s ∧ s ≠ ['.', '.'] := by
  constructor
  · rintro (rfl | rfl) <;> revert h <;> decide
  · rintro rfl
    revert h
    decide

/-- A segment without wildcards adds none, kept or not. -/
theorem count_kept_cons (hs : wildcard ∉ s) :
    (Path.kept behind (s :: segments)).flatten.count wildcard =
      (Path.kept behind segments).flatten.count wildcard := by
  rw [Path.kept]
  split
  · rfl
  · simp [List.count_eq_zero_of_not_mem hs]

theorem count_kept_le (behind segments : List Text) :
    (Path.kept behind segments).flatten.count wildcard ≤ segments.flatten.count wildcard := by
  induction segments with
  | nil => simp [Path.kept]
  | cons s segments ih =>
    rw [Path.kept]
    split <;> simp only [List.flatten_cons, List.count_append] <;> omega

/-- **All wildcards survive** when as many are left as there were. -/
theorem count_kept_eq_iff :
    (Path.kept [] segments).flatten.count wildcard = segments.flatten.count wildcard ↔
      WildcardsSurvive segments := by
  induction segments with
  | nil => simp [Path.kept, WildcardsSurvive]
  | cons s segments ih =>
    rw [wildcardsSurvive_cons_iff, ← ih]
    by_cases hs : wildcard ∈ s
    · obtain ⟨hblank, hup⟩ := entry_of_wildcard_mem hs
      have hpositive : 0 < s.count wildcard := List.count_pos_iff.mpr hs
      have hle := count_kept_le [] segments
      by_cases hclimb : Path.climb segments = 0
      · rw [Path.kept_name _ _ hblank hup (by simpa using hclimb)]
        simp [hclimb]
      · rw [Path.kept_of_climb _ _ (by simpa using hclimb)]
        simp only [List.flatten_cons, List.count_append, hs, hclimb]
        refine iff_of_false (by omega) (by simp)
    · rw [count_kept_cons hs]
      simp [hs, List.count_eq_zero_of_not_mem hs]

/-- **All wildcards perish** when none are left. -/
theorem count_kept_eq_zero_iff :
    (Path.kept behind segments).flatten.count wildcard = 0 ↔ WildcardsPerish behind segments := by
  induction segments with
  | nil => simp [Path.kept, WildcardsPerish]
  | cons s segments ih =>
    rw [wildcardsPerish_cons_iff, ← ih]
    by_cases hs : wildcard ∈ s
    · obtain ⟨hblank, hup⟩ := entry_of_wildcard_mem hs
      have hpositive : 0 < s.count wildcard := List.count_pos_iff.mpr hs
      by_cases hclimb : Path.climb (segments ++ behind) = 0
      · rw [Path.kept_name _ _ hblank hup hclimb]
        simp only [List.flatten_cons, List.count_append, hs, hclimb]
        refine iff_of_false (by omega) (by simp)
      · rw [Path.kept_of_climb _ _ hclimb]
        simp [hclimb]
    · rw [count_kept_cons hs]
      simp [hs]

end Fate

/-! ### Folding and marking -/

section Marked

variable {f : Nat → Text} (hf : ∀ n, IsMark (f n))

include hf

/-- Where all wildcards survive, names are kept with their marks. -/
theorem kept_fillAll {segments : List Text} (h : WildcardsSurvive segments) :
    Path.kept [] (fillAll f segments) = fillAll f (Path.kept [] segments) := by
  induction segments generalizing f with
  | nil => rfl
  | cons s segments ih =>
    obtain ⟨hs, hsegments⟩ := wildcardsSurvive_cons_iff.mp h
    have hrest := ih (fun n => hf (n + s.count wildcard)) hsegments
    have hclimb := climb_fillAll (f := fun n => f (n + s.count wildcard)) (fun n => hf _) segments
    by_cases hwild : wildcard ∈ s
    · -- The segment is kept, for what is behind it climbs no further with marks.
      obtain ⟨hblank, hup⟩ := entry_of_wildcard_mem hwild
      rw [fillAll_cons, Path.kept_name _ _ hblank hup (by simpa using hs hwild),
        Path.kept_name _ _ (mt (moves_fillWith hf s).1.mp hblank)
          (mt (moves_fillWith hf s).2.mp hup) (by simpa [hclimb] using hs hwild),
        hrest, fillAll_cons]
    · -- Kept or not, the segment uses up no mark.
      have hcount : (fun n => f (n + s.count wildcard)) = f := by
        rw [List.count_eq_zero_of_not_mem hwild]
        rfl
      rw [hcount] at hrest hclimb
      rw [fillAll_cons_of_not_mem f hwild]
      simp only [Path.kept, List.append_nil, hclimb]
      split
      · exact hrest
      · rw [fillAll_cons_of_not_mem f hwild, hrest]

/-- **Folding and marking in either order**: those of the segments in front that are left have no
wildcard, and all wildcards of the others survive. -/
theorem fold_fillAll (absolute : Bool) {front segments : List Text}
    (hfront : WildcardsPerish segments front) (h : WildcardsSurvive segments) :
    Path.fold absolute (front ++ fillAll f segments) =
      fillAll f (Path.fold absolute (front ++ segments)) := by
  have hclimb := climb_fillAll hf segments
  have hleft : ∀ s ∈ Path.kept segments front, wildcard ∉ s := by
    intro s hs hmem
    have hzero := count_kept_eq_zero_iff.mpr hfront
    exact List.count_eq_zero.mp hzero (List.mem_flatten_of_mem hs hmem)
  have hclimbs : ∀ s ∈ List.replicate (if absolute then 0 else Path.climb (front ++ segments))
      ['.', '.'], wildcard ∉ s := by
    intro s hs
    rw [List.eq_of_mem_replicate hs]
    decide
  rw [Path.fold_eq, Path.fold_eq, Path.climb_append_congr hclimb, Path.kept_append,
    Path.kept_append, List.append_nil, List.append_nil, Path.kept_congr hclimb, kept_fillAll hf h,
    fillAll_append_of_not_mem f hclimbs, fillAll_append_of_not_mem f hleft]

end Marked

end Template

end ImportAlias
