import Mathlib.Data.List.Infix
import ImportAlias.Proofs.Path.Place

/-!
# The directories on the way up

The directories around a path are found by cutting its text: the last component is taken off again
and again, and with it the separators and blank segments before it. What this comes to is said in
places. The directories are those of `upward`, the place of the path itself and then its initial
parts, down to the place that the path starts from, each once (`map_place_ascending`); only a path
that begins with `.` has the last of them twice, since `.` and the empty path are both of that
place. Each directory is written as a beginning of the path (`isPrefix_of_mem_ascending`).
-/

namespace ImportAlias

namespace Path

/-- The places of the directories that a path leads through, the nearest first: its own and those
around it, up to the place that it starts from. -/
def upward (cwd : List Text) (p : Text) : List (List Text) :=
  (names p).inits.reverse.map (origin cwd p ++ ·)

/-! ### Joined segments -/

/-- Joined segments begin with a separator exactly when the first of several is empty. -/
theorem head?_intercalate {s : Text} {segments : List Text} (hs : '/' ∉ s)
    (hne : s :: segments ≠ [[]]) :
    (['/'].intercalate (s :: segments)).head? = some '/' ↔ s = [] := by
  cases segments with
  | nil =>
    rw [List.intercalate_singleton]
    have hs' : s ≠ [] := fun h => hne (by rw [h])
    exact iff_of_false (fun h => hs (List.mem_of_head? h)) hs'
  | cons next segments =>
    rw [List.intercalate_cons_cons]
    cases s with
    | nil => simp
    | cons c s =>
      simp only [List.mem_cons, not_or] at hs
      simp [Ne.symm hs.1]

/-- The first of joined segments are joined at the beginning. -/
theorem intercalate_isPrefix {xs : List Text} (hxs : xs ≠ []) (ys : List Text) :
    ['/'].intercalate xs <+: ['/'].intercalate (xs ++ ys) := by
  induction xs with
  | nil => exact absurd rfl hxs
  | cons x xs ih =>
    cases xs with
    | nil =>
      cases ys with
      | nil => exact List.prefix_refl _
      | cons y ys =>
        rw [List.singleton_append, List.intercalate_singleton, List.intercalate_cons_cons,
          List.append_assoc]
        exact List.prefix_append _ _
    | cons x' xs =>
      rw [List.cons_append, List.cons_append, List.intercalate_cons_cons,
        List.intercalate_cons_cons]
      exact (List.prefix_append_right_inj _).mpr (ih (by simp))

/-! ### Directories by their pieces

The pieces of a path are its segments, the last one first. -/

theorem dropBlankPieces_eq {pieces : List Text} (hne : pieces ≠ []) :
    ∃ dropped kept, pieces = dropped ++ kept ∧ (∀ s ∈ dropped, IsBlank s) ∧ kept ≠ [] ∧
      dropBlankPieces pieces = kept := by
  induction pieces with
  | nil => exact absurd rfl hne
  | cons piece pieces ih =>
    cases pieces with
    | nil => exact ⟨[], [piece], rfl, by simp, by simp, rfl⟩
    | cons next pieces =>
      by_cases hblank : IsBlank piece
      · obtain ⟨dropped, kept, hpieces, hdropped, hkept, heq⟩ := ih (by simp)
        refine ⟨piece :: dropped, kept, by rw [hpieces]; rfl, ?_, hkept, ?_⟩
        · rintro s (- | ⟨-, hs⟩)
          · exact hblank
          · exact hdropped s hs
        · rw [dropBlankPieces]
          · exact (if_pos hblank).trans heq
          · simp
      · refine ⟨[], piece :: next :: pieces, rfl, by simp, by simp, ?_⟩
        rw [dropBlankPieces]
        · exact if_neg hblank
        · simp

section OfPieces

variable {pieces : List Text}

/-- A directory is written from its pieces without the blank ones at its end, and the root, of
which nothing would be left, as a separator. -/
theorem ofPieces_cases (hne : pieces ≠ []) (hslash : ∀ s ∈ pieces, '/' ∉ s) :
    ∃ dropped kept, pieces = dropped ++ kept ∧ (∀ s ∈ dropped, IsBlank s) ∧
      (kept = [[]] ∧ ofPieces pieces = ['/'] ∨
        kept ≠ [] ∧ kept ≠ [[]] ∧ ofPieces pieces = ['/'].intercalate kept.reverse ∧
          (ofPieces pieces).splitOn '/' = kept.reverse) := by
  obtain ⟨dropped, kept, hpieces, hdropped, hkept, heq⟩ := dropBlankPieces_eq hne
  refine ⟨dropped, kept, hpieces, hdropped, ?_⟩
  by_cases hroot : kept = [[]]
  · exact .inl ⟨hroot, by rw [ofPieces, heq, if_pos hroot]⟩
  · have hwritten : ofPieces pieces = ['/'].intercalate kept.reverse := by
      rw [ofPieces, heq, if_neg hroot]
    refine .inr ⟨hkept, hroot, hwritten, ?_⟩
    rw [hwritten]
    refine List.splitOn_intercalate '/' (fun s hs => hslash s ?_) (by simpa using hkept)
    rw [hpieces]
    exact List.mem_append_right _ (List.mem_reverse.mp hs)

theorem names_ofPieces (hne : pieces ≠ []) (hslash : ∀ s ∈ pieces, '/' ∉ s) :
    names (ofPieces pieces) = (moves pieces).reverse := by
  obtain ⟨dropped, kept, rfl, hdropped, ⟨rfl, hroot⟩ | ⟨-, -, -, hsplit⟩⟩ :=
    ofPieces_cases hne hslash
  · rw [hroot, moves_append, moves_eq_nil hdropped]
    rfl
  · rw [names, hsplit, moves_append, moves_eq_nil hdropped, moves_reverse, List.nil_append]

theorem head?_ofPieces (hne : pieces ≠ []) (hslash : ∀ s ∈ pieces, '/' ∉ s) :
    (ofPieces pieces).head? = some '/' ↔ pieces.getLast? = some [] := by
  obtain ⟨dropped, kept, rfl, -, ⟨rfl, hroot⟩ | ⟨hkept, hnotRoot, hwritten, -⟩⟩ :=
    ofPieces_cases hne hslash
  · rw [hroot]
    simp
  · obtain ⟨rest, first, rfl⟩ := List.eq_nil_or_concat kept |>.resolve_left hkept
    have hfirst : '/' ∉ first := hslash first (by simp)
    rw [hwritten]
    simp only [List.concat_eq_append, List.reverse_append, List.reverse_singleton,
      List.singleton_append, List.getLast?_append, List.getLast?_singleton, Option.some_or,
      Option.some.injEq]
    refine head?_intercalate hfirst fun hsingle => hnotRoot ?_
    simp only [List.cons.injEq, List.reverse_eq_nil_iff] at hsingle
    simp [hsingle]

/-- The place of a directory by its pieces. -/
theorem place_ofPieces (cwd : List Text) (hne : pieces ≠ []) (hslash : ∀ s ∈ pieces, '/' ∉ s) :
    place cwd (ofPieces pieces) =
      (if pieces.getLast? = some [] then [] else cwd) ++ (moves pieces).reverse := by
  rw [place, names_ofPieces hne hslash, origin]
  simp only [beq_iff_eq, head?_ofPieces hne hslash]

theorem descends_ofPieces (hne : pieces ≠ []) (hslash : ∀ s ∈ pieces, '/' ∉ s)
    (hup : ['.', '.'] ∉ pieces) : Descends (ofPieces pieces) := by
  obtain ⟨dropped, kept, rfl, -, ⟨rfl, hroot⟩ | ⟨-, -, -, hsplit⟩⟩ := ofPieces_cases hne hslash
  · rw [hroot]
    decide
  · rw [Descends, hsplit, List.mem_reverse]
    exact fun h => hup (List.mem_append_right _ h)

/-- A directory is written as a beginning of every path that leads through it. -/
theorem ofPieces_isPrefix (hne : pieces ≠ []) (hslash : ∀ s ∈ pieces, '/' ∉ s)
    {below : List Text} (hbelow : below ≠ []) :
    ofPieces pieces <+: ['/'].intercalate (below ++ pieces).reverse := by
  obtain ⟨dropped, kept, rfl, -, ⟨rfl, hroot⟩ | ⟨hkept, -, hwritten, -⟩⟩ :=
    ofPieces_cases hne hslash
  · rw [hroot, ← List.append_assoc, List.reverse_append, List.reverse_singleton,
      List.singleton_append]
    obtain ⟨s, segments, hsegments⟩ : ∃ s segments, (below ++ dropped).reverse = s :: segments :=
      List.exists_cons_of_ne_nil (by simp [hbelow])
    rw [hsegments, List.intercalate_cons_cons, List.nil_append]
    exact List.prefix_append _ _
  · rw [hwritten, ← List.append_assoc, List.reverse_append]
    exact intercalate_isPrefix (by simpa using hkept) _

end OfPieces

/-! ### The directories around a path -/

/-- A directory around a path is the empty path, or is written from pieces of the path with a piece
below them. -/
theorem cases_of_mem_enclosing {pieces : List Text} {dir : Text} (h : dir ∈ enclosing pieces) :
    dir = [] ∨ ∃ below above, pieces = below ++ above ∧ below ≠ [] ∧ above ≠ [] ∧
      dir = ofPieces above := by
  induction pieces with
  | nil => cases h
  | cons piece pieces ih =>
    cases pieces with
    | nil =>
      rw [enclosing] at h
      split at h
      · cases h
      · exact .inl (List.mem_singleton.mp h)
    | cons next pieces =>
      have hrest (h : dir ∈ enclosing (next :: pieces)) :
          dir = [] ∨ ∃ below above, piece :: next :: pieces = below ++ above ∧ below ≠ [] ∧
            above ≠ [] ∧ dir = ofPieces above := by
        rcases ih h with rfl | ⟨below, above, hpieces, -, habove, hdir⟩
        · exact .inl rfl
        · exact .inr ⟨piece :: below, above, by rw [hpieces]; rfl, by simp, habove, hdir⟩
      rw [enclosing] at h
      · split at h
        · exact hrest h
        · rcases List.mem_cons.mp h with rfl | h
          · exact .inr ⟨[piece], next :: pieces, rfl, by simp, by simp, rfl⟩
          · exact hrest h
      · simp

/-- **The places of the directories around a path**, whose pieces are given last first. -/
theorem map_place_enclosing (cwd : List Text) {pieces : List Text} (hne : pieces ≠ [])
    (hslash : ∀ s ∈ pieces, '/' ∉ s) :
    (enclosing pieces).map (place cwd) =
      ((moves pieces).tails.tail.map fun names =>
        (if pieces.getLast? = some [] then [] else cwd) ++ names.reverse) ++
      if pieces.getLast? = some ['.'] then [cwd] else [] := by
  induction pieces with
  | nil => exact absurd rfl hne
  | cons piece pieces ih =>
    cases pieces with
    | nil =>
      -- The first segment of the path: nothing is above an empty one, and the start above others.
      have hstart : place cwd [] = cwd := by simp [place, origin, names, moves, IsBlank]
      by_cases hnil : piece = []
      · simp [enclosing, hnil, moves, IsBlank]
      · by_cases hdot : piece = ['.']
        · simp [enclosing, hdot, hstart, moves, IsBlank]
        · simp [enclosing, hnil, hdot, hstart, moves, IsBlank]
    | cons next pieces =>
      have hrest : ∀ s ∈ next :: pieces, '/' ∉ s := fun s hs =>
        hslash s (List.mem_cons_of_mem _ hs)
      have ih := ih (by simp) hrest
      rw [List.getLast?_cons_cons]
      rw [enclosing]
      · by_cases hblank : IsBlank piece
        · rw [moves_cons_of_isBlank hblank]
          exact (congrArg _ (if_pos hblank)).trans ih
        · refine (congrArg _ (if_neg hblank)).trans ?_
          have htails : (moves (next :: pieces)).tails =
              moves (next :: pieces) :: (moves (next :: pieces)).tails.tail := by
            cases moves (next :: pieces) <;> rfl
          rw [moves_cons hblank, List.tails_cons, List.tail_cons, htails, List.map_cons, ih,
            place_ofPieces cwd (by simp) hrest]
          rfl
      · simp

section Ascending

variable {p : Text}

theorem pieces_of_path (p : Text) :
    (p.splitOn '/').reverse ≠ [] ∧ ∀ s ∈ (p.splitOn '/').reverse, '/' ∉ s :=
  ⟨by simp,
    fun _ hs => not_mem_of_mem_splitOn (List.mem_reverse.mp hs)⟩

/-- A path that is not empty starts at the root exactly when its first segment is empty. -/
theorem origin_eq (cwd : List Text) (hp : p ≠ []) :
    origin cwd p = if (p.splitOn '/').reverse.getLast? = some [] then [] else cwd := by
  obtain ⟨s, segments, hsegments⟩ := List.exists_cons_of_ne_nil (List.splitOn_ne_nil '/' p)
  have hp' : ['/'].intercalate (s :: segments) = p := by
    rw [← hsegments, List.intercalate_splitOn]
  have hs : '/' ∉ s := not_mem_of_mem_splitOn (hsegments ▸ List.mem_cons_self)
  have hhead : p.head? = some '/' ↔ s = [] := by
    rw [← hp']
    refine head?_intercalate hs fun hsingle => hp ?_
    rw [← hp', hsingle]
    rfl
  rw [origin, List.getLast?_reverse, hsegments]
  simp only [beq_iff_eq, hhead, List.head?_cons, Option.some.injEq]

/-- The place that a path starts from is the last on the way up. -/
theorem origin_mem_upward (cwd : List Text) (p : Text) : origin cwd p ∈ upward cwd p := by
  refine List.mem_map.mpr ⟨[], ?_, by simp⟩
  simp

/-- **The places on the way up**, each once, but for a path that begins with `.`. -/
theorem map_place_ascending (cwd : List Text) (p : Text) :
    (ascending p).map (place cwd) = upward cwd p ∨
      (ascending p).map (place cwd) = upward cwd p ++ [origin cwd p] := by
  obtain ⟨hne, hslash⟩ := pieces_of_path p
  have hmoves : moves (p.splitOn '/').reverse = (names p).reverse := moves_reverse _
  have hupward : upward cwd p =
      place cwd p :: ((names p).reverse.tails.tail.map fun names =>
        origin cwd p ++ names.reverse) := by
    have htails : (names p).reverse.tails =
        (names p).reverse :: (names p).reverse.tails.tail := by
      cases (names p).reverse <;> rfl
    rw [upward, List.inits_eq_tails, List.reverse_reverse, List.map_map, htails, List.map_cons,
      List.tail_cons, Function.comp_apply, List.reverse_reverse, place]
    rfl
  rw [hupward, ascending, List.map_cons, map_place_enclosing cwd hne hslash, hmoves]
  by_cases hp : p = []
  · subst hp
    left
    simp [names, moves, IsBlank]
  · rw [← origin_eq cwd hp]
    split
    · rename_i hdot
      right
      have horigin : origin cwd p = cwd := by rw [origin_eq cwd hp, hdot]; rfl
      rw [horigin]
      rfl
    · left
      rw [List.append_nil]

/-- A path that does not climb leads through directories whose paths do not climb either. -/
theorem descends_of_mem_ascending (hp : Descends p) {dir : Text} (h : dir ∈ ascending p) :
    Descends dir := by
  obtain ⟨-, hslash⟩ := pieces_of_path p
  rcases List.mem_cons.mp h with rfl | h
  · exact hp
  rcases cases_of_mem_enclosing h with rfl | ⟨below, above, hpieces, -, habove, rfl⟩
  · decide
  · have hmem : ∀ s ∈ above, s ∈ (p.splitOn '/').reverse := fun s hs =>
      hpieces ▸ List.mem_append_right _ hs
    exact descends_ofPieces habove (fun s hs => hslash s (hmem s hs))
      fun hup => hp (List.mem_reverse.mp (hmem _ hup))

/-- The directories on the way up are written as beginnings of the path. -/
theorem isPrefix_of_mem_ascending {dir : Text} (h : dir ∈ ascending p) : dir <+: p := by
  obtain ⟨-, hslash⟩ := pieces_of_path p
  rcases List.mem_cons.mp h with rfl | h
  · exact List.prefix_refl _
  rcases cases_of_mem_enclosing h with rfl | ⟨below, above, hpieces, hbelow, habove, rfl⟩
  · exact List.nil_prefix
  · have hprefix := ofPieces_isPrefix habove
      (fun s hs => hslash s (hpieces ▸ List.mem_append_right _ hs)) hbelow
    rwa [← hpieces, List.reverse_reverse, List.intercalate_splitOn] at hprefix

theorem place_mem_upward {dir : Text} (h : dir ∈ ascending p) (cwd : List Text) :
    place cwd dir ∈ upward cwd p := by
  have hmem := List.mem_map_of_mem (f := place cwd) h
  rcases map_place_ascending cwd p with hmap | hmap
  · exact hmap ▸ hmem
  · rw [hmap] at hmem
    rcases List.mem_append.mp hmem with hmem | horigin
    · exact hmem
    · rw [List.mem_singleton.mp horigin]
      exact origin_mem_upward cwd p

theorem mem_upward {cwd q : List Text} :
    q ∈ upward cwd p ↔ ∃ first, first <+: names p ∧ origin cwd p ++ first = q := by
  simp only [upward, List.mem_map, List.mem_reverse, List.mem_inits]

/-- The names of the directories on the way up are beginnings of those of the path. -/
theorem names_isPrefix_of_mem_ascending {dir : Text} (h : dir ∈ ascending p) :
    names dir <+: names p := by
  have horigin (q : Text) : origin [] q = [] := by
    rw [origin]
    split <;> rfl
  obtain ⟨first, hfirst, hplace⟩ := mem_upward.mp (place_mem_upward h [])
  rw [place, horigin, horigin, List.nil_append, List.nil_append] at hplace
  exact hplace ▸ hfirst

/-- All of them start where the path does. -/
theorem head?_of_mem_ascending {dir : Text} (h : dir ∈ ascending p) :
    dir.head? = some '/' ↔ p.head? = some '/' := by
  cases dir with
  | nil =>
    refine iff_of_false (nomatch ·) fun hroot => ?_
    -- The empty path leads to the working directory, whatever that is called.
    obtain ⟨first, hfirst, hplace⟩ := mem_upward.mp (place_mem_upward h [['/']])
    have horigin : origin [['/']] p = [] := by simp [origin, hroot]
    rw [horigin, List.nil_append] at hplace
    have hmem : ['/'] ∈ names p := hfirst.subset (by rw [hplace]; decide)
    exact not_mem_of_mem_splitOn (List.mem_of_mem_filter hmem) List.mem_cons_self
  | cons c dir =>
    obtain ⟨rest, rfl⟩ := isPrefix_of_mem_ascending h
    rfl

end Ascending

end Path

end ImportAlias
