import ImportAlias.Proofs.Path.Absolute
import ImportAlias.Proofs.Path.Climb

/-!
# Where a path leads

A path is read here as directions: from a directory, given by its place, each name enters a
directory, `..` leaves one and stops at the root, and a leading separator starts over at the root
(`walk`).

Normalizing changes none of this (`walk_normalize`), and it leaves nothing to be left out: no blank
segment, and no `..` but at the start of a relative path (`isCanonical_of_isWritten`). So paths have
one normal form for each way to lead (`normalize_eq_iff`): a walk shows how far a relative path
climbs before it descends and into which names, since a start that is deep enough and shares no name
with the path tells the two apart (`climbs_unique`).
-/

namespace ImportAlias

namespace Path

/-! ### Walking -/

/-- One segment of a walk. A blank one stays, `..` leaves the directory, and a name enters one. -/
def step (dir : List Text) (s : Text) : List Text :=
  if IsBlank s then dir else if s = ['.', '.'] then dir.dropLast else dir ++ [s]

/-- The directory in which a walk along the path ends. -/
def walk (dir : List Text) (p : Text) : List Text := (p.splitOn '/').foldl step (origin dir p)

section Step

variable {s : Text} (dir : List Text)

theorem step_blank (h : IsBlank s) : step dir s = dir := if_pos h

@[simp] theorem step_up : step dir ['.', '.'] = dir.dropLast := by
  rw [step, if_neg not_isBlank_up, if_pos rfl]

theorem step_entry (hblank : ¬IsBlank s) (hup : s ≠ ['.', '.']) : step dir s = dir ++ [s] := by
  rw [step, if_neg hblank, if_neg hup]

end Step

theorem take_dropLast (dir : List Text) (n : Nat) :
    dir.dropLast.take (dir.dropLast.length - n) = dir.take (dir.length - (n + 1)) := by
  rw [List.length_dropLast, List.dropLast_eq_take, List.take_take]
  congr 1
  omega

/-- **Where a walk ends**: it leaves as many directories as it climbs, down to the root, and enters
the names that are kept. -/
theorem foldl_step_eq (dir segments : List Text) :
    segments.foldl step dir = dir.take (dir.length - climb segments) ++ kept [] segments := by
  induction segments generalizing dir with
  | nil => simp [climb, kept]
  | cons s segments ih =>
    rw [List.foldl_cons, ih]
    by_cases hblank : IsBlank s
    · rw [step_blank _ hblank, climb_blank _ hblank, kept_blank _ _ hblank]
    by_cases hup : s = ['.', '.']
    · subst hup
      rw [step_up, climb_up, kept_up, take_dropLast]
    · rw [step_entry _ hblank hup, climb_name _ hblank hup]
      cases hclimb : climb segments with
      | zero =>
        rw [kept_name [] segments hblank hup (by simpa using hclimb), Nat.zero_sub, Nat.sub_zero,
          Nat.sub_zero, List.take_length, List.take_length, List.append_assoc,
          List.singleton_append]
      | succ n =>
        -- The walk leaves the name again, so what it entered before is all that counts.
        have hlength : (dir ++ [s]).length - (n + 1) = dir.length - n := by simp
        rw [hlength, List.take_append_of_le_length (by omega), Nat.add_sub_cancel,
          kept_of_climb [] segments (by simp [hclimb])]

/-- From the root a walk ends in the names that are kept. -/
theorem foldl_step_root (segments : List Text) : segments.foldl step [] = kept [] segments := by
  rw [foldl_step_eq, List.take_nil, List.nil_append]

/-- Names are entered one after another. -/
theorem foldl_step_names {names : List Text} (h : ∀ s ∈ names, IsName s) (dir : List Text) :
    names.foldl step dir = dir ++ names := by
  induction names generalizing dir with
  | nil => simp
  | cons s names ih =>
    have hs : IsName s := h s List.mem_cons_self
    rw [List.foldl_cons, step_entry _ hs.not_isBlank hs.2.2.1,
      ih fun t ht => h t (List.mem_cons_of_mem _ ht), List.append_assoc, List.singleton_append]

/-- Each climb leaves one directory. -/
theorem foldl_step_climbs (climbs : Nat) (dir : List Text) :
    (List.replicate climbs ['.', '.']).foldl step dir = dir.take (dir.length - climbs) := by
  induction climbs generalizing dir with
  | zero => simp
  | succ climbs ih =>
    rw [List.replicate_succ, List.foldl_cons, step_up, ih, take_dropLast]

/-- Blank segments can be left out of a walk. -/
theorem foldl_step_moves (segments dir : List Text) :
    (moves segments).foldl step dir = segments.foldl step dir := by
  induction segments generalizing dir with
  | nil => rfl
  | cons s segments ih =>
    by_cases hblank : IsBlank s
    · rw [moves_cons_of_isBlank hblank, ih, List.foldl_cons, step_blank _ hblank]
    · rw [moves_cons hblank, List.foldl_cons, List.foldl_cons, ih]

/-! ### Walking along a normal form -/

/-- The names that are kept are no blank segments and no climbs. -/
theorem of_mem_kept {behind segments : List Text} {s : Text} (h : s ∈ kept behind segments) :
    s ∈ segments ∧ ¬IsBlank s ∧ s ≠ ['.', '.'] := by
  induction segments with
  | nil => cases h
  | cons t segments ih =>
    rw [kept] at h
    split at h
    · exact (ih h).imp_left (List.mem_cons_of_mem _)
    · rename_i ht
      rcases List.mem_cons.mp h with rfl | h
      · exact ⟨List.mem_cons_self, fun hblank => ht (.inl hblank), fun hup => ht (.inr (.inl hup))⟩
      · exact (ih h).imp_left (List.mem_cons_of_mem _)

/-- The names that are kept name entries of directories. -/
theorem isName_of_mem_kept {behind segments : List Text} (hsegments : ∀ s ∈ segments, '/' ∉ s)
    {s : Text} (h : s ∈ kept behind segments) : IsName s := by
  obtain ⟨hmem, hblank, hup⟩ := of_mem_kept h
  obtain ⟨hnil, hdot⟩ := not_or.mp hblank
  exact ⟨hnil, hdot, hup, hsegments s hmem⟩

variable {p q : Text}

theorem origin_normalize (dir : List Text) (p : Text) :
    origin dir (normalize p) = origin dir p := by
  simp only [origin, beq_iff_eq, head?_normalize]

/-- A walk along folded segments ends where a walk along the segments does. An absolute path has
lost its climbs, and starts where none can be made. -/
theorem foldl_step_fold {absolute : Bool} {segments dir : List Text}
    (hsegments : ∀ s ∈ segments, '/' ∉ s) (hdir : absolute = true → dir = []) :
    (fold absolute segments).foldl step dir = segments.foldl step dir := by
  have hkept : ∀ s ∈ kept [] segments, IsName s := fun _ => isName_of_mem_kept hsegments
  rw [fold_eq, List.foldl_append, foldl_step_climbs, foldl_step_names hkept, foldl_step_eq]
  cases absolute with
  | true => simp [hdir rfl]
  | false => rfl

/-- **A path leads where its normal form leads**, from any directory. -/
theorem walk_normalize (dir : List Text) (p : Text) : walk dir (normalize p) = walk dir p := by
  have horigin : (p.head? == some '/') = true → origin dir p = [] := fun hhead => if_pos hhead
  rw [walk, origin_normalize, ← foldl_step_moves, ← names, names_normalize]
  exact foldl_step_fold (fun _ => not_mem_of_mem_splitOn) horigin

/-! ### Canonical texts -/

/-- Nothing can be left out of the path. -/
structure IsCanonical (p : Text) : Prop where
  ne_nil : p ≠ []
  /-- No segment is empty. What stands before a leading and behind a trailing separator is none. -/
  no_empty : [] ∉ (p.splitOn '/').tail.dropLast
  /-- No segment is `.`, except where the path is nothing else. -/
  no_dot : p ≠ ['.'] → p ≠ ['.', '/'] → ['.'] ∉ p.splitOn '/'
  /-- Only a relative path climbs, and it climbs first. -/
  climbs_first : ∃ climbs rest, p.splitOn '/' = List.replicate climbs ['.', '.'] ++ rest ∧
    ['.', '.'] ∉ rest ∧ (p.head? = some '/' → climbs = 0)

/-- What stands between the first and the last piece of a written form is one of its segments. -/
private theorem mem_segments_of_inner {segments : List Text} (hne : segments ≠ [])
    {before after : Bool} {s : Text}
    (h : s ∈ ((if before then [[]] else []) ++ segments ++
      (if after then [[]] else [])).tail.dropLast) : s ∈ segments := by
  obtain ⟨first, rest, rfl⟩ := List.exists_cons_of_ne_nil hne
  cases before <;> cases after <;> simp only [if_true, if_false, Bool.false_eq_true,
    List.nil_append, List.append_nil, List.cons_append, List.tail_cons] at h
  · exact List.mem_cons_of_mem _ (List.dropLast_subset _ h)
  · rw [List.dropLast_concat] at h
    exact List.mem_cons_of_mem _ h
  · exact List.dropLast_subset _ h
  · rw [← List.cons_append, List.dropLast_concat] at h
    exact h

/-- What is written from a folded form is canonical. -/
theorem isCanonical_of_isWritten (h : IsWritten p) : IsCanonical p := by
  obtain ⟨f, hf, rfl⟩ := h
  by_cases hne : f.segments = []
  · rw [Form.render, if_pos hne]
    cases f.absolute <;> cases f.trailing <;>
      exact ⟨by decide, by decide, by decide, 0, _, rfl, by decide, fun _ => rfl⟩
  have hpieces := Form.splitOn_render hf hne
  have hends (b : Bool) {s : Text} (hs : s ∈ (if b then [[]] else [] : List Text)) : s = [] := by
    cases b <;> simp_all
  refine ⟨fun hnil => ?_, fun hmem => ?_, fun _ _ hmem => ?_, ?_⟩
  · obtain ⟨first, hfirst⟩ := List.exists_mem_of_ne_nil _ hne
    have hmem : first ∈ f.render.splitOn '/' := by simp [hpieces, hfirst]
    rw [hnil, List.splitOn_nil, List.mem_singleton] at hmem
    exact (hf.segment_ok hfirst).1 hmem
  · rw [hpieces] at hmem
    exact (hf.segment_ok (mem_segments_of_inner hne hmem)).1 rfl
  · rw [hpieces, List.mem_append, List.mem_append] at hmem
    rcases hmem with (hmem | hmem) | hmem
    · cases hends _ hmem
    · rcases Folded.mem hf hmem with hup | hname
      · cases hup
      · exact hname.2.1 rfl
    · cases hends _ hmem
  · obtain ⟨climbs, names, hsegments, hnames, habsolute⟩ := id hf
    have hup : ['.', '.'] ∉ names ++ (if f.trailing then [[]] else []) := by
      intro hmem
      rcases List.mem_append.mp hmem with hmem | hmem
      · exact (hnames _ hmem).2.2.1 rfl
      · cases hends _ hmem
    rw [hpieces, hsegments, Form.head?_render hf]
    cases hroot : f.absolute with
    | true =>
      obtain rfl := habsolute hroot
      exact ⟨0, _, rfl, by simpa using hup, fun _ => rfl⟩
    | false => exact ⟨climbs, _, by simp, hup, by simp⟩

/-! ### One normal form for each way to lead -/

/-- The path leads to the root from anywhere. -/
def LeadsToRoot (p : Text) : Prop := ∀ dir, walk dir p = []

/-- The paths lead to the same directory from each one. -/
def SameWalks (p q : Text) : Prop :=
  ∀ dir, (∀ s ∈ dir, IsName s) → walk dir p = walk dir q

theorem walk_of_absolute (h : p.head? = some '/') (dir : List Text) :
    walk dir p = kept [] (p.splitOn '/') := by
  have horigin : origin dir p = [] := by simp [origin, h]
  rw [walk, horigin, foldl_step_root]

theorem walk_of_relative (h : p.head? ≠ some '/') (dir : List Text) :
    walk dir p =
      dir.take (dir.length - climb (p.splitOn '/')) ++ kept [] (p.splitOn '/') := by
  have horigin : origin dir p = dir := by simp [origin, h]
  rw [walk, horigin, foldl_step_eq]

/-- A path leads to the root when it starts there and keeps no name. -/
theorem leadsToRoot_iff :
    LeadsToRoot p ↔ (Form.ofText p).absolute ∧ (Form.ofText p).segments = [] := by
  by_cases hhead : p.head? = some '/'
  · simp [LeadsToRoot, walk_of_absolute hhead, Form.ofText, hhead, fold_eq]
  · refine iff_of_false (fun hroot => ?_) (by simp [Form.ofText, hhead])
    -- One directory more than the path climbs is left.
    have hwalk := hroot (List.replicate (climb (p.splitOn '/') + 1) ['x'])
    simp [walk_of_relative hhead] at hwalk

/-- Only the root gains a separator at its end by being normalized. -/
theorem getLast?_normalize :
    (normalize p).getLast? = some '/' ↔ p.getLast? = some '/' ∨ LeadsToRoot p := by
  rw [normalize, Form.getLast?_render (Form.isFolded_ofText p), leadsToRoot_iff]
  simp [Form.ofText]

/-- There is always one more name. -/
theorem exists_isName_not_mem (segments : List Text) : ∃ s, IsName s ∧ s ∉ segments := by
  refine ⟨List.replicate (segments.flatten.length + 1) 'x', ⟨by simp, ?_, ?_, by simp⟩, fun h => ?_⟩
  · simp [List.replicate_succ]
  · simp [List.replicate_succ]
  · have hlength := (List.sublist_flatten_of_mem h).length_le
    rw [List.length_replicate] at hlength
    omega

/-- **Climbs and names can be told from where a walk ends**, given that it may start anywhere. -/
theorem climbs_unique {climbs climbs' : Nat} {names names' : List Text}
    (h : ∀ dir : List Text, (∀ s ∈ dir, IsName s) →
      dir.take (dir.length - climbs) ++ names = dir.take (dir.length - climbs') ++ names') :
    climbs = climbs' ∧ names = names' := by
  obtain ⟨s, hs, hfresh⟩ := exists_isName_not_mem (names ++ names')
  obtain ⟨hnames, hnames'⟩ := not_or.mp (fun hmem => hfresh (List.mem_append.mpr hmem))
  -- Deep in directories of a name that the path does not have, each climb can be counted.
  have hwalk := h (List.replicate (climbs + climbs') s) fun t ht =>
    (List.eq_of_mem_replicate ht).symm ▸ hs
  rw [List.length_replicate, List.take_replicate, List.take_replicate] at hwalk
  have hcount := congrArg (List.count s) hwalk
  rw [List.count_append, List.count_append, List.count_replicate_self, List.count_replicate_self,
    List.count_eq_zero_of_not_mem hnames, List.count_eq_zero_of_not_mem hnames'] at hcount
  obtain rfl : climbs = climbs' := by omega
  exact ⟨rfl, List.append_cancel_left hwalk⟩

/-- Paths that start alike and lead alike have the same folded segments. -/
theorem segments_eq_of_sameWalks (habsolute : p.head? = some '/' ↔ q.head? = some '/')
    (h : SameWalks p q) : (Form.ofText p).segments = (Form.ofText q).segments := by
  by_cases hhead : p.head? = some '/'
  · have hwalk := h [] (by simp)
    rw [walk_of_absolute hhead, walk_of_absolute (habsolute.mp hhead)] at hwalk
    simp [Form.ofText, hhead, habsolute.mp hhead, fold_eq, hwalk]
  · have hhead' : q.head? ≠ some '/' := fun hq => hhead (habsolute.mpr hq)
    obtain ⟨hclimb, hkept⟩ := climbs_unique fun dir hdir =>
      (walk_of_relative hhead dir).symm.trans ((h dir hdir).trans (walk_of_relative hhead' dir))
    simp [Form.ofText, hhead, hhead', fold_eq, hclimb, hkept]

/-- **When normal forms are the same**: the paths start alike and lead alike, and they end alike
unless they lead to the root. -/
theorem normalize_eq_iff :
    normalize p = normalize q ↔
      (p.head? = some '/' ↔ q.head? = some '/') ∧
      (LeadsToRoot p ∧ LeadsToRoot q ∨ (p.getLast? = some '/' ↔ q.getLast? = some '/')) ∧
      SameWalks p q := by
  constructor
  · intro h
    have hwalk (dir : List Text) : walk dir p = walk dir q := by
      rw [← walk_normalize, h, walk_normalize]
    refine ⟨by rw [← head?_normalize, h, head?_normalize], ?_, fun dir _ => hwalk dir⟩
    have hroot : LeadsToRoot p ↔ LeadsToRoot q := by simp only [LeadsToRoot, hwalk]
    by_cases hp : LeadsToRoot p
    · exact .inl ⟨hp, hroot.mp hp⟩
    · have hlast : p.getLast? = some '/' ∨ LeadsToRoot p ↔
          q.getLast? = some '/' ∨ LeadsToRoot q := by
        rw [← getLast?_normalize, h, getLast?_normalize]
      exact .inr (by simpa [hp, mt hroot.mpr hp] using hlast)
  · rintro ⟨habsolute, hends, hwalks⟩
    have hsegments := segments_eq_of_sameWalks habsolute hwalks
    rcases hends with ⟨hp, hq⟩ | hlast
    · obtain ⟨hp, hnil⟩ := leadsToRoot_iff.mp hp
      obtain ⟨hq, hnil'⟩ := leadsToRoot_iff.mp hq
      rw [normalize, normalize, Form.render, Form.render, if_pos hnil, if_pos hnil', if_pos hp,
        if_pos hq]
    · have hstart : (p.head? == some '/') = (q.head? == some '/') := by
        rw [Bool.eq_iff_iff, beq_iff_eq, beq_iff_eq, habsolute]
      have hend : (p.getLast? == some '/') = (q.getLast? == some '/') := by
        rw [Bool.eq_iff_iff, beq_iff_eq, beq_iff_eq, hlast]
      have hform : Form.ofText p = Form.ofText q := by
        simp only [Form.ofText, Form.mk.injEq] at hsegments ⊢
        exact ⟨hstart, hsegments, hend⟩
      rw [normalize, hform, normalize]

/-- **Normal forms are canonical.** A path leads where its normal form leads, and nothing can be
left out of that. It stays absolute or relative. Two paths have the same normal form exactly when
they are both absolute or both relative, both or neither end in a separator, unless they lead to
the root, and lead to the same directory from each one. -/
theorem normalize_canonical (p : Text) :
    (∀ dir, walk dir (normalize p) = walk dir p) ∧
      IsCanonical (normalize p) ∧
      isAbsolute .posix (normalize p) = isAbsolute .posix p ∧
      (∀ q, normalize p = normalize q ↔
        isAbsolute .posix p = isAbsolute .posix q ∧
        (LeadsToRoot p ∧ LeadsToRoot q ∨ (p.getLast? = some '/' ↔ q.getLast? = some '/')) ∧
        SameWalks p q) ∧
      normalize (normalize p) = normalize p := by
  refine ⟨fun dir => walk_normalize dir p, isCanonical_of_isWritten (isWritten_normalize p), ?_,
    fun q => ?_, normalize_normalize p⟩
  · rw [Bool.eq_iff_iff, isAbsolute_posix_iff, isAbsolute_posix_iff, head?_normalize]
  · rw [Bool.eq_iff_iff, isAbsolute_posix_iff, isAbsolute_posix_iff, normalize_eq_iff]

/-- A path that climbs out of its start and back into a directory of the same name. -/
example :
    normalize "a/../..//w/.".toList = "../w".toList ∧
      walk ["v".toList, "w".toList] "a/../..//w/.".toList = ["v".toList, "w".toList] ∧
      walk [] "a/../..//w/.".toList = ["w".toList] := by
  decide +kernel

end Path

end ImportAlias
