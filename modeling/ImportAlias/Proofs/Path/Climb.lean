import ImportAlias.Path.Anchor
import ImportAlias.Proofs.Path.Place

/-!
# What a walk keeps

Folding reads segments from the front and keeps a stack. Read from the back they say the same
without one: what comes behind a segment climbs so many directories above the place it starts from
(`climb`), and a name is kept exactly when that is none (`kept`). In this form the fate of each
segment is said by itself, and a list of segments can be cut anywhere.

The two readings agree (`fold_eq`): folded segments are the climbs that are left, which an absolute
path drops, and behind them the names that are kept.
-/

namespace ImportAlias

namespace Path

/-- The segments of a path as they are written, blank ones and `..` included. -/
def pieces : Platform → Text → List Text
  | .posix, p => p.splitOn '/'
  | .windows, p => (slash p).splitOn '/'

/-- How many directories above its start a walk along the segments climbs. A `..` climbs one more
than what comes behind it, and a name makes up for one climb behind it. -/
def climb : List Text → Nat
  | [] => 0
  | s :: segments =>
    if IsBlank s then climb segments
    else if s = ['.', '.'] then climb segments + 1
    else climb segments - 1

/-- The names that are left of the segments when `behind` comes behind them: those that the walk
does not climb out of. -/
def kept (behind : List Text) : List Text → List Text
  | [] => []
  | s :: segments =>
    if IsBlank s ∨ s = ['.', '.'] ∨ climb (segments ++ behind) ≠ 0 then kept behind segments
    else s :: kept behind segments

/-! ### One segment -/

section Segment

variable {s : Text} (behind segments : List Text)

theorem isBlank_nil : IsBlank [] := .inl rfl

theorem not_isBlank_up : ¬IsBlank ['.', '.'] := by decide

theorem climb_blank (h : IsBlank s) : climb (s :: segments) = climb segments := if_pos h

@[simp] theorem climb_up : climb (['.', '.'] :: segments) = climb segments + 1 := by
  rw [climb, if_neg not_isBlank_up, if_pos rfl]

theorem climb_name (hblank : ¬IsBlank s) (hup : s ≠ ['.', '.']) :
    climb (s :: segments) = climb segments - 1 := by
  rw [climb, if_neg hblank, if_neg hup]

theorem kept_blank (h : IsBlank s) : kept behind (s :: segments) = kept behind segments :=
  if_pos (.inl h)

@[simp] theorem kept_up : kept behind (['.', '.'] :: segments) = kept behind segments :=
  if_pos (.inr (.inl rfl))

/-- A name is left when what comes behind it climbs out of it. -/
theorem kept_of_climb (h : climb (segments ++ behind) ≠ 0) :
    kept behind (s :: segments) = kept behind segments :=
  if_pos (.inr (.inr h))

theorem kept_name (hblank : ¬IsBlank s) (hup : s ≠ ['.', '.'])
    (h : climb (segments ++ behind) = 0) :
    kept behind (s :: segments) = s :: kept behind segments := by
  rw [kept, if_neg]
  simp [hblank, hup, h]

theorem push_blank (absolute : Bool) (stack : List Text) (h : IsBlank s) :
    push absolute stack s = stack := if_pos h

theorem push_entry (absolute : Bool) (stack : List Text) (hblank : ¬IsBlank s)
    (hup : s ≠ ['.', '.']) : push absolute stack s = s :: stack := by
  simp only [IsBlank] at hblank
  simp [push, hblank, hup]

end Segment

/-! ### Cutting a walk -/

/-- All that counts of what comes behind is how far it climbs. -/
theorem climb_append_congr {xs ys : List Text} (h : climb xs = climb ys) (segments : List Text) :
    climb (segments ++ xs) = climb (segments ++ ys) := by
  induction segments with
  | nil => exact h
  | cons s segments ih => simp only [List.cons_append, climb, ih]

theorem kept_congr {xs ys : List Text} (h : climb xs = climb ys) (segments : List Text) :
    kept xs segments = kept ys segments := by
  induction segments with
  | nil => rfl
  | cons s segments ih => simp only [kept, ih, climb_append_congr h]

theorem kept_append (behind xs ys : List Text) :
    kept behind (xs ++ ys) = kept (ys ++ behind) xs ++ kept behind ys := by
  induction xs with
  | nil => rfl
  | cons s xs ih =>
    simp only [List.cons_append, kept, List.append_assoc, ih]
    split <;> rfl

/-- Segments that hold no `..` climb nowhere. -/
theorem climb_eq_zero {segments : List Text} (h : ['.', '.'] ∉ segments) : climb segments = 0 := by
  induction segments with
  | nil => rfl
  | cons s segments ih =>
    simp only [List.mem_cons, not_or] at h
    rw [climb, if_neg (Ne.symm h.1), ih h.2]
    split <;> rfl

/-! ### Folding -/

/-- **What folding leaves** on a stack of names over climbs: the names that are kept, over those of
the stack that the walk does not climb out of. Climbs past the stack are added in a relative
path. -/
theorem foldl_push_eq {absolute : Bool} {stack : List Text} (h : ∀ s ∈ stack, s ≠ ['.', '.'])
    (climbs : Nat) (segments : List Text) :
    segments.foldl (push absolute)
        (stack ++ List.replicate (if absolute then 0 else climbs) ['.', '.']) =
      (kept [] segments).reverse ++ (stack.drop (climb segments) ++
        List.replicate (if absolute then 0 else climbs + (climb segments - stack.length))
          ['.', '.']) := by
  induction segments generalizing stack climbs with
  | nil => simp [kept, climb]
  | cons s segments ih =>
    rw [List.foldl_cons]
    by_cases hblank : IsBlank s
    · rw [push_blank _ _ hblank, ih h, kept_blank _ _ hblank, climb_blank _ hblank]
    by_cases hup : s = ['.', '.']
    · subst hup
      rw [kept_up, climb_up]
      cases stack with
      | nil =>
        -- At the bottom a `..` is dropped from an absolute path and kept in a relative one.
        cases absolute with
        | true => simpa using ih h 0
        | false =>
          have hclimb := ih h (climbs + 1)
          simp only [Bool.false_eq_true, if_false, List.nil_append, List.drop_nil,
            List.length_nil, Nat.sub_zero] at hclimb ⊢
          rw [push_up_climbs, hclimb, Nat.add_right_comm, Nat.add_assoc]
      | cons name stack =>
        have hname : name ≠ ['.', '.'] := h name List.mem_cons_self
        have hpush (below : List Text) : push absolute (name :: below) ['.', '.'] = below := by
          simp [push, hname]
        rw [List.cons_append, hpush, ih fun s hs => h s (List.mem_cons_of_mem _ hs),
          List.drop_succ_cons, List.length_cons, Nat.add_sub_add_right]
    · rw [push_entry _ _ hblank hup, climb_name _ hblank hup, ← List.cons_append,
        ih (by simpa [hup] using h)]
      cases hclimb : climb segments with
      | zero => simp [kept_name [] segments hblank hup (by simpa using hclimb)]
      | succ n =>
        rw [kept_of_climb [] segments (by simp [hclimb]), List.drop_succ_cons, List.length_cons,
          Nat.add_sub_add_right, Nat.add_sub_cancel]

/-- Segments without `..` are put on the stack as they are, but for blank ones. -/
theorem foldl_push_of_not_mem {absolute : Bool} {segments : List Text}
    (h : ['.', '.'] ∉ segments) (stack : List Text) :
    segments.foldl (push absolute) stack = (moves segments).reverse ++ stack := by
  induction segments generalizing stack with
  | nil => rfl
  | cons s segments ih =>
    simp only [List.mem_cons, not_or] at h
    rw [List.foldl_cons, ih h.2]
    by_cases hblank : IsBlank s
    · rw [push_blank _ _ hblank, moves_cons_of_isBlank hblank]
    · rw [push_entry _ _ hblank (Ne.symm h.1), moves_cons hblank, List.reverse_cons,
        List.append_assoc, List.singleton_append]

/-- Blank segments fold away. -/
theorem fold_moves (absolute : Bool) (segments : List Text) :
    fold absolute (moves segments) = fold absolute segments := by
  have key : ∀ stack, (moves segments).foldl (push absolute) stack =
      segments.foldl (push absolute) stack := by
    induction segments with
    | nil => exact fun _ => rfl
    | cons s segments ih =>
      intro stack
      by_cases hblank : IsBlank s
      · rw [moves_cons_of_isBlank hblank, List.foldl_cons, push_blank _ _ hblank, ih]
      · rw [moves_cons hblank, List.foldl_cons, List.foldl_cons, ih]
  rw [fold, key, fold]

/-- **What folding leaves** is the climbs, which an absolute path drops, and then the names that
are kept. -/
theorem fold_eq (absolute : Bool) (segments : List Text) :
    fold absolute segments =
      List.replicate (if absolute then 0 else climb segments) ['.', '.'] ++ kept [] segments := by
  have hfold := @foldl_push_eq absolute [] (by simp) 0 segments
  simp only [ite_self, List.replicate_zero, List.append_nil, List.drop_nil, List.nil_append,
    List.length_nil, Nat.sub_zero, Nat.zero_add] at hfold
  rw [fold, hfold, List.reverse_append, List.reverse_reverse, List.reverse_replicate]

/-- **A joined path** is made of the segments of both operands, is absolute as the first of them
that is not empty and ends as the last of them does. -/
theorem join_eq (base segment : Text) :
    join base segment = Form.render
      { absolute := (base ++ segment).head? == some '/'
        segments := fold ((base ++ segment).head? == some '/')
          (base.splitOn '/' ++ segment.splitOn '/')
        trailing := (base ++ segment).getLast? == some '/' } := by
  cases base with
  | nil => simp [join, normalize, Form.ofText, fold]
  | cons c base =>
    cases segment with
    | nil => simp [join, normalize, Form.ofText, fold]
    | cons d segment =>
      have hlast : (c :: base ++ '/' :: d :: segment).getLast? =
          (c :: base ++ d :: segment).getLast? := by
        rw [List.getLast?_append, List.getLast?_append, List.getLast?_cons_cons]
      have hjoin : join (c :: base) (d :: segment) = normalize (c :: base ++ '/' :: d :: segment) :=
        rfl
      rw [hjoin, normalize, Form.ofText, List.splitOn_append_cons_self, hlast]
      rfl

/-! ### Reading back what was folded -/

/-- What moves in a written form are its segments. -/
theorem names_render {form : Form} (h : form.IsFolded) : names form.render = form.segments := by
  have hmoves : moves form.segments = form.segments := by
    refine List.filter_eq_self.mpr fun s hs => ?_
    rcases Folded.mem h hs with rfl | hname
    · decide
    · simpa using hname.not_isBlank
  have hblank (b : Bool) : moves (if b then [[]] else []) = [] := by cases b <;> rfl
  by_cases hne : form.segments = []
  · rw [Form.render, if_pos hne, hne]
    cases form.absolute <;> cases form.trailing <;> rfl
  · rw [names, Form.splitOn_render h hne, moves_append, moves_append, hblank, hblank, hmoves,
      List.nil_append, List.append_nil]

theorem names_normalize (p : Text) : names (normalize p) = (Form.ofText p).segments :=
  names_render (Form.isFolded_ofText p)

section Join

variable {base : Text} (hbase : base.head? = some '/') (p : Text)

include hbase

/-- What is joined to an absolute base is written from the folded segments of both. -/
theorem exists_render_eq_join :
    ∃ form : Form, form.IsFolded ∧ form.render = join base p ∧
      form.segments = fold true (base.splitOn '/' ++ p.splitOn '/') := by
  have habsolute : ((base ++ p).head? == some '/') = true := by
    simp [List.head?_append, hbase]
  have hfolded : Folded true (fold true (base.splitOn '/' ++ p.splitOn '/')) := by
    refine folded_fold true fun s hs => ?_
    rcases List.mem_append.mp hs with hs | hs
    · exact not_mem_of_mem_splitOn hs
    · exact not_mem_of_mem_splitOn hs
  rw [join_eq, habsolute]
  exact ⟨⟨true, _, _⟩, hfolded, rfl, rfl⟩

theorem names_join : names (join base p) = fold true (base.splitOn '/' ++ p.splitOn '/') := by
  obtain ⟨form, hfolded, hrender, hsegments⟩ := exists_render_eq_join hbase p
  rw [← hrender, names_render hfolded, hsegments]

theorem segments_join :
    (Form.ofText (join base p)).segments = fold true (base.splitOn '/' ++ p.splitOn '/') := by
  obtain ⟨form, hfolded, hrender, hsegments⟩ := exists_render_eq_join hbase p
  rw [← hrender, Form.ofText_render hfolded, hsegments]

end Join

end Path

end ImportAlias
