import ImportAlias.Path.Anchor
import ImportAlias.Proofs.Path.Walk
import Mathlib.Data.List.Basic

/-!
# Joining in steps

Joining normalizes what it glues together, so a path that is put together from three parts is
normalized twice, and at which of its two seams first depends on the order. It makes no difference:
a walk along a glued path is a walk along its first part and then along its second, and a part leads
where its normal form leads (`walk_append`). So a part may be normalized before it is glued
(`normalize_append_left`, `normalize_append_right`), and joining is associative (`join_join`).

The part that comes behind has to be relative: behind a separator an absolute path no longer starts
over at the root, while its normal form has lost the climbs that it would then make.
-/

namespace ImportAlias

namespace Path

section Glued

variable {p q : Text}

/-- A walk along a glued path goes on where the first part ends. -/
theorem walk_append (hp : p ≠ []) (dir : List Text) (q : Text) :
    walk dir (p ++ '/' :: q) = (q.splitOn '/').foldl step (walk dir p) := by
  have horigin : origin dir (p ++ '/' :: q) = origin dir p := by
    obtain ⟨c, p, rfl⟩ := List.exists_cons_of_ne_nil hp
    rfl
  rw [walk, List.splitOn_append_cons_self, List.foldl_append, horigin, walk]

/-- Only an absolute path starts over. -/
theorem walk_eq_foldl (hp : p.head? ≠ some '/') (dir : List Text) :
    walk dir p = (p.splitOn '/').foldl step dir := by
  have horigin : origin dir p = dir := by simp [origin, hp]
  rw [walk, horigin]

/-- The first part of a glued path may be normalized before. -/
theorem normalize_append_left (hp : p ≠ []) (q : Text) :
    normalize (normalize p ++ '/' :: q) = normalize (p ++ '/' :: q) := by
  refine normalize_eq_iff.mpr ⟨?_, .inr ?_, fun dir _ => ?_⟩
  · rw [List.head?_append_of_ne_nil _ (normalize_ne_nil p), List.head?_append_of_ne_nil _ hp,
      head?_normalize]
  · rw [List.getLast?_append_cons, List.getLast?_append_cons]
  · rw [walk_append (normalize_ne_nil p), walk_append hp, walk_normalize]

/-- The second part of a glued path may be normalized before, if it is relative. -/
theorem normalize_append_right (hp : p ≠ []) (hq : q ≠ []) (hrelative : q.head? ≠ some '/') :
    normalize (p ++ '/' :: normalize q) = normalize (p ++ '/' :: q) := by
  have hnormal : (normalize q).head? ≠ some '/' := mt (head?_normalize q).mp hrelative
  have hroot : ¬LeadsToRoot q := fun h =>
    hrelative (by simpa [Form.ofText] using (leadsToRoot_iff.mp h).1)
  refine normalize_eq_iff.mpr ⟨?_, .inr ?_, fun dir _ => ?_⟩
  · rw [List.head?_append_of_ne_nil _ hp, List.head?_append_of_ne_nil _ hp]
  · rw [List.getLast?_append_cons, List.getLast?_append_cons,
      List.getLast?_cons_of_ne_nil (normalize_ne_nil q), List.getLast?_cons_of_ne_nil hq,
      getLast?_normalize, or_iff_left hroot]
  · rw [walk_append hp, walk_append hp, ← walk_eq_foldl hnormal, ← walk_eq_foldl hrelative,
      walk_normalize]

end Glued

/-! ### Three parts -/

theorem join_nil_left (p : Text) : join [] p = normalize p := by cases p <;> rfl

theorem join_nil_right (base : Text) : join base [] = normalize base := by cases base <;> rfl

theorem join_of_ne_nil {base p : Text} (hbase : base ≠ []) (hp : p ≠ []) :
    join base p = normalize (base ++ '/' :: p) := by
  obtain ⟨c, base, rfl⟩ := List.exists_cons_of_ne_nil hbase
  obtain ⟨d, p, rfl⟩ := List.exists_cons_of_ne_nil hp
  rfl

/-- A joined path starts as its base does. -/
theorem head?_join_iff {base : Text} (hbase : base ≠ []) (p : Text) :
    (join base p).head? = some '/' ↔ base.head? = some '/' := by
  by_cases hp : p = []
  · rw [hp, join_nil_right, head?_normalize]
  · rw [join_of_ne_nil hbase hp, head?_normalize, List.head?_append_of_ne_nil _ hbase]

/-- Joining begins with normalizing the base. -/
theorem join_normalize_left {base : Text} (hbase : base ≠ []) (p : Text) :
    join (normalize base) p = join base p := by
  by_cases hp : p = []
  · rw [hp, join_nil_right, join_nil_right, normalize_normalize]
  · rw [join_of_ne_nil (normalize_ne_nil base) hp, join_of_ne_nil hbase hp,
      normalize_append_left hbase]

/-- Joining normalizes a relative path. -/
theorem join_normalize_right {p : Text} (hp : p ≠ []) (hrelative : p.head? ≠ some '/')
    (base : Text) : join base (normalize p) = join base p := by
  by_cases hbase : base = []
  · rw [hbase, join_nil_left, join_nil_left, normalize_normalize]
  · rw [join_of_ne_nil hbase (normalize_ne_nil p), join_of_ne_nil hbase hp,
      normalize_append_right hbase hp hrelative]

/-- **Joining is associative** when what is joined in the middle is a relative path. What comes last
may be empty. -/
theorem join_join {p : Text} (hp : p ≠ []) (hrelative : p.head? ≠ some '/') (base q : Text) :
    join (join base p) q = join base (join p q) := by
  by_cases hbase : base = []
  · rw [hbase, join_nil_left, join_nil_left, join_normalize_left hp]
    by_cases hq : q = []
    · rw [hq, join_nil_right, normalize_normalize]
    · rw [join_of_ne_nil hp hq, normalize_normalize]
  have hglued : base ++ '/' :: p ≠ [] := by simp
  rw [join_of_ne_nil hbase hp, join_normalize_left hglued]
  by_cases hq : q = []
  · rw [hq, join_nil_right, join_nil_right, join_normalize_right hp hrelative,
      join_of_ne_nil hbase hp]
  · have hbehind : p ++ '/' :: q ≠ [] := by simp
    have hhead : (p ++ '/' :: q).head? ≠ some '/' := by
      rwa [List.head?_append_of_ne_nil _ hp]
    rw [join_of_ne_nil hp hq, join_normalize_right hbehind hhead, join_of_ne_nil hbase hbehind,
      join_of_ne_nil hglued hq, List.append_assoc, List.cons_append]

/-! ### A path within a directory -/

section Within

variable {dir dir' p : Text}

/-- A relative path within a directory has the normal form of the two joined. -/
theorem normalize_within (hrelative : p.head? ≠ some '/') (hp : p ≠ []) (dir : Text) :
    normalize (within dir p) = join dir p := by
  by_cases hdir : dir = []
  · rw [hdir, within_nil hrelative, join_nil_left]
  rw [within_of_ne_nil hrelative hdir, join_of_ne_nil hdir hp]
  split
  · rename_i hlast
    obtain ⟨parent, rfl⟩ := List.getLast?_eq_some_iff.mp hlast
    rw [List.append_assoc, List.singleton_append, List.append_assoc, List.singleton_append]
    -- The separator that is doubled leaves one blank segment more.
    have hpieces : (parent ++ '/' :: '/' :: p).splitOn '/' =
        parent.splitOn '/' ++ [] :: p.splitOn '/' := by
      rw [List.splitOn_append_cons_self, List.splitOn_cons_eq_if_modifyHead]
      rfl
    have hhead : (parent ++ '/' :: '/' :: p).head? = (parent ++ '/' :: p).head? := by
      cases parent <;> rfl
    have hlast : (parent ++ '/' :: '/' :: p).getLast? = (parent ++ '/' :: p).getLast? := by
      rw [List.getLast?_append_cons, List.getLast?_append_cons, List.getLast?_cons_cons]
    simp [normalize, Form.ofText, hpieces, hhead, hlast, fold, List.splitOn_append_cons_self]
  · rfl

/-- **Directories that differ in a separator** have the same paths within them, up to spelling. -/
theorem normalize_within_congr (h : SameUpToSeparator dir dir') (hp : p ≠ []) :
    normalize (within dir p) = normalize (within dir' p) := by
  by_cases hroot : p.head? = some '/'
  · simp [within, hroot]
  obtain ⟨habsolute, hsegments⟩ := sameUpToSeparator_iff.mp h
  have hhead (d : Text) : ((d ++ p).head? == some '/') = (d.head? == some '/') := by
    cases d <;> simp [hroot]
  have hlast (d : Text) : (d ++ p).getLast? = p.getLast? := by
    rw [List.getLast?_append_of_ne_nil _ hp]
  have hfold (absolute : Bool) (d : Text) :
      fold absolute (d.splitOn '/' ++ p.splitOn '/') =
        ((p.splitOn '/').foldl (push absolute)
          (fold absolute (d.splitOn '/')).reverse).reverse := by
    simp [fold]
  simp only [Form.ofText] at habsolute hsegments
  rw [normalize_within hroot hp, normalize_within hroot hp, join_eq, join_eq, hhead, hhead, hlast,
    hlast, hfold, hfold, hsegments, habsolute]

end Within

end Path

end ImportAlias
