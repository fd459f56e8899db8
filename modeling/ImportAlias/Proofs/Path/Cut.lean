import ImportAlias.Path.Relative
import ImportAlias.Proofs.Path.Climb
import ImportAlias.Proofs.Path.Absolute
import Mathlib.Data.List.DropRight

/-!
# Cutting a path

`parent` and `basename` look for the last separator of a path each by itself. `IsCut` says where a
path is cut, by how it is written: a name with separators behind it, alone or behind separators and
a directory, and apart from these the empty path and the root. Every path is written in one of these
ways, and both functions cut it there (`isCut`).

A cut takes out separators and nothing else, so the two parts joined again give the normal form of
the path, but for a separator at its end.
-/

namespace ImportAlias

namespace Text

variable {c : Char} {t : Text}

theorem trimEnd_eq (c : Char) (t : Text) : trimEnd c t = t.rdropWhile (· = c) := rfl

/-- What is trimmed is a run at the end. -/
theorem exists_trimEnd (c : Char) (t : Text) : ∃ n, t = trimEnd c t ++ List.replicate n c := by
  have hrun : t.rtakeWhile (· = c) = List.replicate (t.rtakeWhile (· = c)).length c :=
    List.eq_replicate_of_mem fun x hx => by simpa using List.mem_rtakeWhile_imp hx
  refine ⟨(t.rtakeWhile (· = c)).length, ?_⟩
  rw [← hrun, trimEnd_eq, List.rdropWhile_append_rtakeWhile]

theorem getLast?_trimEnd (c : Char) (t : Text) : (trimEnd c t).getLast? ≠ some c := by
  rw [trimEnd_eq]
  intro hlast
  have hne : t.rdropWhile (· = c) ≠ [] := List.ne_nil_of_mem (List.mem_of_getLast? hlast)
  rw [List.getLast?_eq_some_getLast hne, Option.some.injEq] at hlast
  exact List.rdropWhile_last_not _ _ hne (by simpa using hlast)

/-- Behind a text that does not end in `c`, a run of `c` is what is trimmed. -/
theorem trimEnd_append_replicate (h : t.getLast? ≠ some c) (n : Nat) :
    trimEnd c (t ++ List.replicate n c) = t := by
  rw [trimEnd_eq]
  induction n with
  | zero =>
    rw [List.replicate_zero, List.append_nil, List.rdropWhile_eq_self_iff]
    intro hne
    rw [List.getLast?_eq_some_getLast hne, ne_eq, Option.some.injEq] at h
    simpa using h
  | succ n ih =>
    rw [List.replicate_succ', ← List.append_assoc, List.rdropWhile_concat_pos _ _ _ (by simp), ih]

end Text

namespace Path

open Text (trimEnd)

/-! ### Where a path is cut -/

/-- The path is cut into its directory and its last segment. -/
inductive IsCut : (p dir last : Text) → Prop
  /-- The empty path is the current directory. -/
  | empty : IsCut [] ['.'] []
  /-- The root is its own directory. -/
  | root (n : Nat) : IsCut (List.replicate (n + 1) '/') ['/'] []
  /-- A single segment lies in the current directory. -/
  | single {s : Text} (hne : s ≠ []) (hs : '/' ∉ s) (n : Nat) :
      IsCut (s ++ List.replicate n '/') ['.'] s
  /-- Any other segment lies in what stands in front of it. -/
  | within {dir s : Text} (hdir : dir.getLast? ≠ some '/') (hne : s ≠ []) (hs : '/' ∉ s)
      (k n : Nat) :
      IsCut (dir ++ List.replicate k '/' ++ '/' :: s ++ List.replicate n '/')
        (if dir = [] then ['/'] else dir) s

/-- A text that holds a character is cut at the last one. -/
theorem exists_eq_append_of_mem {c : Char} {t : Text} (h : c ∈ t) :
    ∃ before behind, t = before ++ c :: behind ∧ c ∉ behind := by
  obtain ⟨behind, before, hreverse, hfree⟩ :=
    List.eq_append_cons_of_mem (List.mem_reverse.mpr h)
  rw [List.reverse_eq_iff] at hreverse
  exact ⟨before.reverse, behind.reverse, by simp [hreverse], by simpa using hfree⟩

theorem not_getLast?_of_not_mem {c : Char} {t : Text} (h : c ∉ t) : t.getLast? ≠ some c :=
  fun hlast => h (List.mem_of_getLast? hlast)

section Segment

variable {s : Text} (hs : '/' ∉ s)

include hs

/-- What stands in front of the last segment, with the separator. -/
theorem dropWhile_reverse (dir : Text) :
    ((dir ++ '/' :: s).reverse.dropWhile (· ≠ '/')).reverse = dir ++ ['/'] := by
  have hfree : ∀ c ∈ s.reverse, (decide (c ≠ '/')) = true := fun c hc => by
    simpa using ne_of_mem_of_not_mem (List.mem_reverse.mp hc) hs
  rw [List.reverse_append, List.reverse_cons, List.append_assoc, List.dropWhile_append_of_pos hfree]
  simp

theorem takeWhile_reverse (dir : Text) :
    ((dir ++ '/' :: s).reverse.takeWhile (· ≠ '/')).reverse = s := by
  have hfree : ∀ c ∈ s.reverse, (decide (c ≠ '/')) = true := fun c hc => by
    simpa using ne_of_mem_of_not_mem (List.mem_reverse.mp hc) hs
  rw [List.reverse_append, List.reverse_cons, List.append_assoc, List.takeWhile_append_of_pos hfree]
  simp

end Segment

/-- Every path can be cut. -/
theorem exists_isCut (p : Text) : ∃ dir last, IsCut p dir last := by
  obtain ⟨n, hp⟩ := Text.exists_trimEnd '/' p
  have hlast := Text.getLast?_trimEnd '/' p
  generalize trimEnd '/' p = trimmed at hp hlast
  subst hp
  by_cases hnil : trimmed = []
  · subst hnil
    cases n with
    | zero => exact ⟨_, _, .empty⟩
    | succ n => exact ⟨_, _, .root n⟩
  by_cases hmem : '/' ∈ trimmed
  · obtain ⟨before, s, rfl, hs⟩ := exists_eq_append_of_mem hmem
    have hne : s ≠ [] := by
      rintro rfl
      simp at hlast
    obtain ⟨k, hbefore⟩ := Text.exists_trimEnd '/' before
    rw [hbefore]
    exact ⟨_, _, .within (Text.getLast?_trimEnd '/' before) hne hs k n⟩
  · exact ⟨_, _, .single hnil hmem n⟩

/-- A path is cut in one place only, in which both functions cut it. -/
theorem IsCut.eq {p dir last : Text} (h : IsCut p dir last) :
    parent p = dir ∧ basename p = last := by
  cases h with
  | empty => exact ⟨rfl, rfl⟩
  | root n =>
    have htrim : trimEnd '/' (List.replicate (n + 1) '/') = [] :=
      Text.trimEnd_append_replicate (t := []) (by simp) (n + 1)
    simp [parent, basename, htrim]
  | single hne hs n =>
    have htrim := Text.trimEnd_append_replicate (not_getLast?_of_not_mem hs) n
    refine ⟨by simp [parent, htrim, hne, hs], ?_⟩
    rw [basename, htrim]
    exact List.rtakeWhile_eq_self_iff.mpr fun c hc => by simpa using ne_of_mem_of_not_mem hc hs
  | @within dir _ hdir hne hs k n =>
    have hend : (dir ++ List.replicate k '/' ++ '/' :: last).getLast? ≠ some '/' := by
      rw [List.getLast?_append_of_ne_nil _ (by simp), List.getLast?_cons_of_ne_nil hne]
      exact not_getLast?_of_not_mem hs
    have htrim := Text.trimEnd_append_replicate hend n
    have hfront : trimEnd '/' (dir ++ List.replicate k '/' ++ ['/']) = dir := by
      rw [List.append_assoc, ← List.replicate_succ', Text.trimEnd_append_replicate hdir]
    refine ⟨?_, by rw [basename, htrim, takeWhile_reverse hs]⟩
    rw [parent, htrim, dropWhile_reverse hs, hfront]
    simp

/-- **Both functions cut a path in the same place.** -/
theorem isCut (p : Text) : IsCut p (parent p) (basename p) := by
  obtain ⟨dir, last, h⟩ := exists_isCut p
  obtain ⟨rfl, rfl⟩ := h.eq
  exact h

/-! ### What a cut keeps -/

theorem names_append (p q : Text) : names (p ++ '/' :: q) = names p ++ names q := by
  rw [names, List.splitOn_append_cons_self, moves_append]
  rfl

@[simp] theorem names_nil : names [] = [] := rfl

/-- Separators at the end add no name. -/
theorem names_append_replicate (p : Text) (n : Nat) :
    names (p ++ List.replicate n '/') = names p := by
  induction n with
  | zero => rw [List.replicate_zero, List.append_nil]
  | succ n ih =>
    rw [List.replicate_succ', ← List.append_assoc, names_append, ih, names_nil, List.append_nil]

section Cut

variable {p dir last : Text} (h : IsCut p dir last)

include h

/-- A cut goes through no name. -/
theorem IsCut.names_append : names dir ++ names last = names p := by
  cases h with
  | empty => rfl
  | root n => exact (names_append_replicate [] (n + 1)).symm
  | single hne hs n =>
    rw [names_append_replicate]
    rfl
  | @within dir _ hdir hne hs k n =>
    rw [names_append_replicate, Path.names_append, names_append_replicate]
    by_cases hnil : dir = []
    · rw [if_pos hnil, hnil]
      rfl
    · rw [if_neg hnil]

theorem IsCut.head?_dir : dir.head? = some '/' ↔ p.head? = some '/' := by
  cases h with
  | empty => decide
  | root n => simp [List.replicate_succ]
  | single hne hs n =>
    have hhead : last.head? ≠ some '/' := fun hhead => hs (List.mem_of_head? hhead)
    rw [List.head?_append_of_ne_nil _ hne]
    simp [hhead]
  | @within dir _ hdir hne hs k n =>
    by_cases hnil : dir = []
    · cases k <;> simp [hnil, List.replicate_succ]
    · rw [if_neg hnil, List.append_assoc, List.append_assoc, List.head?_append_of_ne_nil _ hnil]

/-- The last segment ends in no separator, and only the root has none and is absolute. -/
theorem IsCut.getLast? :
    (dir ++ last).getLast? = some '/' → dir.head? = some '/' ∧ names p = [] := by
  intro hlast
  cases h with
  | empty => cases hlast
  | root n => exact ⟨rfl, names_append_replicate [] (n + 1)⟩
  | single hne hs n =>
    rw [List.getLast?_append_of_ne_nil _ hne] at hlast
    exact absurd hlast (not_getLast?_of_not_mem hs)
  | within hdir hne hs k n =>
    rw [List.getLast?_append_of_ne_nil _ hne] at hlast
    exact absurd hlast (not_getLast?_of_not_mem hs)

theorem IsCut.dir_ne_nil : dir ≠ [] := by
  cases h with
  | within => split <;> simp_all
  | _ => exact List.cons_ne_nil _ _

end Cut

/-! ### Joining the parts -/

/-- The path without the separator at its end. The root keeps its separator. -/
def withoutSeparator (p : Text) : Text :=
  if p ≠ ['/'] ∧ p.getLast? = some '/' then p.dropLast else p

theorem withoutSeparator_render {f : Form} (hf : f.IsFolded) :
    withoutSeparator f.render = { f with trailing := false }.render := by
  by_cases hnil : f.segments = []
  · obtain ⟨absolute, segments, trailing⟩ := f
    subst hnil
    cases absolute <;> cases trailing <;> rfl
  have hbare : { f with trailing := false }.render.getLast? ≠ some '/' := by
    rw [ne_eq, Form.getLast?_render (f := { f with trailing := false }) hf]
    simp [hnil]
  have hrender : f.render =
      { f with trailing := false }.render ++ (if f.trailing then ['/'] else []) := by
    simp [Form.render, hnil]
  cases htrailing : f.trailing with
  | false =>
    have hself : f.render = { f with trailing := false }.render := by simp [hrender, htrailing]
    rw [withoutSeparator, hself, if_neg fun h => hbare h.2]
  | true =>
    have hne : { f with trailing := false }.render ≠ [] := by
      intro hrender
      have hnames : names { f with trailing := false }.render = f.segments := names_render hf
      rw [hrender] at hnames
      exact hnil hnames.symm
    rw [hrender, htrailing, if_pos rfl, withoutSeparator, if_pos, List.dropLast_concat]
    exact ⟨by simpa using hne, List.getLast?_concat⟩

/-- **Cutting loses nothing.** The directory of a path and its last segment, joined again, are the
normal form of the path without the separator at its end, and the directory is absolute exactly when
the path is. -/
theorem join_dirname_basename (p : Text) :
    join (dirname .posix p) (basename p) = withoutSeparator (normalize p) ∧
      isAbsolute .posix (dirname .posix p) = isAbsolute .posix p := by
  have hcut : IsCut p (dirname .posix p) (basename p) := isCut p
  have habsolute : ((dirname .posix p).head? == some '/') = (p.head? == some '/') := by
    rw [Bool.eq_iff_iff, beq_iff_eq, beq_iff_eq, hcut.head?_dir]
  have hhead : ((dirname .posix p ++ basename p).head? == some '/') = (p.head? == some '/') := by
    rw [List.head?_append_of_ne_nil _ hcut.dir_ne_nil, habsolute]
  have hsegments (absolute : Bool) :
      fold absolute ((dirname .posix p).splitOn '/' ++ (basename p).splitOn '/') =
        fold absolute (p.splitOn '/') := by
    rw [← fold_moves, moves_append, ← fold_moves absolute (p.splitOn '/')]
    exact congrArg (fold absolute) hcut.names_append
  refine ⟨?_, habsolute⟩
  rw [join_eq, hhead, hsegments, normalize, withoutSeparator_render (Form.isFolded_ofText p)]
  cases hlast : (dirname .posix p ++ basename p).getLast? == some '/' with
  | false => rfl
  | true =>
    -- Only the root is cut so that a separator comes last, and it is written with one anyway.
    obtain ⟨hroot, hnames⟩ := hcut.getLast? (beq_iff_eq.mp hlast)
    have hnil : fold true (p.splitOn '/') = [] := by
      rw [← fold_moves]
      exact congrArg (fold true) hnames
    simp [Form.render, Form.ofText, hnil, hcut.head?_dir.mp hroot]

/-- A climb at the end is a last segment like any other. -/
example :
    dirname .posix "a//../".toList = "a".toList ∧ basename "a//../".toList = "..".toList ∧
      normalize "a//../".toList = "./".toList ∧
      join "a".toList "..".toList = ".".toList := by
  decide +kernel

end Path

end ImportAlias
