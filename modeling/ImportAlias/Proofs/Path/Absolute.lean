import ImportAlias.Mapping
import ImportAlias.Path.Relative
import ImportAlias.Proofs.Path.NormalForm

/-!
# Absolute paths stay absolute

A path is absolute by its first character alone, and what is done to a path on the way to a
resolver's answer keeps that character: the directory part of a path is a beginning of it or the
root, joining puts the base in front, and normalizing folds every `..` that would climb above the
root away without touching the root itself.
-/

namespace ImportAlias

namespace Text

/-- A beginning of a text that is not empty begins as the text does. -/
theorem head?_eq_of_isPrefix {start t : Text} (h : start <+: t) (hne : start ≠ []) :
    start.head? = t.head? := by
  obtain ⟨rest, rfl⟩ := h
  obtain ⟨c, start, rfl⟩ := List.exists_cons_of_ne_nil hne
  rfl

theorem trimEnd_isPrefix (c : Char) (t : Text) : trimEnd c t <+: t := by
  rw [trimEnd, ← List.reverse_suffix, List.reverse_reverse]
  exact List.dropWhile_suffix _

end Text

namespace Path

theorem isAbsolute_posix_iff {p : Text} : isAbsolute .posix p = true ↔ p.head? = some '/' := by
  simp [isAbsolute]

/-! ### Directories -/

/-- The directory of an absolute path is absolute. -/
theorem head?_parent {p : Text} (h : p.head? = some '/') : (parent p).head? = some '/' := by
  have hne : p ≠ [] := by
    rintro rfl
    cases h
  simp only [parent, if_neg hne]
  by_cases htrimmed : Text.trimEnd '/' p = []
  · rw [if_pos htrimmed]
    rfl
  · have hhead : (Text.trimEnd '/' p).head? = some '/' :=
      (Text.head?_eq_of_isPrefix (Text.trimEnd_isPrefix '/' p) htrimmed).trans h
    have hmem : '/' ∈ Text.trimEnd '/' p := List.mem_of_mem_head? hhead
    rw [if_neg htrimmed, if_pos hmem]
    generalize hdir : Text.trimEnd '/' ((Text.trimEnd '/' p).reverse.dropWhile (· ≠ '/')).reverse =
      dir
    by_cases hroot : dir = []
    · rw [if_pos hroot]
      rfl
    · -- The directory is what a prefix of the trimmed path leaves after trimming once more.
      have hcut : ((Text.trimEnd '/' p).reverse.dropWhile (· ≠ '/')).reverse <+:
          Text.trimEnd '/' p := by
        rw [← List.reverse_suffix, List.reverse_reverse]
        exact List.dropWhile_suffix _
      have hprefix : dir <+: Text.trimEnd '/' p := hdir ▸ (Text.trimEnd_isPrefix '/' _).trans hcut
      rw [if_neg hroot, Text.head?_eq_of_isPrefix hprefix hroot, hhead]

/-! ### Joining and anchoring -/

/-- What is joined to an absolute base is absolute. -/
theorem head?_join {base : Text} (h : base.head? = some '/') (segment : Text) :
    (join base segment).head? = some '/' := by
  obtain ⟨c, base, rfl⟩ := List.exists_cons_of_ne_nil (List.ne_nil_of_mem (List.mem_of_mem_head? h))
  cases segment with
  | nil => exact (head?_normalize _).mpr h
  | cons d segment => exact (head?_normalize _).mpr h

/-- Whatever is anchored to an absolute directory is absolute. -/
theorem head?_anchor {base : Text} (h : base.head? = some '/') (p : Text) :
    (anchor .posix base p).head? = some '/' := by
  rw [anchor]
  by_cases hp : isAbsolute .posix p
  · rw [if_pos hp]
    exact (head?_normalize p).mpr (isAbsolute_posix_iff.mp hp)
  · rw [if_neg hp]
    exact head?_join h p

end Path

namespace Template

/-- Filling leaves what stands before the first wildcard, so a template that begins with a literal
character gives paths that begin with it. -/
theorem head?_fill {template : Text} {c : Char} (hc : c ≠ wildcard) (h : template.head? = some c)
    (id : Text) (captures : List Text) : (fill id captures template).head? = some c := by
  obtain ⟨rest, rfl⟩ : ∃ rest, template = c :: rest := List.head?_eq_some_iff.mp h
  obtain ⟨first, pieces, hpieces⟩ :=
    List.exists_cons_of_ne_nil (List.splitOn_ne_nil wildcard rest)
  have hsplit : (c :: rest).splitOn wildcard = (c :: first) :: pieces := by
    rw [List.splitOn_cons_eq_if_modifyHead, hpieces]
    simp [hc]
  rw [fill, hsplit]
  rfl

end Template

namespace Mapping

/-- An entry whose first template is absolute gives what this template fills to, whenever its key
matches: the path is not empty, so no further template is tried. -/
theorem pathFor?_of_head? {m : Mapping} {template : Text} {later : List Text}
    (hm : m.templates = template :: later) (h : template.head? = some '/') {id : Text}
    {captures : List Text} (hcaptures : m.pattern.captures? id = some captures) :
    m.pathFor? id = some (Template.fill id captures template) := by
  have hne : Template.fill id captures template ≠ [] :=
    List.ne_nil_of_mem (List.mem_of_mem_head? (Template.head?_fill (by decide) h id captures))
  simp [pathFor?, hcaptures, hm, hne]

end Mapping

end ImportAlias
