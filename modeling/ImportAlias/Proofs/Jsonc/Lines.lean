import ImportAlias.Proofs.Jsonc.Comments
import ImportAlias.Proofs.Jsonc.TrailingCommas
import Mathlib.Data.Fintype.Fin
import Mathlib.Data.List.NodupEquivFin

/-!
# Lines are kept

Taking out comments and trailing commas makes a text shorter, but it takes no line break out,
whether or not the text is well formed (`keepsLines_cleaned`). So what is left of a line is a line
of the cleaned text, in the same place (`KeepsLines.forall₂_splitOn`), and each character of the
cleaned text is on the line on which it stands in the source (`Placement.count_take`).

Nothing depends on which characters are taken out. The argument is about all ways to place what is
left in the text it is left of (`Placement`), as there can be several: of two equal characters in a
row that are not both kept, either may have been taken out.
-/

namespace ImportAlias

namespace Jsonc

variable {left source : Text}

/-! ### Texts with characters taken out -/

/-- The first text is left of the second when characters other than line breaks are taken out. -/
inductive KeepsLines : Text → Text → Prop
  | nil : KeepsLines [] []
  | keep (c : Char) {left source : Text} (h : KeepsLines left source) :
      KeepsLines (c :: left) (c :: source)
  | drop {c : Char} {left source : Text} (hc : c ≠ '\n') (h : KeepsLines left source) :
      KeepsLines left (c :: source)

namespace KeepsLines

theorem sublist (h : KeepsLines left source) : left.Sublist source := by
  induction h with
  | nil => exact .slnil
  | keep c _ ih => exact ih.cons_cons c
  | drop _ _ ih => exact ih.cons _

theorem count_eq (h : KeepsLines left source) : left.count '\n' = source.count '\n' := by
  induction h with
  | nil => rfl
  | keep c _ ih => rw [List.count_cons, List.count_cons, ih]
  | drop hc _ ih => rw [List.count_cons_of_ne hc, ih]

/-- More characters may be taken out of what is left. -/
theorem trans {later : Text} (h : KeepsLines later left) (h' : KeepsLines left source) :
    KeepsLines later source := by
  induction h' generalizing later with
  | nil => exact h
  | keep c _ ih =>
    cases h with
    | keep _ h => exact .keep c (ih h)
    | drop hc h => exact .drop hc (ih h)
  | drop hc _ ih => exact .drop hc (ih h)

/-- **Line by line**, what is left of the text is what is left of its lines. -/
theorem forall₂_splitOn (h : KeepsLines left source) :
    List.Forall₂ List.Sublist (left.splitOn '\n') (source.splitOn '\n') := by
  induction h with
  | nil => exact .cons (.refl []) .nil
  | @keep c left source _ ih =>
    rw [List.splitOn_cons_eq_if_modifyHead, List.splitOn_cons_eq_if_modifyHead]
    split
    · exact .cons (.refl []) ih
    · generalize left.splitOn '\n' = lines, source.splitOn '\n' = lines' at ih ⊢
      cases ih with
      | nil => exact .nil
      | cons hline hlines => exact .cons (hline.cons_cons c) hlines
  | @drop c left source hc _ ih =>
    rw [List.splitOn_cons_eq_if_modifyHead, if_neg (by simpa using hc)]
    generalize left.splitOn '\n' = lines, source.splitOn '\n' = lines' at ih ⊢
    cases ih with
    | nil => exact .nil
    | cons hline hlines => exact .cons (hline.cons c) hlines

end KeepsLines

/-! ### The two passes -/

/-- **No pass over a comment takes a line break out**, in any mode and however the text ends. -/
theorem keepsLines_stripFrom (mode : CommentMode) (source : Text) :
    KeepsLines (stripFrom mode source) source := by
  fun_induction stripFrom mode source
  case case1 => exact .nil
  case case2 ih => exact .drop (by decide) (.drop (by decide) ih)
  case case3 ih => exact .drop (by decide) (.drop (by decide) ih)
  case case6 ih => exact .keep _ (.keep _ ih)
  case case10 ih => exact .drop ‹_› ih
  case case11 ih => exact .drop (by decide) (.drop (by decide) ih)
  case case13 ih => exact .drop ‹_› ih
  all_goals exact .keep _ ‹_›

/-- No pass over trailing commas does. -/
theorem keepsLines_dropCommasFrom (mode : StringMode) (source : Text) :
    KeepsLines (dropCommasFrom mode source) source := by
  fun_induction dropCommasFrom mode source
  case case1 => exact .nil
  case case2 h ih =>
    obtain ⟨rfl, -⟩ := h
    exact .drop (by decide) ih
  all_goals exact .keep _ ‹_›

/-- Neither pass takes a line break out. -/
theorem keepsLines_cleaned (source : Text) :
    KeepsLines (dropTrailingCommas (stripComments source)) source :=
  (keepsLines_dropCommasFrom .code _).trans (keepsLines_stripFrom .code source)

/-! ### Places of the characters that are kept -/

/-- A way to see a text as what is left of another: each of its characters has a place there, in
the same order. -/
structure Placement (left source : Text) where
  place : Fin left.length ↪o Fin source.length
  char_eq (i : Fin left.length) : source[place i] = left[i]

/-- The places of the line breaks of a text. -/
def breaks (s : Text) : Finset (Fin s.length) := {i | s[i] = '\n'}

/-- The line breaks before a place are those whose places come before it. -/
theorem count_take_eq_card (s : Text) (n : ℕ) :
    (s.take n).count '\n' = ((breaks s).filter fun i : Fin s.length => i < n).card := by
  unfold breaks
  rw [Finset.filter_filter]
  induction s generalizing n with
  | nil => simp
  | cons c s ih =>
    cases n with
    | zero => simp
    | succ n =>
      rw [List.take_succ_cons, List.count_cons, ih]
      refine ((Fin.card_filter_univ_succ _).trans ?_).symm
      by_cases hc : c = '\n' <;> simp [hc]

theorem count_eq_card (s : Text) : s.count '\n' = (breaks s).card := by
  have hcount := count_take_eq_card s s.length
  rwa [List.take_length, Finset.filter_true_of_mem fun i _ => i.isLt] at hcount

namespace Placement

/-- There is such a way for every text with characters taken out, and for no other. -/
theorem nonempty_iff : Nonempty (Placement left source) ↔ left.Sublist source := by
  rw [List.sublist_iff_exists_fin_orderEmbedding_get_eq]
  constructor
  · rintro ⟨p⟩
    exact ⟨p.place, fun i => (p.char_eq i).symm⟩
  · rintro ⟨place, h⟩
    exact ⟨place, fun i => (h i).symm⟩

variable (p : Placement left source)

/-- **The line breaks of the text are those that are left**: they are placed at line breaks, and
there are as many of both. -/
theorem map_breaks (h : KeepsLines left source) :
    (breaks left).map p.place.toEmbedding = breaks source := by
  refine Finset.eq_of_subset_of_card_le (Finset.map_subset_iff_subset_preimage.mpr ?_) ?_
  · intro i hi
    have hbreak : left[i] = '\n' := by simpa [breaks] using hi
    simpa [breaks] using (p.char_eq i).trans hbreak
  · rw [Finset.card_map, ← count_eq_card, ← count_eq_card, h.count_eq]

/-- So each of them is the place of one. -/
theorem exists_place_of_break (h : KeepsLines left source) {j : Fin source.length}
    (hj : source[j] = '\n') : ∃ i, p.place i = j := by
  have hmem : j ∈ (breaks left).map p.place.toEmbedding := by
    rw [p.map_breaks h]
    simpa [breaks] using hj
  obtain ⟨i, -, hi⟩ := Finset.mem_map.mp hmem
  exact ⟨i, hi⟩

/-- **A character has as many line breaks before it as at its place.** -/
theorem count_take (h : KeepsLines left source) (i : Fin left.length) :
    (left.take i).count '\n' = (source.take (p.place i)).count '\n' := by
  rw [count_take_eq_card, count_take_eq_card, ← p.map_breaks h, Finset.filter_map, Finset.card_map]
  congr 1
  ext k
  simp

end Placement

end Jsonc

end ImportAlias
