import Mathlib.Data.List.Infix
import ImportAlias.Proofs.Path.Walk

/-!
# Folding the beginnings of a path

A search upwards takes segments off the end of a path. What is left of the path folds to its
surroundings as the text has them, while the true surroundings are what is left of the folded path.
As long as only names are taken off the two are the same; but a `..` that is taken off uncovers the
name that it had climbed out of.

Every true surrounding comes up all the same, and in the right order. So a search for the first hit
agrees with the one in the true surroundings exactly when what it finds is one of these
(`nearest_eq_longest_iff`).
-/

namespace ImportAlias

namespace Path

section Concat

variable (absolute : Bool) (segments : List Text)

theorem fold_concat (s : Text) :
    fold absolute (segments ++ [s]) =
      (push absolute (fold absolute segments).reverse s).reverse := by
  simp [fold]

/-- One more segment leaves folded segments as they are, adds to them, or takes the last away. -/
theorem fold_concat_cases (s : Text) :
    fold absolute (segments ++ [s]) = fold absolute segments ∨
      (∃ t, fold absolute (segments ++ [s]) = fold absolute segments ++ [t]) ∨
      fold absolute (segments ++ [s]) = (fold absolute segments).dropLast := by
  rw [fold_concat]
  by_cases hblank : IsBlank s
  · rw [push_blank _ _ hblank, List.reverse_reverse]
    exact .inl rfl
  by_cases hup : s = ['.', '.']
  · subst hup
    rcases List.eq_nil_or_concat (fold absolute segments) with hnil | ⟨outer, top, htop⟩
    · rw [hnil]
      cases absolute with
      | true => exact .inl rfl
      | false => exact .inr (.inl ⟨['.', '.'], rfl⟩)
    · rw [htop, List.concat_eq_append, List.reverse_concat, List.dropLast_concat]
      by_cases hclimb : top = ['.', '.']
      · cases absolute with
        | true => exact .inl (by simp [push, hclimb])
        | false => exact .inr (.inl ⟨['.', '.'], by simp [push, hclimb]⟩)
      · exact .inr (.inr (by simp [push, hclimb]))
  · rw [push_entry _ _ hblank hup, List.reverse_cons, List.reverse_reverse]
    exact .inr (.inl ⟨s, rfl⟩)

/-- Segments that do not climb are added to folded ones. -/
theorem fold_append_of_not_mem {more : List Text} (h : ['.', '.'] ∉ more) :
    fold absolute (segments ++ more) = fold absolute segments ++ moves more := by
  simp [fold, foldl_push_of_not_mem h]

end Concat

/-- The beginnings of folded segments are folded. -/
theorem Folded.of_isPrefix {absolute : Bool} {segments first : List Text}
    (h : Folded absolute segments) (hfirst : first <+: segments) : Folded absolute first := by
  obtain ⟨climbs, names, rfl, hnames, habsolute⟩ := h
  obtain ⟨others, happend⟩ := hfirst
  rcases List.append_eq_append_iff.mp happend with ⟨rest, hclimbs, -⟩ | ⟨rest, rfl, rfl⟩
  · obtain ⟨hlength, hfirst, -⟩ := List.append_eq_replicate_iff.mp hclimbs.symm
    refine ⟨first.length, [], by rw [← hfirst, List.append_nil], by simp, fun hroot => ?_⟩
    have := habsolute hroot
    omega
  · exact ⟨climbs, rest, rfl, fun s hs => hnames s (List.mem_append_left _ hs), habsolute⟩

/-- **Every beginning of folded segments** is what a beginning of the segments folds to. -/
theorem exists_fold_of_isPrefix {absolute : Bool} {segments folded : List Text}
    (h : folded <+: fold absolute segments) :
    ∃ first, first <+: segments ∧ fold absolute first = folded := by
  induction segments using List.reverseRecOn with
  | nil => exact ⟨[], List.nil_prefix, (List.prefix_nil.mp h).symm⟩
  | append_singleton segments s ih =>
    have hearlier (h : folded <+: fold absolute segments) :
        ∃ first, first <+: segments ++ [s] ∧ fold absolute first = folded := by
      obtain ⟨first, hfirst, hfold⟩ := ih h
      exact ⟨first, hfirst.trans (List.prefix_append _ _), hfold⟩
    rcases fold_concat_cases absolute segments s with hsame | ⟨t, hmore⟩ | hless
    · exact hearlier (hsame ▸ h)
    · rcases List.prefix_concat_iff.mp (hmore ▸ h) with rfl | h
      · exact ⟨segments ++ [s], List.prefix_refl _, hmore⟩
      · exact hearlier h
    · exact hearlier ((hless ▸ h).trans (List.dropLast_prefix _))

/-- The longer a walk, the higher it climbs. -/
theorem climb_le_append (first more : List Text) : climb first ≤ climb (first ++ more) := by
  induction first with
  | nil => exact Nat.zero_le _
  | cons s first ih =>
    rw [List.cons_append, climb, climb]
    split
    · exact ih
    · split <;> omega

/-- Climbs are left where a relative walk climbs. -/
theorem up_mem_fold_iff (absolute : Bool) (segments : List Text) :
    ['.', '.'] ∈ fold absolute segments ↔ absolute = false ∧ climb segments ≠ 0 := by
  have hkept : ['.', '.'] ∉ kept [] segments := fun h => (of_mem_kept h).2.2 rfl
  rw [fold_eq, List.mem_append, or_iff_left hkept, List.mem_replicate]
  cases absolute <;> simp

/-- Where no climb is left, none was left before. -/
theorem up_not_mem_fold_of_isPrefix {absolute : Bool} {segments first : List Text}
    (h : ['.', '.'] ∉ fold absolute segments) (hfirst : first <+: segments) :
    ['.', '.'] ∉ fold absolute first := by
  obtain ⟨more, rfl⟩ := hfirst
  rw [up_mem_fold_iff] at h ⊢
  have hle := climb_le_append first more
  rintro ⟨habsolute, hclimb⟩
  exact h ⟨habsolute, by omega⟩

/-! ### The first hit -/

section Hit

variable (hit : List Text → Bool)

/-- The longest beginning that is a hit. -/
def longest (segments : List Text) : Option (List Text) := segments.inits.reverse.find? hit

/-- What the longest beginning folds to of those that fold to a hit. -/
def nearest (absolute : Bool) (segments : List Text) : Option (List Text) :=
  (segments.inits.reverse.map (fold absolute)).find? hit

theorem longest_concat (segments : List Text) (s : Text) :
    longest hit (segments ++ [s]) =
      if hit (segments ++ [s]) then some (segments ++ [s]) else longest hit segments := by
  simp only [longest, List.inits_append, List.inits, List.tail_cons, List.map_cons, List.map_nil,
    List.reverse_append, List.reverse_singleton, List.singleton_append, List.find?_cons]
  cases hit (segments ++ [s]) <;> rfl

theorem nearest_concat (absolute : Bool) (segments : List Text) (s : Text) :
    nearest hit absolute (segments ++ [s]) =
      if hit (fold absolute (segments ++ [s])) then some (fold absolute (segments ++ [s]))
      else nearest hit absolute segments := by
  simp only [nearest, List.inits_append, List.inits, List.tail_cons, List.map_cons, List.map_nil,
    List.reverse_append, List.reverse_singleton, List.singleton_append, List.find?_cons]
  cases hit (fold absolute (segments ++ [s])) <;> rfl

variable {hit} {absolute : Bool} {segments found : List Text}

theorem of_longest (h : longest hit segments = some found) :
    hit found = true ∧ found <+: segments :=
  ⟨List.find?_some h, (List.mem_inits _ _).mp (List.mem_reverse.mp (List.mem_of_find?_eq_some h))⟩

theorem of_nearest (h : nearest hit absolute segments = some found) :
    hit found = true ∧ ∃ first, first <+: segments ∧ fold absolute first = found := by
  obtain ⟨first, hfirst, hfold⟩ := List.mem_map.mp (List.mem_of_find?_eq_some h)
  exact ⟨List.find?_some h, first, (List.mem_inits _ _).mp (List.mem_reverse.mp hfirst), hfold⟩

/-- The longest beginning of segments, if it is a hit, is what is found. -/
theorem longest_of_hit (h : hit segments = true) : longest hit segments = some segments := by
  rcases List.eq_nil_or_concat segments with rfl | ⟨outer, s, rfl⟩
  · simp [longest, h]
  · rw [List.concat_eq_append] at h ⊢
    rw [longest_concat, if_pos h]

/-- Of folded segments, both find the same. -/
theorem nearest_of_folded (h : Folded absolute segments) :
    nearest hit absolute segments = longest hit segments := by
  have hself : segments.inits.reverse.map (fold absolute) = segments.inits.reverse := by
    refine (List.map_congr_left fun first hfirst => ?_).trans (List.map_id _)
    exact fold_eq_self (h.of_isPrefix ((List.mem_inits _ _).mp (List.mem_reverse.mp hfirst)))
  rw [nearest, hself, longest]

/-- **A hit in the true surroundings is the first there.** The segments come one after another, and
the last one stands where the search begins: it is the first place of both searches, unless a climb
has taken away what would be the first place of the one. -/
theorem longest_fold (h : ∀ found, nearest hit absolute segments = some found →
      found <+: fold absolute segments) :
    longest hit (fold absolute segments) = nearest hit absolute segments := by
  induction segments using List.reverseRecOn with
  | nil => rfl
  | append_singleton segments s ih =>
    rw [nearest_concat] at h ⊢
    by_cases hfirst : hit (fold absolute (segments ++ [s])) = true
    · rw [if_pos hfirst, longest_of_hit hfirst]
    rw [if_neg hfirst] at h ⊢
    rcases fold_concat_cases absolute segments s with hsame | ⟨t, hmore⟩ | hless
    · rw [hsame] at h ⊢
      exact ih h
    · rw [hmore] at h hfirst ⊢
      rw [longest_concat, if_neg hfirst]
      refine ih fun found hfound => ?_
      rcases List.prefix_concat_iff.mp (h found hfound) with rfl | hprefix
      · exact absurd (of_nearest hfound).1 hfirst
      · exact hprefix
    · rcases List.eq_nil_or_concat (fold absolute segments) with hnil | ⟨outer, top, htop⟩
      · rw [hless, hnil, List.dropLast_nil, ← hnil]
        refine ih fun found hfound => ?_
        simpa [hless, hnil] using h found hfound
      rw [List.concat_eq_append] at htop
      rw [hless, htop, List.dropLast_concat] at h ⊢
      have hsame := ih fun found hfound =>
        htop ▸ (h found hfound).trans (List.prefix_append outer [top])
      rw [htop, longest_concat] at hsame
      split at hsame
      · -- The name that was left again would have been found.
        have hlength := (h _ hsame.symm).length_le
        rw [List.length_append, List.length_singleton] at hlength
        omega
      · exact hsame

/-- **When a search agrees with the one in the true surroundings.** -/
theorem nearest_eq_longest_iff :
    nearest hit absolute segments = longest hit (fold absolute segments) ↔
      ∀ found, nearest hit absolute segments = some found → found <+: fold absolute segments := by
  constructor
  · intro h found hfound
    exact (of_longest (h.symm.trans hfound)).2
  · exact fun h => (longest_fold h).symm

end Hit

/-! ### Paths that climb first -/

/-- Every `..` of the path comes before its names. -/
def ClimbsFirst (p : Text) : Prop :=
  ∃ climbs rest, names p = List.replicate climbs ['.', '.'] ++ rest ∧ ['.', '.'] ∉ rest

theorem fold_replicate_up (absolute : Bool) (climbs : Nat) :
    fold absolute (List.replicate climbs ['.', '.']) =
      List.replicate (if absolute then 0 else climbs) ['.', '.'] := by
  have hfold := fold_eq absolute (List.replicate climbs ['.', '.'])
  have hclimb : climb (List.replicate climbs ['.', '.']) = climbs := by
    induction climbs with
    | zero => rfl
    | succ climbs ih => rw [List.replicate_succ, climb_up, ih (fold_eq ..)]
  have hkept : kept [] (List.replicate climbs ['.', '.']) = [] := by
    refine List.eq_nil_iff_forall_not_mem.mpr fun s hs => ?_
    obtain ⟨hmem, -, hup⟩ := of_mem_kept hs
    exact hup (List.eq_of_mem_replicate hmem)
  rw [hfold, hclimb, hkept, List.append_nil]

/-- Their beginnings fold to beginnings. -/
theorem ClimbsFirst.fold_isPrefix {p : Text} (h : ClimbsFirst p) (absolute : Bool)
    {first : List Text} (hfirst : first <+: names p) :
    fold absolute first <+: fold absolute (names p) := by
  obtain ⟨climbs, rest, hnames, hrest⟩ := h
  obtain ⟨others, happend⟩ := hfirst
  rw [hnames] at happend ⊢
  rw [fold_append_of_not_mem _ _ hrest]
  rcases List.append_eq_append_iff.mp happend with ⟨fewer, hclimbs, -⟩ | ⟨more, rfl, rfl⟩
  · obtain ⟨hlength, hfirst, -⟩ := List.append_eq_replicate_iff.mp hclimbs.symm
    refine List.IsPrefix.trans ?_ (List.prefix_append _ _)
    rw [hfirst, fold_replicate_up, fold_replicate_up]
    cases absolute with
    | true => exact List.prefix_refl _
    | false => exact ⟨List.replicate fewer.length ['.', '.'], by simp [hlength]⟩
  · rw [fold_append_of_not_mem _ _ fun hup => hrest (List.mem_append_left _ hup), moves_append,
      ← List.append_assoc]
    exact List.prefix_append _ _

end Path

end ImportAlias
