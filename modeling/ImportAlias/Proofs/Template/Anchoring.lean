import ImportAlias.Proofs.Path.Absolute
import ImportAlias.Proofs.Path.Climb
import ImportAlias.Proofs.Template.Fill
import Mathlib.Data.List.TakeWhile

/-!
# Filling before and after anchoring

A template is anchored once, before any specifier is seen, and what a match fills is the anchored
template. Filling the template as it is declared and joining the result to the base is another
thing in general: a `..` behind a wildcard takes the segment of the wildcard away in one order and
a segment of the capture in the other.

When no `..` stands behind a wildcard (`ClimbsFirst`), both orders lead to the same place
(`sameUpToSeparator_pathFor?`). All that is folded early is then folded among segments without
wildcards, and the segments behind them lose no more than blank ones. What captures bring in is
folded in both orders on top of the same stack (`fold_filled`), be it names, climbs or wildcards.
-/

namespace ImportAlias

namespace Template

open ImportAlias.Path (IsBlank Form join names moves fold push)

/-- No `..` stands behind a wildcard: the segments from the first with a wildcard on hold none. -/
def ClimbsFirst (template : Text) : Prop :=
  ['.', '.'] ∉ (template.splitOn '/').dropWhile (wildcard ∉ ·)

instance (template : Text) : Decidable (ClimbsFirst template) := inferInstanceAs (Decidable (_ ∉ _))

/-! ### Filled segments -/

/-- The segments that segments are filled to. A capture that brings in separators makes several of
one. -/
def filled (f : Nat → Text) (segments : List Text) : List Text :=
  (fillAll f segments).flatMap (List.splitOn '/')

/-- Filling leaves the segment as it is: it has no wildcard, and it is one segment. -/
def IsLiteral (s : Text) : Prop := wildcard ∉ s ∧ '/' ∉ s

theorem isLiteral_of_isBlank {s : Text} (h : IsBlank s) : IsLiteral s := by
  rcases h with rfl | rfl
  · exact ⟨List.not_mem_nil, List.not_mem_nil⟩
  · exact ⟨by decide, by decide⟩

/-- The segments of a path without wildcards are literal. -/
theorem isLiteral_of_mem_splitOn {p s : Text} (h : wildcard ∉ p) (hs : s ∈ p.splitOn '/') :
    IsLiteral s := by
  refine ⟨fun hmem => h ?_, Path.not_mem_of_mem_splitOn hs⟩
  have hjoined : ['/'].intercalate (p.splitOn '/') = p := List.intercalate_splitOn ..
  rw [← hjoined]
  exact Path.mem_intercalate_of_mem hs hmem

/-- The segments of a path in front of its first wildcard are literal. -/
theorem isLiteral_of_mem_takeWhile {p s : Text}
    (hs : s ∈ (p.splitOn '/').takeWhile (wildcard ∉ ·)) : IsLiteral s := by
  refine ⟨by simpa using List.mem_takeWhile_imp hs, ?_⟩
  exact Path.not_mem_of_mem_splitOn ((List.takeWhile_prefix _).subset hs)

theorem filled_cons (f : Nat → Text) (s : Text) (segments : List Text) :
    filled f (s :: segments) =
      (fillWith f s).splitOn '/' ++ filled (fun n => f (n + s.count wildcard)) segments := rfl

theorem filled_cons_of_isLiteral (f : Nat → Text) {s : Text} (hs : IsLiteral s)
    (segments : List Text) : filled f (s :: segments) = s :: filled f segments := by
  rw [filled, fillAll_cons_of_not_mem f hs.1, List.flatMap_cons, List.splitOn_eq_singleton hs.2,
    List.singleton_append, filled]

/-- Literal segments stay in front as they are. -/
theorem filled_append_of_isLiteral (f : Nat → Text) {front : List Text}
    (hfront : ∀ s ∈ front, IsLiteral s) (segments : List Text) :
    filled f (front ++ segments) = front ++ filled f segments := by
  induction front with
  | nil => rfl
  | cons s front ih =>
    rw [List.cons_append, filled_cons_of_isLiteral f (hfront s List.mem_cons_self),
      ih fun t ht => hfront t (List.mem_cons_of_mem _ ht), List.cons_append]

/-- Blank segments can be dropped before filling. -/
theorem foldl_push_filled_moves (absolute : Bool) (f : Nat → Text) (segments stack : List Text) :
    (filled f (moves segments)).foldl (push absolute) stack =
      (filled f segments).foldl (push absolute) stack := by
  induction segments generalizing f stack with
  | nil => rfl
  | cons s segments ih =>
    by_cases hblank : IsBlank s
    · rw [Path.moves_cons_of_isBlank hblank,
        filled_cons_of_isLiteral f (isLiteral_of_isBlank hblank), List.foldl_cons,
        Path.push_blank _ _ hblank, ih]
    · rw [Path.moves_cons hblank, filled_cons, filled_cons, List.foldl_append, List.foldl_append,
        ih]

/-- **Folding before and after filling.** What stands in front is literal and what comes behind it
has no `..`, so the early fold leaves the stack that the late one finds. -/
theorem fold_filled (absolute : Bool) (f : Nat → Text) {front back : List Text}
    (hfront : ∀ s ∈ front, IsLiteral s) (hback : ['.', '.'] ∉ back) :
    fold absolute (filled f (fold absolute (front ++ back))) =
      fold absolute (front ++ filled f back) := by
  have hearly : fold absolute (front ++ back) = fold absolute front ++ moves back := by
    rw [fold, List.foldl_append, Path.foldl_push_of_not_mem hback, List.reverse_append,
      List.reverse_reverse, fold]
  have hstack : (fold absolute front).foldl (push absolute) [] = front.foldl (push absolute) [] :=
    List.reverse_injective
      (Path.fold_eq_self (Path.folded_fold absolute fun s hs => (hfront s hs).2))
  have hfolded : ∀ s ∈ fold absolute front, IsLiteral s := fun s hs =>
    hfront s (Path.mem_of_mem_fold hs)
  calc fold absolute (filled f (fold absolute (front ++ back)))
    _ = ((filled f (moves back)).foldl (push absolute)
          ((fold absolute front).foldl (push absolute) [])).reverse := by
        rw [hearly, filled_append_of_isLiteral f hfolded, fold, List.foldl_append]
    _ = ((filled f back).foldl (push absolute) (front.foldl (push absolute) [])).reverse := by
        rw [hstack, foldl_push_filled_moves]
    _ = fold absolute (front ++ filled f back) := by rw [fold, List.foldl_append]

/-! ### Filled paths -/

section Anchor

variable {base template : Text} (hbase : base.head? = some '/') (hfree : wildcard ∉ base)
  (hclimbs : ClimbsFirst template) (f : Nat → Text)

include hbase hfree hclimbs

/-- The template that is filled after it is joined and the one that is filled before lead to the
same segments. -/
theorem segments_fillWith_join :
    (Form.ofText (fillWith f (join base template))).segments =
      (Form.ofText (join base (fillWith f template))).segments := by
  have hhead : ((fillWith f (join base template)).head? == some '/') = true := by
    obtain ⟨rest, hrest⟩ := List.head?_eq_some_iff.mp (Path.head?_join hbase template)
    rw [hrest, fillWith_cons f (by decide)]
    rfl
  -- The template is cut where its wildcards begin.
  have hcut : (template.splitOn '/').takeWhile (wildcard ∉ ·) ++
      (template.splitOn '/').dropWhile (wildcard ∉ ·) = template.splitOn '/' :=
    List.takeWhile_append_dropWhile
  have hliteral : ∀ s ∈ (template.splitOn '/').takeWhile (wildcard ∉ ·), IsLiteral s :=
    fun _ hs => isLiteral_of_mem_takeWhile hs
  have hfront : ∀ s ∈ base.splitOn '/' ++ (template.splitOn '/').takeWhile (wildcard ∉ ·),
      IsLiteral s := by
    intro s hs
    rcases List.mem_append.mp hs with hs | hs
    · exact isLiteral_of_mem_splitOn hfree hs
    · exact hliteral s hs
  -- From the early path to the late one: read it back, drop what is blank, and move the fold.
  calc (Form.ofText (fillWith f (join base template))).segments
    _ = fold true (filled f ((join base template).splitOn '/')) := by
        rw [Form.ofText, hhead, splitOn_fillWith, filled]
    _ = fold true (filled f (names (join base template))) := by
        rw [fold, ← foldl_push_filled_moves, names, fold]
    _ = fold true (filled f (fold true (base.splitOn '/' ++ template.splitOn '/'))) := by
        rw [Path.names_join hbase]
    _ = fold true (base.splitOn '/' ++ filled f (template.splitOn '/')) := by
        rw [← hcut, ← List.append_assoc, fold_filled true f hfront hclimbs, List.append_assoc,
          filled_append_of_isLiteral f hliteral]
    _ = (Form.ofText (join base (fillWith f template))).segments := by
        rw [Path.segments_join hbase, splitOn_fillWith, filled]

end Anchor

end Template

namespace Mapping

open ImportAlias.Path (SameUpToSeparator isAbsolute join)

/-- The one template of an entry with an absolute base fills to a path for each match. -/
theorem pathFor?_singleton {base key template : Text} {m : Mapping}
    (hm : compile .posix base key [template] = .ok m) (hbase : base.head? = some '/')
    {id : Text} {captures : List Text} (hcaptures : m.pattern.captures? id = some captures) :
    m.pathFor? id = some (Template.fill id captures (Path.anchor .posix base template)) :=
  pathFor?_of_head? (key_of_compile hm).2 (Path.head?_anchor hbase template) hcaptures

/-- **Anchoring early is anchoring late.** On POSIX let the base be absolute and without wildcards
and let no `..` of the relative template stand behind a wildcard. What a match is given by the
entry, whose template was anchored when it was compiled, is the path that comes of filling the
template as it is declared and joining the result to the base, up to a separator at the end. -/
theorem sameUpToSeparator_pathFor? {base key template : Text} {m : Mapping}
    (hm : compile .posix base key [template] = .ok m) (hbase : isAbsolute .posix base)
    (hfree : wildcard ∉ base) (hrelative : ¬isAbsolute .posix template)
    (hclimbs : Template.ClimbsFirst template) {id : Text} {captures : List Text}
    (hcaptures : m.pattern.captures? id = some captures) :
    ∃ path, m.pathFor? id = some path ∧
      SameUpToSeparator path
        (join base (Template.fillWith (Template.capture id captures) template)) := by
  have hhead : base.head? = some '/' := Path.isAbsolute_posix_iff.mp hbase
  refine ⟨_, pathFor?_singleton hm hhead hcaptures, ?_⟩
  have hanchor : Path.anchor .posix base template = join base template := by
    rw [Path.anchor, if_neg hrelative]
  have hearly := Template.head?_fill (by decide) (Path.head?_anchor hhead template) id captures
  have hlate := Path.head?_join hhead (Template.fillWith (Template.capture id captures) template)
  rw [Template.fill_eq_fillWith, hanchor] at hearly ⊢
  apply Path.sameUpToSeparator_of_segments_eq
  · simp only [Path.Form.ofText, hearly, hlate]
  · exact Template.segments_fillWith_join hhead hfree hclimbs _

/-- The base and the template climb past the root, and the captures bring in separators, climbs and
a wildcard. The early path ends in a separator, and the late one does not. -/
theorem sameUpToSeparator_pathFor?_climbing :
    ∃ m, compile .posix "/x/..//b/.".toList "@/*!*".toList ["../../s/./*/y*/.".toList] = .ok m ∧
      m.pattern.captures? "@/../../k/*!a//./".toList =
        some ["../../k/*".toList, "a//./".toList] ∧
      m.pathFor? "@/../../k/*!a//./".toList = some "/s/../../k/*/ya//./".toList ∧
      join "/x/..//b/.".toList "../../s/./../../k/*/ya//.//.".toList = "/k/*/ya".toList ∧
      SameUpToSeparator "/s/../../k/*/ya//./".toList "/k/*/ya".toList := by
  obtain ⟨m, hm⟩ : ∃ m, compile .posix "/x/..//b/.".toList "@/*!*".toList
      ["../../s/./*/y*/.".toList] = .ok m := ⟨_, rfl⟩
  have hcaptures : m.pattern.captures? "@/../../k/*!a//./".toList =
      some ["../../k/*".toList, "a//./".toList] := by
    rw [(key_of_compile hm).1]
    decide +kernel
  have hpath : m.pathFor? "@/../../k/*!a//./".toList = some "/s/../../k/*/ya//./".toList := by
    rw [pathFor?_singleton hm (by decide) hcaptures]
    decide +kernel
  have hjoin : join "/x/..//b/.".toList "../../s/./../../k/*/ya//.//.".toList =
      "/k/*/ya".toList := by decide +kernel
  obtain ⟨path, hsome, hsame⟩ :=
    sameUpToSeparator_pathFor? hm (by decide) (by decide) (by decide) (by decide) hcaptures
  obtain rfl := Option.some.inj (hpath.symm.trans hsome)
  exact ⟨m, hm, hcaptures, hpath, hjoin, hjoin ▸ hsame⟩

end Mapping

end ImportAlias
