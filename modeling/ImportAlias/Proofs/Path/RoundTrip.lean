import ImportAlias.Proofs.Path.Joining
import ImportAlias.Proofs.Path.Shown

/-!
# The way to a path and back

`relative` gives the way from a directory to a path, and `join` follows a way from a directory. On
POSIX each undoes the other. What `join` gives of the way leads where the path leads, whatever the
path has in it: the way is followed segment by segment, so a `..` right behind the common start or
one that stops at the root is met in the same directory in which the path itself meets it.
Conversely a way that only descends adds its names to those of the directory, and these are what
`relative` has left once the directory is taken off.
-/

namespace ImportAlias

namespace Path

/-- The texts are the same but for one separator at the end. -/
def EqUpToSeparator (p q : Text) : Prop := p = q ∨ p ++ ['/'] = q ∨ p = q ++ ['/']

instance (p q : Text) : Decidable (EqUpToSeparator p q) := inferInstanceAs (Decidable (_ ∨ _ ∨ _))

/-! ### Following the way -/

section Way

variable {start target : Text}

/-- Whoever follows the way climbs to the common start and then goes down. -/
theorem follow_relative {up down : List Text}
    (hway : dropCommon (segments start) (segments target) = (up, down)) (dir : List Text) :
    follow .posix dir (relative start target) =
      down.foldl (follow .posix) (dir.take (dir.length - up.length)) := by
  have hrelative : relative start target = ['/'].intercalate (waySegments up down) := by
    rw [relative, hway]
    rfl
  rw [hrelative, follow_intercalate, foldl_follow_way]

/-- From the root a walk takes every path as it is followed. -/
theorem walk_root (p : Text) : walk [] p = follow .posix [] p := by
  have horigin : origin [] p = [] := ite_self []
  rw [walk, horigin]
  rfl

/-- A joined path is followed by following its base first. -/
theorem follow_join (hstart : start ≠ []) (p : Text) :
    follow .posix [] (join start p) = follow .posix (follow .posix [] start) p := by
  by_cases hp : p = []
  · rw [hp, join_nil_right, ← walk_root, walk_normalize, walk_root, follow_nil]
  · rw [join_of_ne_nil hstart hp, ← walk_root, walk_normalize, walk_append hstart, walk_root]
    rfl

/-- **The way leads to the path**, whether or not the path is in normal form. -/
theorem join_relative (hstart : isAbsolute .posix start) (hnormal : normalize start = start)
    (htarget : isAbsolute .posix target) :
    EqUpToSeparator (join start (relative start target)) (normalize target) := by
  rcases hway : dropCommon (segments start) (segments target) with ⟨up, down⟩
  have hhead := isAbsolute_posix_iff.mp hstart
  have hjoined : isAbsolute .posix (join start (relative start target)) :=
    isAbsolute_posix_iff.mpr (head?_join hhead _)
  have hsame : SamePlace .posix (join start (relative start target)) target := by
    have hne : start ≠ [] := List.ne_nil_of_mem (List.mem_of_mem_head? hhead)
    rw [samePlace_posix_iff hjoined htarget, follow_join hne, ← follow_append]
    exact follow_way (fun _ => isEntry_of_mem_segments hstart hnormal) hway (follow_relative hway)
  have hwritten : normalize (join start (relative start target)) =
      join start (relative start target) := normalize_eq_self_iff.mpr (isWritten_join _ _)
  rw [SamePlace, SameUpToSeparator, hwritten] at hsame
  exact hsame

end Way

/-! ### Ways that descend -/

/-- The path is in normal form, is relative and only descends, and no separator ends it. -/
structure IsDescent (p : Text) : Prop where
  ne_nil : p ≠ []
  normal : normalize p = p
  relative : ¬isAbsolute .posix p
  no_dot : ['.'] ∉ p.splitOn '/'
  no_up : ['.', '.'] ∉ p.splitOn '/'
  no_trailing : p.getLast? ≠ some '/'

/-- All that a descent has in it are names. -/
theorem IsDescent.isName {p : Text} (h : IsDescent p) : ∀ s ∈ p.splitOn '/', IsName s := by
  obtain ⟨f, hf, rfl⟩ := normalize_eq_self_iff.mp h.normal
  have habsolute : f.absolute = false := by
    rw [Bool.eq_false_iff, ne_eq, ← Form.head?_render hf, ← isAbsolute_posix_iff]
    exact h.relative
  have htrailing : f.trailing = false := by
    rw [Bool.eq_false_iff]
    exact fun htrailing => h.no_trailing ((Form.getLast?_render hf).mpr (.inl htrailing))
  have hne : f.segments ≠ [] := by
    intro hnil
    have hdot : f.render = ['.'] := by simp [Form.render, hnil, habsolute, htrailing]
    exact h.no_dot (by rw [hdot]; decide)
  have hpieces : f.render.splitOn '/' = f.segments := by
    simp [Form.splitOn_render hf hne, habsolute, htrailing]
  intro s hs
  have hup : s ≠ ['.', '.'] := fun hup => h.no_up (hup ▸ hs)
  rw [hpieces] at hs
  exact (Folded.mem hf hs).resolve_left hup

/-- Names behind other segments are kept. -/
theorem fold_append_names {absolute : Bool} {names : List Text} (h : ∀ s ∈ names, IsName s)
    (segments : List Text) :
    fold absolute (segments ++ names) = fold absolute segments ++ names := by
  rw [fold, List.foldl_append, foldl_push_names h, List.reverse_append, List.reverse_reverse, fold]

section Absolute

variable {p : Text} (hhead : p.head? = some '/')

include hhead

/-- An absolute path in normal form has no blank segment but empty ones. -/
theorem segments_eq_names (h : IsWritten p) : segments p = names p := by
  refine List.filter_congr fun s hs => ?_
  have hdot : s ≠ ['.'] := by
    rintro rfl
    refine (isCanonical_of_isWritten h).no_dot ?_ ?_ hs <;> rintro rfl <;> cases hhead
  simp [IsBlank, hdot]

theorem names_eq_fold (h : IsWritten p) : names p = fold true (p.splitOn '/') := by
  have hread := names_normalize p
  rw [normalize_eq_self_iff.mpr h] at hread
  rw [hread, Form.ofText, hhead]
  rfl

end Absolute

/-- **The way to what is joined** is what was joined, if that only descends. -/
theorem relative_join {start p : Text} (hstart : isAbsolute .posix start)
    (hnormal : normalize start = start) (hp : IsDescent p) : relative start (join start p) = p := by
  have hhead := isAbsolute_posix_iff.mp hstart
  have hwritten := normalize_eq_self_iff.mp hnormal
  have hsegments : segments (join start p) = segments start ++ p.splitOn '/' := by
    rw [segments_eq_names (head?_join hhead p) (isWritten_join start p), names_join hhead,
      fold_append_names hp.isName, segments_eq_names hhead hwritten, names_eq_fold hhead hwritten]
  have hway : dropCommon (segments start) (segments (join start p)) = ([], p.splitOn '/') := by
    have hcommon := dropCommon_append (segments start) [] (p.splitOn '/')
    rwa [List.append_nil, ← hsegments] at hcommon
  rw [relative, hway]
  exact List.intercalate_splitOn ..

/-! ### Both ways -/

/-- **The way to a path and joining are inverse** from an absolute directory in normal form. Joined
to the directory, the way to an absolute path is the normal form of the path, but for a separator at
the end; and the way to a descent that is joined to the directory is the descent. -/
theorem relative_inverts_join {start : Text} (hstart : isAbsolute .posix start)
    (hnormal : normalize start = start) :
    (∀ target, isAbsolute .posix target →
      EqUpToSeparator (join start (relative start target)) (normalize target)) ∧
      ∀ p, IsDescent p → relative start (join start p) = p :=
  ⟨fun _ htarget => join_relative hstart hnormal htarget,
    fun _ hp => relative_join hstart hnormal hp⟩

/-- A path that climbs out of what it shares with the directory and above the root, and a descent of
two names. -/
theorem relative_inverts_join_climbing :
    isAbsolute .posix "/a/b/".toList ∧ normalize "/a/b/".toList = "/a/b/".toList ∧
      isAbsolute .posix "/a//x/../../.././c/".toList ∧
      relative "/a/b/".toList "/a//x/../../.././c/".toList = "../x/../../.././c".toList ∧
      normalize "/a//x/../../.././c/".toList = "/c/".toList ∧
      EqUpToSeparator (join "/a/b/".toList "../x/../../.././c".toList) "/c/".toList ∧
      IsDescent "..c/d".toList ∧
      relative "/a/b/".toList (join "/a/b/".toList "..c/d".toList) = "..c/d".toList := by
  have hstart : isAbsolute .posix "/a/b/".toList := by decide
  have hnormal : normalize "/a/b/".toList = "/a/b/".toList := by decide +kernel
  have htarget : isAbsolute .posix "/a//x/../../.././c/".toList := by decide
  have hdescent : IsDescent "..c/d".toList :=
    ⟨by decide, by decide +kernel, by decide, by decide, by decide, by decide⟩
  obtain ⟨hback, hforth⟩ := relative_inverts_join hstart hnormal
  exact ⟨hstart, hnormal, htarget, by decide +kernel, by decide +kernel, hback _ htarget, hdescent,
    hforth _ hdescent⟩

end Path

end ImportAlias
