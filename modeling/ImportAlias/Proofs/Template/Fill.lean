import ImportAlias.Proofs.Pattern.Expression

/-!
# Filling a template, wildcard by wildcard

Filling is defined piece by piece, with the captures that are still to be used. Here it is told by
number: the wildcard behind `n` others takes group `n + 1`, or the last group there is
(`fill_eq_fillWith`). Told so, it can be cut anywhere, the number of wildcards in front being all
that the rest has to know (`fillWith_append`), and it can be done segment by segment of a path
(`splitOn_fillWith`).

A key is a template too. Filled with its own match it gives the specifier back (`fill_key`).
-/

namespace ImportAlias

namespace Template

/-- The text with each wildcard replaced, the one behind `n` others by `f n`. -/
def fillWith (f : Nat → Text) : Text → Text
  | [] => []
  | c :: t => if c = wildcard then f 0 ++ fillWith (fun n => f (n + 1)) t else c :: fillWith f t

/-- What the wildcard behind `n` others takes: of the specifier and its captures, numbered from 0,
the one with number `n + 1`, or the last. -/
def capture (id : Text) (captures : List Text) (n : Nat) : Text :=
  (id :: captures).getD (min (n + 1) captures.length) []

/-! ### Captures by number -/

section Capture

variable (id c : Text) (captures : List Text) (n : Nat)

theorem capture_nil : capture id [] n = id := by simp [capture]

theorem capture_cons_zero : capture id (c :: captures) 0 = c := by
  simp [capture]

theorem capture_cons_succ : capture id (c :: captures) (n + 1) = capture c captures n := by
  simp [capture, Nat.add_min_add_right]

end Capture

/-- **Filling by number.** The wildcard behind `n` others is replaced by group `n + 1`, or by the
last group when there are not so many. -/
theorem fill_eq_fillWith (id : Text) (captures : List Text) (template : Text) :
    fill id captures template = fillWith (capture id captures) template := by
  induction template generalizing id captures with
  | nil => simp [fill, fillWith, fillPieces]
  | cons c t ih =>
    obtain ⟨first, pieces, hpieces⟩ := List.exists_cons_of_ne_nil (List.splitOn_ne_nil wildcard t)
    by_cases hc : c = wildcard
    · have hsplit : (c :: t).splitOn wildcard = [] :: first :: pieces := by
        simp [List.splitOn_cons_eq_if_modifyHead, hc, hpieces]
      have hfill (current : Text) (others : List Text) :
          first ++ fillPieces current others pieces = fillWith (capture current others) t := by
        rw [← ih, fill, hpieces]
      rw [fill, hsplit, fillWith, if_pos hc]
      -- A capture that is left is used up; with none left the last is used again, and stays.
      cases captures with
      | nil =>
        have hshift : (fun n => capture id [] (n + 1)) = capture id [] := by
          funext n
          rw [capture_nil, capture_nil]
        rw [hshift, capture_nil]
        simp only [fillPieces, List.nil_append, List.append_assoc, hfill]
      | cons d others =>
        have hshift : (fun n => capture id (d :: others) (n + 1)) = capture d others := by
          funext n
          rw [capture_cons_succ]
        rw [hshift, capture_cons_zero]
        simp only [fillPieces, List.nil_append, List.append_assoc, hfill]
    · have hsplit : (c :: t).splitOn wildcard = (c :: first) :: pieces := by
        simp [List.splitOn_cons_eq_if_modifyHead, hc, hpieces]
      rw [fill, hsplit, fillWith, if_neg hc, ← ih, fill, hpieces]
      rfl

/-! ### Cutting a template -/

section FillWith

variable {f : Nat → Text} {t : Text}

theorem fillWith_nil (f : Nat → Text) : fillWith f [] = [] := rfl

theorem fillWith_wildcard (f : Nat → Text) (t : Text) :
    fillWith f (wildcard :: t) = f 0 ++ fillWith (fun n => f (n + 1)) t := if_pos rfl

theorem fillWith_cons (f : Nat → Text) {c : Char} (hc : c ≠ wildcard) (t : Text) :
    fillWith f (c :: t) = c :: fillWith f t := if_neg hc

/-- Behind a text the wildcards go on counting. -/
theorem fillWith_append (f : Nat → Text) (s t : Text) :
    fillWith f (s ++ t) = fillWith f s ++ fillWith (fun n => f (n + s.count wildcard)) t := by
  induction s generalizing f with
  | nil => rfl
  | cons c s ih =>
    by_cases hc : c = wildcard
    · subst hc
      rw [List.cons_append, fillWith_wildcard, fillWith_wildcard, ih, List.append_assoc,
        List.count_cons_self]
      rfl
    · rw [List.cons_append, fillWith_cons f hc, fillWith_cons f hc, ih,
        List.count_cons_of_ne hc]
      rfl

theorem fillWith_eq_self (f : Nat → Text) (h : wildcard ∉ t) : fillWith f t = t := by
  induction t with
  | nil => rfl
  | cons c t ih =>
    simp only [List.mem_cons, not_or] at h
    rw [fillWith_cons f (Ne.symm h.1), ih h.2]

end FillWith

/-! ### Segment by segment -/

/-- Texts filled one after another, each going on to count where the one before it ends. -/
def fillAll (f : Nat → Text) : List Text → List Text
  | [] => []
  | t :: texts => fillWith f t :: fillAll (fun n => f (n + t.count wildcard)) texts

section FillAll

variable {f : Nat → Text} {texts : List Text}

theorem fillAll_nil (f : Nat → Text) : fillAll f [] = [] := rfl

theorem fillAll_cons (f : Nat → Text) (t : Text) (texts : List Text) :
    fillAll f (t :: texts) =
      fillWith f t :: fillAll (fun n => f (n + t.count wildcard)) texts := rfl

/-- A text without wildcards is left as it is and counts for nothing. -/
theorem fillAll_cons_of_not_mem (f : Nat → Text) {t : Text} (h : wildcard ∉ t)
    (texts : List Text) : fillAll f (t :: texts) = t :: fillAll f texts := by
  rw [fillAll_cons, fillWith_eq_self f h, List.count_eq_zero_of_not_mem h]
  rfl

theorem fillAll_append_of_not_mem {xs : List Text} (f : Nat → Text) (h : ∀ t ∈ xs, wildcard ∉ t)
    (ys : List Text) : fillAll f (xs ++ ys) = xs ++ fillAll f ys := by
  induction xs with
  | nil => rfl
  | cons x xs ih =>
    rw [List.cons_append, fillAll_cons_of_not_mem f (h x List.mem_cons_self),
      ih fun t ht => h t (List.mem_cons_of_mem _ ht), List.cons_append]

/-- Joined segments are filled segment by segment. -/
theorem fillWith_intercalate (f : Nat → Text) (texts : List Text) :
    fillWith f (['/'].intercalate texts) = ['/'].intercalate (fillAll f texts) := by
  induction texts generalizing f with
  | nil => rfl
  | cons t texts ih =>
    cases texts with
    | nil => simp [fillAll]
    | cons t' texts =>
      have hslash : '/' ≠ wildcard := by decide
      rw [List.intercalate_cons_cons, List.append_assoc, fillWith_append, List.singleton_append,
        fillWith_cons _ hslash, ih, fillAll_cons f, fillAll_cons, List.intercalate_cons_cons,
        List.append_assoc]
      rfl

/-- Joined texts are cut where each of them is. -/
theorem splitOn_intercalate_of_ne_nil (hne : texts ≠ []) :
    (['/'].intercalate texts).splitOn '/' = texts.flatMap (List.splitOn '/') := by
  induction texts with
  | nil => exact absurd rfl hne
  | cons t texts ih =>
    cases texts with
    | nil => simp
    | cons t' texts =>
      rw [List.flatMap_cons, List.intercalate_cons_cons, List.append_assoc, List.singleton_append,
        List.splitOn_append_cons_self, ih (List.cons_ne_nil _ _)]

/-- **The segments of a filled path** are those that its segments are filled to. -/
theorem splitOn_fillWith (f : Nat → Text) (p : Text) :
    (fillWith f p).splitOn '/' = (fillAll f (p.splitOn '/')).flatMap (List.splitOn '/') := by
  obtain ⟨s, segments, hsegments⟩ := List.exists_cons_of_ne_nil (List.splitOn_ne_nil '/' p)
  have hne : fillAll f (p.splitOn '/') ≠ [] := by simp [hsegments, fillAll_cons]
  rw [← splitOn_intercalate_of_ne_nil hne, ← fillWith_intercalate, List.intercalate_splitOn]

end FillAll

/-! ### A key as a template -/

/-- With a capture for each piece all captures are used, each before its piece. -/
theorem fillPieces_eq {captures pieces : List Text} (h : captures.length = pieces.length)
    (current : Text) :
    fillPieces current captures pieces = (List.zipWith (· ++ ·) captures pieces).flatten := by
  induction captures generalizing pieces current with
  | nil =>
    rw [List.eq_nil_of_length_eq_zero h.symm]
    simp [fillPieces]
  | cons c captures ih =>
    obtain ⟨piece, pieces, rfl⟩ := List.exists_cons_of_length_eq_add_one h.symm
    simp [fillPieces, ih (Nat.succ.inj h)]

/-- A key is filled to what the captures make of its pattern. -/
theorem fill_eq_assemble {key : Text} {captures : List Text}
    (h : captures.length = (Pattern.ofKey key).wildcards) (id : Text) :
    fill id captures key = (Pattern.ofKey key).assemble captures := by
  obtain ⟨lead, runs, hruns⟩ := List.exists_cons_of_ne_nil (List.splitOn_ne_nil wildcard key)
  have hkey : Pattern.ofKey key = ⟨lead, runs⟩ := by rw [Pattern.ofKey, hruns]
  rw [hkey, Pattern.wildcards] at h
  rw [hkey, fill, hruns, Pattern.assemble]
  exact congrArg (lead ++ ·) (fillPieces_eq h id)

end Template

namespace Mapping

/-- What a compiled entry keeps of its key. -/
theorem key_of_compile {platform : Platform} {base key : Text} {templates : List Text} {m : Mapping}
    (h : compile platform base key templates = .ok m) :
    m.pattern = Pattern.ofKey key ∧ m.templates = templates.map (Path.anchor platform base) := by
  unfold compile at h
  split at h
  · cases h
  · cases h
    exact ⟨rfl, rfl⟩

/-- **A key filled with its own match** is the specifier again: of the groups that the expression of
a compiled key gives, the first is the specifier, and the others are one capture for each wildcard,
which make the specifier when they are put into the key. -/
theorem fill_key {platform : Platform} {base key : Text} {templates : List Text} {m : Mapping}
    (h : compile platform base key templates = .ok m) {id : Text} {groups : List Text}
    (hgroups : m.groups? id = some groups) :
    ∃ captures, groups = id :: captures ∧ m.pattern.captures? id = some captures ∧
      captures.length = (Pattern.ofKey key).wildcards ∧ Template.fill id captures key = id := by
  rw [groups?_eq] at hgroups
  obtain ⟨captures, hcaptures, rfl⟩ := Option.map_eq_some_iff.mp hgroups
  have hpattern : m.pattern = Pattern.ofKey key := (key_of_compile h).1
  have hmatches : (Pattern.ofKey key).Matches id captures :=
    (Pattern.captures?_eq_some_iff.mp (hpattern ▸ hcaptures)).1
  refine ⟨captures, rfl, hcaptures, hmatches.length_eq, ?_⟩
  rw [Template.fill_eq_assemble hmatches.length_eq]
  exact hmatches.assemble_eq

/-- Adjacent wildcards at the front, a run that occurs in the specifier more than once, and a
wildcard at the end. -/
theorem fill_key_adjacent :
    ∃ m, compile .posix "/b".toList "**-b*".toList [] = .ok m ∧
      m.groups? "xy-b-bz".toList =
        some ["xy-b-bz".toList, "xy-".toList, "b".toList, "z".toList] ∧
      Template.fill "xy-b-bz".toList ["xy-".toList, "b".toList, "z".toList] "**-b*".toList =
        "xy-b-bz".toList := by
  obtain ⟨m, hm⟩ : ∃ m, compile .posix "/b".toList "**-b*".toList [] = .ok m := ⟨_, rfl⟩
  have hgroups : m.groups? "xy-b-bz".toList =
      some ["xy-b-bz".toList, "xy-".toList, "b".toList, "z".toList] := by
    rw [groups?_eq, (key_of_compile hm).1]
    decide
  obtain ⟨captures, heq, -, -, hfill⟩ := fill_key hm hgroups
  obtain rfl := (List.cons.inj heq).2
  exact ⟨m, hm, hgroups, hfill⟩

end Mapping

end ImportAlias
