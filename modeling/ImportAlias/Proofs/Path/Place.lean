import ImportAlias.Config.Discovery
import ImportAlias.Proofs.Path.NormalForm

/-!
# The place that a path spells

A place is the list of names that leads from the root to a file or directory. A path that does not
climb spells one: the names among its segments, behind the place that it starts from. Separators
that are doubled or stand at the end, and segments `.`, make no difference to it.

`within` adds a path to another, with a separator where one is needed, and so adds a name to the
place (`place_within`).
-/

namespace ImportAlias

namespace Path

/-- The place that a path starts from: the root or the working directory. -/
def origin (cwd : List Text) (p : Text) : List Text := if p.head? == some '/' then [] else cwd

/-- The segment stays where it is. -/
def IsBlank (s : Text) : Prop := s = [] ∨ s = ['.']

instance (s : Text) : Decidable (IsBlank s) := inferInstanceAs (Decidable (_ ∨ _))

/-- The segments that do not stay where they are. -/
def moves (segments : List Text) : List Text := segments.filter fun s => ¬IsBlank s

/-- The names in a path that does not climb. -/
def names (p : Text) : List Text := moves (p.splitOn '/')

/-- The place that a path spells, if it does not climb. -/
def place (cwd : List Text) (p : Text) : List Text := origin cwd p ++ names p

/-- No segment of the path climbs. -/
def Descends (p : Text) : Prop := ['.', '.'] ∉ p.splitOn '/'

instance (p : Text) : Decidable (Descends p) := inferInstanceAs (Decidable (_ ∉ _))

@[simp] theorem moves_nil : moves [] = [] := rfl

theorem moves_append (xs ys : List Text) : moves (xs ++ ys) = moves xs ++ moves ys :=
  List.filter_append ..

theorem moves_reverse (xs : List Text) : moves xs.reverse = (moves xs).reverse :=
  List.filter_reverse ..

theorem moves_cons_of_isBlank {s : Text} (h : IsBlank s) (segments : List Text) :
    moves (s :: segments) = moves segments := by
  simp [moves, h]

theorem moves_cons {s : Text} (h : ¬IsBlank s) (segments : List Text) :
    moves (s :: segments) = s :: moves segments := by
  simp [moves, h]

theorem moves_eq_nil {segments : List Text} (h : ∀ s ∈ segments, IsBlank s) :
    moves segments = [] := by
  simpa [moves] using h

theorem IsName.not_isBlank {s : Text} (h : IsName s) : ¬IsBlank s := by
  rintro (rfl | rfl)
  · exact h.1 rfl
  · exact h.2.1 rfl

/-- Names are all that moves among names. -/
theorem moves_eq_self {segments : List Text} (h : ∀ s ∈ segments, IsName s) :
    moves segments = segments := by
  refine List.filter_eq_self.mpr fun s hs => ?_
  simpa using (h s hs).not_isBlank

theorem IsName.head?_ne {s : Text} (h : IsName s) : s.head? ≠ some '/' := fun hhead =>
  h.2.2.2 (List.mem_of_head? hhead)

theorem IsName.splitOn {s : Text} (h : IsName s) : s.splitOn '/' = [s] :=
  List.splitOn_eq_singleton h.2.2.2

/-! ### A path within a directory -/

section Relative

variable {p : Text}

theorem within_nil (h : p.head? ≠ some '/') : within [] p = p := by
  simp [within, h]

theorem within_of_ne_nil (h : p.head? ≠ some '/') {dir : Text} (hdir : dir ≠ []) :
    within dir p = if dir.getLast? = some '/' then dir ++ p else dir ++ '/' :: p := by
  simp [within, h, hdir]

/-- A relative path within a directory adds its segments. The first takes the place of the blank
one that a separator at the end of the directory leaves. -/
theorem splitOn_within (h : p.head? ≠ some '/') (dir : Text) :
    (within dir p).splitOn '/' = dir.splitOn '/' ++ p.splitOn '/' ∨
      ∃ segments, dir.splitOn '/' = segments ++ [[]] ∧
        (within dir p).splitOn '/' = segments ++ p.splitOn '/' := by
  by_cases hdir : dir = []
  · refine .inr ⟨[], ?_, ?_⟩
    · rw [hdir, List.splitOn_nil]; rfl
    · rw [hdir, within_nil h]; rfl
  rw [within_of_ne_nil h hdir]
  split
  · rename_i hlast
    obtain ⟨parent, rfl⟩ := List.getLast?_eq_some_iff.mp hlast
    refine .inr ⟨parent.splitOn '/', ?_, ?_⟩
    · rw [List.splitOn_append_cons_self, List.splitOn_nil]
    · rw [List.append_assoc, List.singleton_append, List.splitOn_append_cons_self]
  · exact .inl (List.splitOn_append_cons_self ..)

theorem head?_within (h : p.head? ≠ some '/') (dir : Text) :
    (within dir p).head? = some '/' ↔ dir.head? = some '/' := by
  by_cases hdir : dir = []
  · rw [hdir, within_nil h]
    simp [h]
  obtain ⟨c, rest, rfl⟩ := List.exists_cons_of_ne_nil hdir
  rw [within_of_ne_nil h hdir]
  split <;> simp

theorem origin_within (h : p.head? ≠ some '/') (cwd : List Text) (dir : Text) :
    origin cwd (within dir p) = origin cwd dir := by
  simp only [origin, beq_iff_eq, head?_within h]

end Relative

section Name

variable {name : Text}

theorem within_ne_nil (h : name ≠ []) (dir : Text) : within dir name ≠ [] := by
  by_cases hroot : name.head? = some '/'
  · simpa [within, hroot] using h
  by_cases hdir : dir = []
  · rw [hdir, within_nil hroot]
    exact h
  · rw [within_of_ne_nil hroot hdir]
    split <;> simp [hdir]

theorem names_within (h : IsName name) (dir : Text) :
    names (within dir name) = names dir ++ [name] := by
  have hname : moves [name] = [name] := moves_eq_self (by simpa using h)
  have hblank : moves [[]] = [] := moves_eq_nil (by simp [IsBlank])
  rcases splitOn_within h.head?_ne dir with hwithin | ⟨segments, hdir, hwithin⟩
  · rw [names, hwithin, moves_append, h.splitOn, hname, names]
  · rw [names, hwithin, h.splitOn, names, hdir, moves_append, moves_append, hname,
      hblank, List.append_nil]

/-- A name within a directory is a place below that of the directory. -/
theorem place_within (h : IsName name) (cwd : List Text) (dir : Text) :
    place cwd (within dir name) = place cwd dir ++ [name] := by
  rw [place, origin_within h.head?_ne, names_within h, place, List.append_assoc]

end Name

end Path

end ImportAlias
