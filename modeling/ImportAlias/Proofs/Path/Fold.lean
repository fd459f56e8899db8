import ImportAlias.Path.Normal

/-!
# Folding segments

What is left of the segments of a path once they are folded has one shape: climbs, which only a
relative path has, and behind them names. `Folded` is that shape. Every list of segments folds to
it (`folded_fold`), and a list that has it already folds to itself (`fold_eq_self`).

The stack of the fold is the reverse of this shape: names on top of climbs. `push` is described
by what it does to each, so that no later proof opens it.
-/

namespace ImportAlias

namespace Path

/-- A segment that names an entry of a directory: not empty, not one of the two that move, and
free of separators. -/
def IsName (s : Text) : Prop := s ≠ [] ∧ s ≠ ['.'] ∧ s ≠ ['.', '.'] ∧ '/' ∉ s

instance (s : Text) : Decidable (IsName s) := inferInstanceAs (Decidable (_ ∧ _ ∧ _ ∧ _))

/-- The shape of folded segments, outermost first: climbs and then names. An absolute path has no
climbs. -/
def Folded (absolute : Bool) (segments : List Text) : Prop :=
  ∃ climbs names, segments = List.replicate climbs ['.', '.'] ++ names ∧
    (∀ s ∈ names, IsName s) ∧ (absolute = true → climbs = 0)

/-! ### One segment -/

section Push

variable {absolute : Bool} {s : Text}

@[simp] theorem push_nil (stack : List Text) : push absolute stack [] = stack := by simp [push]

@[simp] theorem push_dot (stack : List Text) : push absolute stack ['.'] = stack := by simp [push]

theorem push_name (hs : IsName s) (stack : List Text) : push absolute stack s = s :: stack := by
  simp [push, hs.1, hs.2.1, hs.2.2.1]

/-- A `..` takes the innermost name away. -/
theorem push_up_name (hs : IsName s) (stack : List Text) :
    push absolute (s :: stack) ['.', '.'] = stack := by
  simp [push, hs.2.2.1]

/-- A `..` with no name to take away is one more climb. -/
theorem push_up_climbs (climbs : Nat) :
    push false (List.replicate climbs ['.', '.']) ['.', '.'] =
      List.replicate (climbs + 1) ['.', '.'] := by
  cases climbs <;> simp [push, List.replicate_succ]

/-- The root is its own parent. -/
@[simp] theorem push_up_root : push true [] ['.', '.'] = [] := by simp [push]

end Push

/-! ### All segments -/

theorem foldl_push_names {absolute : Bool} {names : List Text} (h : ∀ s ∈ names, IsName s)
    (stack : List Text) : names.foldl (push absolute) stack = names.reverse ++ stack := by
  induction names generalizing stack with
  | nil => rfl
  | cons s names ih =>
    rw [List.foldl_cons, push_name (h s List.mem_cons_self),
      ih fun s' hs' => h s' (List.mem_cons_of_mem s hs')]
    simp

theorem foldl_push_climbs (climbs below : Nat) :
    (List.replicate climbs ['.', '.']).foldl (push false) (List.replicate below ['.', '.']) =
      List.replicate (below + climbs) ['.', '.'] := by
  induction climbs generalizing below with
  | zero => rfl
  | succ climbs ih =>
    rw [List.replicate_succ, List.foldl_cons, push_up_climbs, ih]
    congr 1
    omega

/-- Folded segments fold to themselves. -/
theorem fold_eq_self {absolute : Bool} {segments : List Text} (h : Folded absolute segments) :
    fold absolute segments = segments := by
  obtain ⟨climbs, names, rfl, hnames, habsolute⟩ := h
  have hclimbs : (List.replicate climbs ['.', '.']).foldl (push absolute) [] =
      List.replicate climbs ['.', '.'] := by
    cases absolute with
    | false => simpa using foldl_push_climbs climbs 0
    | true => rw [habsolute rfl]; rfl
  rw [fold, List.foldl_append, hclimbs, foldl_push_names hnames]
  simp

/-- One segment keeps the stack in shape. -/
theorem folded_push {absolute : Bool} {stack : List Text} (h : Folded absolute stack.reverse)
    {s : Text} (hs : '/' ∉ s) : Folded absolute (push absolute stack s).reverse := by
  by_cases hnil : s = []
  · rwa [hnil, push_nil]
  by_cases hdot : s = ['.']
  · rwa [hdot, push_dot]
  obtain ⟨climbs, names, hstack, hnames, habsolute⟩ := h
  rw [List.reverse_eq_iff] at hstack
  subst hstack
  by_cases hup : s = ['.', '.']
  · subst hup
    -- What a `..` does depends on what lies on top: a name, a climb or nothing.
    rcases List.eq_nil_or_concat names with rfl | ⟨outer, name, rfl⟩
    · cases absolute with
      | true =>
        obtain rfl := habsolute rfl
        exact ⟨0, [], by simp, by simp, fun _ => rfl⟩
      | false =>
        refine ⟨climbs + 1, [], ?_, by simp, by simp⟩
        simp only [List.append_nil, List.reverse_replicate, push_up_climbs]
    · have hname : IsName name := hnames name (by simp)
      have htop : (List.replicate climbs ['.', '.'] ++ outer.concat name).reverse =
          name :: (List.replicate climbs ['.', '.'] ++ outer).reverse := by simp
      refine ⟨climbs, outer, ?_, fun s hs => hnames s (by simp [hs]), habsolute⟩
      rw [htop, push_up_name hname, List.reverse_reverse]
  · have hname : IsName s := ⟨hnil, hdot, hup, hs⟩
    refine ⟨climbs, names ++ [s], ?_, ?_, habsolute⟩
    · rw [push_name hname, List.reverse_cons, List.reverse_reverse, List.append_assoc]
    · intro s' hs'
      rcases List.mem_append.mp hs' with h | h
      · exact hnames s' h
      · exact List.mem_singleton.mp h ▸ hname

/-- Whatever is folded has the shape. -/
theorem folded_fold (absolute : Bool) {segments : List Text} (h : ∀ s ∈ segments, '/' ∉ s) :
    Folded absolute (fold absolute segments) := by
  have key : ∀ stack, Folded absolute stack.reverse →
      Folded absolute (segments.foldl (push absolute) stack).reverse := by
    induction segments with
    | nil => exact fun _ hstack => hstack
    | cons s segments ih =>
      intro stack hstack
      exact ih (fun s' hs' => h s' (List.mem_cons_of_mem s hs')) _
        (folded_push hstack (h s List.mem_cons_self))
  exact key [] ⟨0, [], by simp, by simp, fun _ => rfl⟩

/-- A folded segment is a climb or a name. -/
theorem Folded.mem {absolute : Bool} {segments : List Text} (h : Folded absolute segments)
    {s : Text} (hs : s ∈ segments) : s = ['.', '.'] ∨ IsName s := by
  obtain ⟨climbs, names, rfl, hnames, -⟩ := h
  rcases List.mem_append.mp hs with hs | hs
  · exact .inl (List.eq_of_mem_replicate hs)
  · exact .inr (hnames s hs)

/-- Folding adds no segment. -/
theorem mem_of_mem_fold {absolute : Bool} {segments : List Text} {s : Text}
    (h : s ∈ fold absolute segments) : s ∈ segments := by
  have key : ∀ stack, s ∈ segments.foldl (push absolute) stack → s ∈ stack ∨ s ∈ segments := by
    clear h
    induction segments with
    | nil => exact fun _ h => .inl h
    | cons s' segments ih =>
      intro stack h
      rcases ih _ h with h | h
      · have hpush : s ∈ stack ∨ s = s' := by
          unfold push at h
          grind
        rcases hpush with hpush | rfl
        · exact .inl hpush
        · exact .inr List.mem_cons_self
      · exact .inr (List.mem_cons_of_mem _ h)
  simpa using key [] (List.mem_reverse.mp h)

end Path

end ImportAlias
