import ImportAlias.Text.Basic

/-!
# Cutting texts at bytes

A place in a text may be given by the number of bytes before it, in UTF-8. Such a number need not
be a place: it may lie inside a character or behind the end.
-/

namespace ImportAlias

namespace Text

/-- The first `n` bytes of a text, if they are whole characters. -/
def takeBytes? : Nat → Text → Option Text
  | 0, _ => some []
  | _ + 1, [] => none
  | n + 1, c :: t =>
    if c.utf8Size ≤ n + 1 then (takeBytes? (n + 1 - c.utf8Size) t).map (c :: ·) else none

/-- What is behind the first `n` bytes of a text, if they are whole characters. -/
def dropBytes? : Nat → Text → Option Text
  | 0, t => some t
  | _ + 1, [] => none
  | n + 1, c :: t => if c.utf8Size ≤ n + 1 then dropBytes? (n + 1 - c.utf8Size) t else none

/-- What stands between two places of a text. -/
def slice? (start stop : Nat) (t : Text) : Option Text :=
  (dropBytes? start t).bind (takeBytes? (stop - start))

/-- A text is cut into what it is made of. -/
theorem eq_append_of_takeBytes? {n : Nat} {t s : Text} (h : takeBytes? n t = some s) :
    ∃ rest, dropBytes? n t = some rest ∧ t = s ++ rest := by
  fun_induction takeBytes? n t generalizing s with
  | case1 t => exact ⟨t, by simp [dropBytes?], by simp_all⟩
  | case2 => simp at h
  | case3 n c t hn ih =>
    obtain ⟨u, hu, rfl⟩ := Option.map_eq_some_iff.mp h
    obtain ⟨rest, hrest, rfl⟩ := ih hu
    exact ⟨rest, by simp [dropBytes?, hn, hrest], rfl⟩
  | case4 => simp at h

end Text

end ImportAlias
