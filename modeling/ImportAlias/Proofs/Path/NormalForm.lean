import ImportAlias.Proofs.Path.Fold

/-!
# Normal forms

A path is in normal form when it is written from a folded form. Normalizing gives such a path
(`isFolded_ofText`), and a path that is written from a folded form reads back as that form
(`ofText_render`), up to the trailing separator of the root, which is not written twice. So the
normal paths are exactly the fixed points of `normalize` (`normalize_eq_self_iff`), and
normalizing twice is normalizing once.
-/

namespace ImportAlias

namespace Path

/-! ### Segments and the text between them -/

/-- No piece of a text cut at a character holds that character. -/
theorem not_mem_of_mem_splitOn {c : Char} {t s : Text} (h : s ∈ t.splitOn c) : c ∉ s := by
  induction t generalizing s with
  | nil =>
    rw [List.splitOn_nil, List.mem_singleton] at h
    simp [h]
  | cons x t ih =>
    rw [List.splitOn_cons_eq_if_modifyHead] at h
    obtain ⟨first, pieces, hpieces⟩ := List.exists_cons_of_ne_nil (List.splitOn_ne_nil c t)
    rw [hpieces] at h ih
    split at h
    · rcases List.mem_cons.mp h with rfl | h
      · simp
      · exact ih h
    · rename_i hx
      rcases List.mem_cons.mp h with rfl | h
      · have hfirst := ih (List.mem_cons_self (a := first))
        simp only [beq_iff_eq] at hx
        simp [hfirst, Ne.symm hx]
      · exact ih (List.mem_cons_of_mem _ h)

theorem mem_intercalate_cons {sep : Char} {s : Text} {segments : List Text} {c : Char} :
    c ∈ [sep].intercalate (s :: segments) ↔
      c ∈ s ∨ (segments ≠ [] ∧ (c = sep ∨ c ∈ [sep].intercalate segments)) := by
  cases segments with
  | nil => simp [List.intercalate_singleton]
  | cons s' segments => simp [List.intercalate_cons_cons]

/-- Joined segments hold the characters of the segments and separators. -/
theorem mem_intercalate {sep : Char} {segments : List Text} {c : Char}
    (h : c ∈ [sep].intercalate segments) : c = sep ∨ ∃ s ∈ segments, c ∈ s := by
  induction segments with
  | nil => cases h
  | cons s segments ih =>
    rcases mem_intercalate_cons.mp h with h | ⟨-, h | h⟩
    · exact .inr ⟨s, List.mem_cons_self, h⟩
    · exact .inl h
    · rcases ih h with h | ⟨s', hs', h⟩
      · exact .inl h
      · exact .inr ⟨s', List.mem_cons_of_mem _ hs', h⟩

theorem mem_intercalate_of_mem {sep : Char} {segments : List Text} {c : Char} {s : Text}
    (hs : s ∈ segments) (hc : c ∈ s) : c ∈ [sep].intercalate segments := by
  induction segments with
  | nil => cases hs
  | cons s' segments ih =>
    rw [mem_intercalate_cons]
    rcases List.mem_cons.mp hs with rfl | hs
    · exact .inl hc
    · exact .inr ⟨List.ne_nil_of_mem hs, .inr (ih hs)⟩

/-- A text holds the characters of its pieces. -/
theorem mem_of_mem_splitOn {sep : Char} {t s : Text} {c : Char} (hs : s ∈ t.splitOn sep)
    (hc : c ∈ s) : c ∈ t := by
  have hmem : c ∈ [sep].intercalate (t.splitOn sep) := mem_intercalate_of_mem hs hc
  rwa [List.intercalate_splitOn] at hmem

/-- Joined segments neither begin nor end with a separator. -/
theorem intercalate_ends {segments : List Text} (hne : segments ≠ [])
    (h : ∀ s ∈ segments, s ≠ [] ∧ '/' ∉ s) :
    ['/'].intercalate segments ≠ [] ∧ (['/'].intercalate segments).head? ≠ some '/' ∧
      (['/'].intercalate segments).getLast? ≠ some '/' := by
  induction segments with
  | nil => exact absurd rfl hne
  | cons s segments ih =>
    obtain ⟨hs, hslash⟩ := h s List.mem_cons_self
    obtain ⟨c, s, rfl⟩ := List.exists_cons_of_ne_nil hs
    cases segments with
    | nil =>
      rw [List.intercalate_singleton]
      refine ⟨hs, ?_, fun hlast => hslash (List.mem_of_getLast? hlast)⟩
      simp only [List.mem_cons, not_or] at hslash
      simp [Ne.symm hslash.1]
    | cons s' segments =>
      obtain ⟨htail, -, hlast⟩ := ih (by simp) fun s hs => h s (List.mem_cons_of_mem _ hs)
      simp only [List.mem_cons, not_or] at hslash
      rw [List.intercalate_cons_cons]
      refine ⟨by simp, by simp [Ne.symm hslash.1], ?_⟩
      rw [List.getLast?_eq_some_getLast htail] at hlast
      rw [List.getLast?_append, List.getLast?_eq_some_getLast htail]
      exact hlast

/-! ### Folded forms -/

namespace Form

/-- The segments of the form are folded. -/
def IsFolded (f : Form) : Prop := Folded f.absolute f.segments

theorem isFolded_ofText (p : Text) : (Form.ofText p).IsFolded :=
  folded_fold _ fun _ hs => not_mem_of_mem_splitOn hs

theorem IsFolded.segment_ok {f : Form} (hf : f.IsFolded) {s : Text} (hs : s ∈ f.segments) :
    s ≠ [] ∧ '/' ∉ s := by
  rcases Folded.mem hf hs with rfl | hname
  · simp
  · exact ⟨hname.1, hname.2.2.2⟩

/-- The pieces of a written form are its segments, with an empty piece before a leading and
behind a trailing separator. -/
theorem splitOn_render {f : Form} (hf : f.IsFolded) (hne : f.segments ≠ []) :
    f.render.splitOn '/' =
      (if f.absolute then [[]] else []) ++ f.segments ++ (if f.trailing then [[]] else []) := by
  have hbody : (['/'].intercalate f.segments).splitOn '/' = f.segments :=
    List.splitOn_intercalate '/' (fun s hs => (hf.segment_ok hs).2) hne
  have htail : (['/'].intercalate f.segments ++ if f.trailing then ['/'] else []).splitOn '/' =
      f.segments ++ if f.trailing then [[]] else [] := by
    split
    · rw [List.splitOn_append_cons_self, hbody, List.splitOn_nil]
    · simpa using hbody
  rw [render, if_neg hne, List.append_assoc, List.append_assoc, ← htail]
  split
  · rw [List.singleton_append, List.splitOn_cons_eq_if_modifyHead]
    rfl
  · rfl

/-- A form is written with the characters of its segments, separators, and a `.` for want of
segments. -/
theorem mem_render {f : Form} {c : Char} (h : c ∈ f.render) :
    c = '/' ∨ c = '.' ∨ ∃ s ∈ f.segments, c ∈ s := by
  obtain ⟨absolute, segments, trailing⟩ := f
  by_cases hne : segments = []
  · simp only [render, hne, if_true] at h
    grind
  · simp only [render, hne, if_false] at h
    have hc : c = '/' ∨ c ∈ ['/'].intercalate segments := by grind
    rcases hc with hc | hc
    · exact .inl hc
    · exact (mem_intercalate hc).imp_right .inr

/-- Only the form of an absolute path is written with a leading separator. -/
theorem head?_render {f : Form} (hf : f.IsFolded) : f.render.head? = some '/' ↔ f.absolute := by
  rw [render]
  by_cases hne : f.segments = []
  · rw [if_pos hne]
    cases f.absolute <;> cases f.trailing <;> simp
  · obtain ⟨hbody, hhead, -⟩ := intercalate_ends hne fun s hs => hf.segment_ok hs
    rw [if_neg hne]
    cases f.absolute
    · simpa [hbody] using hhead
    · simp

/-- A form is written with a trailing separator when it has one, and as the root. -/
theorem getLast?_render {f : Form} (hf : f.IsFolded) :
    f.render.getLast? = some '/' ↔ f.trailing ∨ f.absolute ∧ f.segments = [] := by
  rw [render]
  by_cases hne : f.segments = []
  · rw [if_pos hne]
    cases f.absolute <;> cases f.trailing <;> simp [hne]
  · obtain ⟨hbody, -, hlast⟩ := intercalate_ends hne fun s hs => hf.segment_ok hs
    rw [if_neg hne]
    cases f.trailing
    · simpa [hne, hbody] using hlast
    · simp

/-- **Reading inverts writing** on folded forms, except that the root is written with the one
separator that it has. -/
theorem ofText_render {f : Form} (hf : f.IsFolded) :
    Form.ofText f.render =
      { f with trailing := f.trailing || f.absolute && f.segments.isEmpty } := by
  have habsolute : (f.render.head? == some '/') = f.absolute := by
    rw [Bool.eq_iff_iff, beq_iff_eq, head?_render hf]
  have htrailing : (f.render.getLast? == some '/') =
      (f.trailing || f.absolute && f.segments.isEmpty) := by
    rw [Bool.eq_iff_iff, beq_iff_eq, getLast?_render hf]
    simp
  have hsegments : fold f.absolute (f.render.splitOn '/') = f.segments := by
    by_cases hne : f.segments = []
    · rw [render, if_pos hne, hne]
      cases f.absolute <;> cases f.trailing <;> rfl
    · rw [splitOn_render hf hne]
      -- The empty pieces at either end fold away.
      have hends : fold f.absolute ((if f.absolute then [[]] else []) ++ f.segments ++
          (if f.trailing then [[]] else [])) = fold f.absolute f.segments := by
        simp only [fold, List.foldl_append]
        cases f.absolute <;> cases f.trailing <;> simp
      rw [hends, fold_eq_self hf]
  simp only [Form.ofText, habsolute, htrailing, hsegments]

/-- The root has one way to be written. -/
theorem render_trailing (f : Form) :
    { f with trailing := f.trailing || f.absolute && f.segments.isEmpty }.render = f.render := by
  obtain ⟨absolute, segments, trailing⟩ := f
  cases segments <;> cases absolute <;> simp [render]

end Form

/-! ### Fixed points -/

/-- The path is written from a folded form. -/
def IsWritten (p : Text) : Prop := ∃ f : Form, f.IsFolded ∧ f.render = p

theorem isWritten_normalize (p : Text) : IsWritten (normalize p) :=
  ⟨Form.ofText p, Form.isFolded_ofText p, rfl⟩

/-- **The fixed points of `normalize`** are the paths that are written from folded forms. -/
theorem normalize_eq_self_iff {p : Text} : normalize p = p ↔ IsWritten p := by
  constructor
  · intro h
    exact h ▸ isWritten_normalize p
  · rintro ⟨f, hf, rfl⟩
    rw [normalize, Form.ofText_render hf, Form.render_trailing]

/-- Normalizing twice is normalizing once. -/
@[simp] theorem normalize_normalize (p : Text) : normalize (normalize p) = normalize p :=
  normalize_eq_self_iff.mpr (isWritten_normalize p)

/-- A path and its normal form have the same folded segments. -/
theorem segments_normalize (p : Text) :
    (Form.ofText (normalize p)).segments = (Form.ofText p).segments := by
  rw [normalize, Form.ofText_render (Form.isFolded_ofText p)]

/-- Normalizing brings in no character but a separator and the `.` of the current directory. -/
theorem mem_normalize {p : Text} {c : Char} (h : c ∈ normalize p) : c ∈ p ∨ c = '/' ∨ c = '.' := by
  rcases Form.mem_render h with hc | hc | ⟨s, hs, hc⟩
  · exact .inr (.inl hc)
  · exact .inr (.inr hc)
  · exact .inl (mem_of_mem_splitOn (mem_of_mem_fold hs) hc)

/-- Normalizing keeps a path absolute or relative. -/
theorem head?_normalize (p : Text) : (normalize p).head? = some '/' ↔ p.head? = some '/' := by
  rw [normalize, Form.head?_render (Form.isFolded_ofText p)]
  simp [Form.ofText]

/-! ### Paths that differ in a separator -/

/-- The normal forms of the paths are the same, up to one separator at the end. -/
def SameUpToSeparator (p q : Text) : Prop :=
  normalize p = normalize q ∨ normalize p ++ ['/'] = normalize q ∨
    normalize p = normalize q ++ ['/']

instance (p q : Text) : Decidable (SameUpToSeparator p q) := inferInstanceAs (Decidable (_ ∨ _ ∨ _))

/-- Paths that start alike and have the same folded segments differ at most in a separator. -/
theorem sameUpToSeparator_of_segments_eq {p q : Text}
    (habsolute : (Form.ofText p).absolute = (Form.ofText q).absolute)
    (hsegments : (Form.ofText p).segments = (Form.ofText q).segments) : SameUpToSeparator p q := by
  simp only [SameUpToSeparator, normalize, Form.render, habsolute, hsegments]
  by_cases hnil : (Form.ofText q).segments = []
  · -- Without segments the root is written with its separator, whatever the path ends in.
    cases (Form.ofText q).absolute <;> cases (Form.ofText p).trailing <;>
      cases (Form.ofText q).trailing <;> simp [hnil]
  · cases (Form.ofText p).trailing <;> cases (Form.ofText q).trailing <;> simp [hnil]

theorem normalize_ne_nil (p : Text) : normalize p ≠ [] := by
  rw [normalize, Form.render]
  by_cases hnil : (Form.ofText p).segments = []
  · rw [if_pos hnil]
    cases (Form.ofText p).absolute <;> cases (Form.ofText p).trailing <;> simp
  · have hbody := (intercalate_ends hnil fun _ => (Form.isFolded_ofText p).segment_ok).1
    simp [hnil, hbody]

/-- A separator at the end makes no segment. -/
theorem ofText_append_slash {p : Text} (h : p ≠ []) :
    Form.ofText (p ++ ['/']) = { Form.ofText p with trailing := true } := by
  have hhead : (p ++ ['/']).head? = p.head? := by
    obtain ⟨c, p, rfl⟩ := List.exists_cons_of_ne_nil h
    rfl
  have hpieces : (p ++ ['/']).splitOn '/' = p.splitOn '/' ++ [[]] :=
    List.splitOn_append_cons_self ..
  simp [Form.ofText, fold, hhead, hpieces]

/-- **Paths differ at most in a separator** exactly when they start alike and have the same folded
segments. -/
theorem sameUpToSeparator_iff {p q : Text} :
    SameUpToSeparator p q ↔ (Form.ofText p).absolute = (Form.ofText q).absolute ∧
      (Form.ofText p).segments = (Form.ofText q).segments := by
  have hnormal (p : Text) : (Form.ofText (normalize p)).absolute = (Form.ofText p).absolute ∧
      (Form.ofText (normalize p)).segments = (Form.ofText p).segments := by
    rw [normalize, Form.ofText_render (Form.isFolded_ofText p)]
    exact ⟨rfl, rfl⟩
  constructor
  · intro h
    have hform : ∃ b b' : Bool, { Form.ofText (normalize p) with trailing := b } =
        { Form.ofText (normalize q) with trailing := b' } := by
      rcases h with h | h | h
      · exact ⟨true, true, by rw [h]⟩
      · exact ⟨true, _, by rw [← ofText_append_slash (normalize_ne_nil p), h]⟩
      · exact ⟨_, true, by rw [← ofText_append_slash (normalize_ne_nil q), h]⟩
    obtain ⟨b, b', hform⟩ := hform
    rw [← (hnormal p).1, ← (hnormal p).2, ← (hnormal q).1, ← (hnormal q).2]
    simpa using And.intro (congrArg Form.absolute hform) (congrArg Form.segments hform)
  · rintro ⟨habsolute, hsegments⟩
    exact sameUpToSeparator_of_segments_eq habsolute hsegments

end Path

end ImportAlias
