import ImportAlias.Proofs.Json.Typed

/-!
# Where faults are met

A reader takes characters off the front of a text and never puts any back. So what it leaves of the
text is an end of it, and so is what it has not read where it meets a fault (`Within`). Every
reader is shown to be of this kind from the readers that it calls.

The place of a fault is counted from the part that is not read, so it lies on a character of the
text, or at its end (`exists_liesOn_locate`).
-/

namespace ImportAlias

namespace Json

variable {α β σ : Type} {s t : Text}

/-- What the reader of a text leaves, or has not read where it stops, is an end of the text. -/
inductive Within (left : α → Text) (s : Text) : Except Fault α → Prop
  | ok {a : α} (h : left a <:+ s) : Within left s (.ok a)
  | error {fault : Fault} (h : fault.unread <:+ s) : Within left s (.error fault)

namespace Within

variable {left : α → Text} {r : Except Fault α}

theorem mono (h : Within left s r) (hst : s <:+ t) : Within left t r := by
  cases h with
  | ok h => exact .ok (h.trans hst)
  | error h => exact .error (h.trans hst)

theorem cons (h : Within left s r) (c : Char) : Within left (c :: s) r :=
  h.mono (List.suffix_cons c s)

/-- What a reader does with the result of another is shown for each kind of result. -/
@[elab_as_elim]
theorem elim {motive : Except Fault α → Prop} (h : Within left s r)
    (ok : ∀ a, left a <:+ s → motive (.ok a))
    (error : ∀ fault, fault.unread <:+ s → motive (.error fault)) : motive r := by
  cases h with
  | ok h => exact ok _ h
  | error h => exact error _ h

end Within

theorem skipSpace_suffix (s : Text) : skipSpace s <:+ s := List.dropWhile_suffix _

/-! ### Names and strings -/

theorem within_readLetters (letters : List Char) (s : Text) :
    Within id s (readLetters letters s) := by
  induction letters generalizing s with
  | nil => exact .ok (List.suffix_refl s)
  | cons letter letters ih =>
    cases s with
    | nil => exact .error List.nil_suffix
    | cons c s =>
      rw [readLetters]
      split
      · exact (ih s).cons c
      · exact .error (List.suffix_refl _)

theorem within_readStringFrom (state : StringState) (read s : Text) :
    Within Prod.snd s (readStringFrom state read s) := by
  fun_induction readStringFrom state read s
  all_goals first
    | exact .ok (List.suffix_cons _ _)
    | exact .error (List.suffix_refl _)
    | exact .error (List.suffix_cons _ _)
    | exact Within.cons ‹_› _

theorem within_readString (s : Text) : Within Prod.snd s (readString s) :=
  within_readStringFrom .plain [] s

/-! ### Numbers -/

theorem within_scaled (significand : Nat) (exponent : Int) (s : Text) :
    Within Prod.snd s (scaled significand exponent s) := by
  -- The rounding is put aside before the match on it is opened, or it would be computed.
  generalize hscaled : scaled = scaleBy
  delta scaled at hscaled
  generalize Binary64.ofDecimal = ofDecimal at hscaled
  subst hscaled
  dsimp only
  cases ofDecimal significand exponent with
  | some x => exact .ok (List.suffix_refl s)
  | none => exact .error (List.suffix_refl s)

theorem readExponentDigits_suffix (value : Nat) (s : Text) :
    (readExponentDigits value s).2 <:+ s := by
  induction s generalizing value with
  | nil => exact List.nil_suffix
  | cons c s ih =>
    rw [readExponentDigits]
    split
    · dsimp only
      split
      · exact List.suffix_cons c s
      · exact (ih _).trans (List.suffix_cons c s)
    · exact List.suffix_refl _

theorem within_readExponent (significand : Nat) (offset : Int) (s : Text) :
    Within Prod.snd s (readExponent significand offset s) := by
  unfold readExponent
  extract_lets negative unsigned
  have hunsigned : unsigned <:+ s := by
    simp only [unsigned]
    split
    · exact List.drop_suffix 1 s
    · exact List.suffix_refl s
  clear_value unsigned
  refine Within.mono ?_ hunsigned
  split
  · exact .error List.nil_suffix
  · rename_i c rest
    split
    · have hdigits := readExponentDigits_suffix (digitValue c) rest
      refine Within.cons (Within.mono ?_ hdigits) c
      generalize readExponentDigits (digitValue c) rest = digits
      obtain ⟨exponent, later⟩ := digits
      cases exponent with
      | some exponent => exact within_scaled _ _ _
      | none =>
        dsimp only
        split
        · exact .error (List.suffix_refl _)
        · exact .ok (List.dropWhile_suffix _)
    · exact .error (List.suffix_refl _)

theorem within_readFraction (significand : Nat) (offset : Int) (s : Text) :
    Within Prod.snd s (readFraction significand offset s) := by
  unfold readFraction
  extract_lets digits rest
  have hrest : rest <:+ s := List.dropWhile_suffix isDigit
  clear_value digits rest
  refine Within.mono ?_ hrest
  split
  · split
    · exact .error List.nil_suffix
    · exact .error (List.suffix_refl _)
  · generalize takeSignificand significand digits = taken
    obtain ⟨significand, ignored⟩ := taken
    dsimp only
    split
    · exact (within_readExponent _ _ _).mono (List.drop_suffix 1 rest)
    · exact within_scaled _ _ _

theorem within_readAfterInteger (negative : Bool) (significand offset : Nat) (s : Text) :
    Within Prod.snd s (readAfterInteger negative significand offset s) := by
  unfold readAfterInteger
  split
  · exact (within_readFraction _ _ _).mono (List.drop_suffix 1 s)
  split
  · exact (within_readExponent _ _ _).mono (List.drop_suffix 1 s)
  split
  · exact within_scaled _ _ _
  split
  · exact within_scaled _ _ _
  · exact .ok (List.suffix_refl s)

theorem within_readNumber (negative : Bool) (s : Text) :
    Within Prod.snd s (readNumber negative s) := by
  unfold readNumber
  split
  · exact .error List.nil_suffix
  · rename_i c rest
    split
    · refine Within.cons ?_ c
      split
      · exact .error (List.suffix_refl rest)
      · exact within_readAfterInteger _ _ _ _
    split
    · exact (within_readAfterInteger _ _ _ _).mono (List.dropWhile_suffix isDigit)
    · exact .error (List.suffix_refl _)

/-! ### Values that are skipped -/

theorem within_skipFrom (state : Skipping) (frames : List Frame) (s : Text) :
    Within id s (skipFrom state frames s) := by
  induction s generalizing state frames with
  | nil =>
    rw [skipFrom]
    split
    · exact .ok List.nil_suffix
    · exact .error List.nil_suffix
  | cons c s ih =>
    rw [skipFrom]
    split
    · exact (ih _ _).cons c
    · exact .ok (List.suffix_refl _)
    · exact .ok (List.suffix_cons c s)
    · exact .error (List.suffix_refl _)

theorem within_skipValue (s : Text) : Within id s (skipValue s) := within_skipFrom .value [] s

/-! ### Typed places -/

/-- A value of another kind is reported at its beginning or at its end, or at a fault in it. -/
theorem mistyped_suffix (expected : Expected) (s : Text) : (mistyped expected s).unread <:+ s := by
  unfold mistyped
  extract_lets report
  have hreport (found : Found) (letters : List Char) (rest : Text) :
      (report found (readLetters letters rest)).unread <:+ rest :=
    (within_readLetters letters rest).elim (fun _ h => h) (fun _ h => h)
  clear_value report
  split
  · exact List.nil_suffix
  rename_i c rest
  have hrest {u : Text} (h : u <:+ rest) : u <:+ c :: rest := h.trans (List.suffix_cons c rest)
  split
  · exact hrest (hreport _ _ rest)
  split
  · exact hrest (hreport _ _ rest)
  split
  · exact hrest (hreport _ _ rest)
  split
  · have hunsigned : (if c = '-' then rest else c :: rest) <:+ c :: rest := by
      split
      · exact List.suffix_cons c rest
      · exact List.suffix_refl _
    refine List.IsSuffix.trans ?_ hunsigned
    exact (within_readNumber (c = '-') _).elim (fun _ h => h) (fun _ h => h)
  split
  · exact hrest ((within_readString rest).elim (fun _ h => h) (fun _ h => h))
  split
  · exact List.suffix_refl _
  split
  · exact List.suffix_refl _
  · exact List.suffix_refl _

theorem within_readText (s : Text) : Within Prod.snd s (readText s) := by
  refine Within.mono ?_ (skipSpace_suffix s)
  unfold readText
  split
  · rename_i hs
    rw [hs]
    exact (within_readString _).cons _
  · exact .error (mistyped_suffix _ _)

theorem within_readNullable {read : Text → Read α} (hread : ∀ s, Within Prod.snd s (read s))
    (s : Text) : Within Prod.snd s (readNullable read s) := by
  refine Within.mono ?_ (skipSpace_suffix s)
  unfold readNullable
  split
  · rename_i rest hs
    rw [hs]
    refine Within.cons ?_ _
    exact (within_readLetters _ rest).elim (fun _ h => .ok h) (fun _ h => .error h)
  · exact (hread (skipSpace s)).elim (fun _ h => .ok h) (fun _ h => .error h)

theorem within_readColon (s : Text) : Within id s (readColon s) := by
  refine Within.mono ?_ (skipSpace_suffix s)
  unfold readColon
  split
  · rename_i hs
    rw [hs]
    exact .ok (List.suffix_cons _ _)
  · exact .error List.nil_suffix
  · exact .error (List.suffix_refl _)

/-! ### Arrays -/

theorem within_nextElement (first : Bool) (s : Text) :
    Within (·.getD []) s (nextElement first s) := by
  refine Within.mono ?_ (skipSpace_suffix s)
  unfold nextElement
  split
  · exact .error List.nil_suffix
  rename_i c rest hs
  rw [hs]
  split
  · exact .ok List.nil_suffix
  split
  · exact .ok (List.suffix_refl _)
  split
  · refine Within.cons (Within.mono ?_ (skipSpace_suffix rest)) c
    split
    · rename_i hrest
      rw [hrest]
      exact .error (List.suffix_refl _)
    · exact .ok (List.suffix_refl _)
  · exact .error (List.suffix_refl _)

theorem within_endArray (s : Text) : Within id s (endArray s) := by
  refine Within.mono ?_ (skipSpace_suffix s)
  unfold endArray
  split
  · exact .error List.nil_suffix
  · rename_i hs
    rw [hs]
    exact .ok (List.suffix_cons _ _)
  · rename_i rest hs
    rw [hs]
    refine Within.cons (Within.mono ?_ (skipSpace_suffix rest)) _
    split
    · rename_i hrest
      rw [hrest]
      exact .error (List.suffix_refl _)
    · exact .error (List.suffix_refl _)
  · exact .error (List.suffix_refl _)

theorem within_readElements {read : Text → Read α} (hread : ∀ s, Within Prod.snd s (read s))
    (bound : Nat) (first : Bool) (elements : List α) (s : Text) :
    Within Prod.snd s (readElements read bound first elements s) := by
  induction bound generalizing first elements s with
  | zero => exact .error (List.suffix_refl s)
  | succ bound ih =>
    rw [readElements]
    refine (within_nextElement first s).elim (fun next h => ?_) (fun _ h => .error h)
    cases next <;> dsimp only
    case none => exact (within_endArray s).elim (fun _ h => .ok h) (fun _ h => .error h)
    case some later =>
      refine Within.mono ?_ h
      exact (hread later).elim (fun _ h => (ih _ _ _).mono h) (fun _ h => .error h)

theorem within_readArray {read : Text → Read α} (hread : ∀ s, Within Prod.snd s (read s))
    (s : Text) : Within Prod.snd s (readArray read s) := by
  refine Within.mono ?_ (skipSpace_suffix s)
  unfold readArray
  split
  · rename_i hs
    rw [hs]
    exact (within_readElements hread _ _ _ _).cons _
  · exact .error (mistyped_suffix _ _)

/-! ### Objects -/

theorem within_nextKey (first : Bool) (s : Text) :
    Within (fun next => (next.map Prod.snd).getD []) s (nextKey first s) := by
  unfold nextKey
  extract_lets key
  have hkey (rest : Text) : Within (fun next => (next.map Prod.snd).getD []) rest (key rest) := by
    simp only [key]
    exact (within_readString rest).elim (fun _ h => .ok h) (fun _ h => .error h)
  clear_value key
  refine Within.mono ?_ (skipSpace_suffix s)
  split
  · exact .error List.nil_suffix
  rename_i c rest hs
  rw [hs]
  split
  · exact .ok List.nil_suffix
  split
  · split
    · exact (hkey rest).cons c
    · exact .error (List.suffix_refl _)
  split
  · refine Within.cons (Within.mono ?_ (skipSpace_suffix rest)) c
    split
    · rename_i hrest
      rw [hrest]
      exact (hkey _).cons _
    · rename_i hrest
      rw [hrest]
      exact .error (List.suffix_refl _)
    · exact .error List.nil_suffix
    · exact .error (List.suffix_refl _)
  · exact .error (List.suffix_refl _)

theorem endObject_suffix (s : Text) : endObject s <:+ s := by
  refine List.IsSuffix.trans ?_ (skipSpace_suffix s)
  unfold endObject
  split
  · rename_i hs
    rw [hs]
    exact List.suffix_cons _ _
  · exact List.suffix_refl _

theorem within_readObject {member : σ → Text → Text → Read σ}
    (hmember : ∀ state key s, Within Prod.snd s (member state key s)) (start : σ) (s : Text) :
    Within Prod.snd s (readObject member start s) := by
  have hmembers : ∀ bound first state s,
      Within Prod.snd s (readMembers member bound first state s) := by
    intro bound
    induction bound with
    | zero => exact fun _ _ s => .error (List.suffix_refl s)
    | succ bound ih =>
      intro first state s
      rw [readMembers]
      refine (within_nextKey first s).elim (fun next h => ?_) (fun _ h => .error h)
      cases next <;> dsimp only
      case none => exact .ok (endObject_suffix s)
      case some entry =>
        refine Within.mono ?_ h
        exact (hmember state entry.1 entry.2).elim (fun _ h => (ih _ _ _).mono h)
          (fun _ h => .error h)
  exact hmembers _ _ _ _

/-! ### Places -/

namespace Position

/-- The place before a character of a text, or at the end of the text. -/
def before (s : Text) (k : ℕ) : Position := (s.take k).foldl advance start

/-- A place lies on a character of a text if it is the place before it or that of a later byte of
it. The end of the text counts as a character without bytes. -/
def LiesOn (p : Position) (s : Text) (k : ℕ) : Prop :=
  ∃ b, p = ⟨(before s k).line, (before s k).column + b⟩ ∧ (b = 0 ∨ ∃ c ∈ s[k]?, b < c.utf8Size)

theorem line_foldl_advance (s : Text) (p : Position) :
    (s.foldl advance p).line = p.line + s.count '\n' := by
  induction s generalizing p with
  | nil => rfl
  | cons c s ih =>
    rw [List.foldl_cons, ih, List.count_cons, advance]
    by_cases hc : c = '\n'
    · simp [hc]
      omega
    · simp [hc]

/-- **A character is on a line for each line break before it**, besides the first line. -/
theorem line_before (s : Text) (k : ℕ) : (before s k).line = 1 + (s.take k).count '\n' :=
  line_foldl_advance _ start

theorem LiesOn.line_eq {p : Position} {s : Text} {k : ℕ} (h : p.LiesOn s k) :
    p.line = 1 + (s.take k).count '\n' := by
  obtain ⟨b, rfl, -⟩ := h
  exact line_before s k

theorem LiesOn.eq_before {p : Position} {s : Text} (h : p.LiesOn s s.length) :
    p = before s s.length := by
  obtain ⟨b, rfl, rfl | ⟨c, hc, -⟩⟩ := h
  · rfl
  · simp at hc

/-- A place that is a number of bytes further on lies on a later character. -/
theorem exists_advanceBytes (bytes : ℕ) (s : Text) (p : Position) :
    ∃ k ≤ s.length, ∃ b, (b = 0 ∨ ∃ c ∈ s[k]?, b < c.utf8Size) ∧
      advanceBytes bytes s p =
        ⟨((s.take k).foldl advance p).line, ((s.take k).foldl advance p).column + b⟩ := by
  induction s generalizing bytes p with
  | nil => exact ⟨0, le_rfl, 0, .inl rfl, rfl⟩
  | cons c s ih =>
    rw [advanceBytes]
    split
    · exact ⟨0, Nat.zero_le _, 0, .inl rfl, rfl⟩
    split
    · obtain ⟨k, hk, b, hb, heq⟩ := ih (bytes - c.utf8Size) (p.advance c)
      exact ⟨k + 1, Nat.succ_le_succ hk, b, hb, heq⟩
    · rename_i hbytes
      exact ⟨0, Nat.zero_le _, bytes, .inr ⟨c, rfl, Nat.lt_of_not_le hbytes⟩, rfl⟩

end Position

/-- **A fault lies on a character of the text**, or at its end. -/
theorem exists_liesOn_locate {fault : Fault} (h : fault.unread <:+ s) :
    ∃ k ≤ s.length, (fault.locate s).position.LiesOn s k := by
  obtain ⟨read, rfl⟩ := h
  have hread : (read ++ fault.unread).length - fault.unread.length = read.length := by simp
  obtain ⟨k, hk, b, hb, heq⟩ := Position.exists_advanceBytes fault.bytes fault.unread
    (read.foldl Position.advance Position.start)
  refine ⟨read.length + k, by simpa using hk, b, ?_, ?_⟩
  · rw [Fault.locate, hread, List.take_left, Position.before, List.take_length_add_append,
      List.foldl_append]
    exact heq
  · rwa [List.getElem?_append_right (Nat.le_add_right _ _), Nat.add_sub_cancel_left]

end Json

end ImportAlias
