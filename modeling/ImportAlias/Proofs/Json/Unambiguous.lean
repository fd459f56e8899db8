import ImportAlias.Proofs.Json.Skip

/-!
# A text is at most one document

Whoever reads a text can find no other tree in it than the one that was written. That the tokens
end where they do is known from skipping, which leaves one text only; so what remains is to see
that a token tells the tree it begins, and that different scalars are written differently.
-/

namespace ImportAlias

namespace Json

/-! ### Scalars -/

/-- A glyph tells where it ends. -/
theorem Glyph.eq_of_append_eq {g g' : Glyph} {s s' : Text} (h : g.text ++ s = g'.text ++ s') :
    g = g' ∧ s = s' := by
  have hu : ∀ {c}, c ∈ "\"\\/bfnrt".toList → c ≠ 'u' := by
    rintro _ hc rfl
    exact absurd hc (by decide)
  match g, g' with
  | .plain c hc, .plain c' hc' => simp_all [Glyph.text]
  | .plain c hc, .escape _ _ | .plain c hc, .code _ _ _ _ _ =>
    exact absurd (List.cons.inj h).1 hc.2.2
  | .escape _ _, .plain c hc | .code _ _ _ _ _, .plain c hc =>
    exact absurd (List.cons.inj h).1.symm hc.2.2
  | .escape c hc, .escape c' hc' => simp_all [Glyph.text]
  | .escape c hc, .code _ _ _ _ _ => exact absurd (List.cons.inj (List.cons.inj h).2).1 (hu hc)
  | .code _ _ _ _ _, .escape c hc =>
    exact absurd (List.cons.inj (List.cons.inj h).2).1.symm (hu hc)
  | .code _ _ _ _ _, .code _ _ _ _ _ => simp_all [Glyph.text]

/-- A glyph is not the end of a string. -/
theorem Glyph.text_append_ne_quote (g : Glyph) (s s' : Text) : g.text ++ s ≠ '"' :: s' := by
  cases g <;> simp_all [Glyph.text]

theorem closedText_injective : Function.Injective closedText := by
  intro gs
  induction gs with
  | nil =>
    intro gs' h
    cases gs' with
    | nil => rfl
    | cons g gs' => exact absurd (h.trans (closedText_cons g gs')).symm (g.text_append_ne_quote _ _)
  | cons g gs ih =>
    intro gs' h
    rw [closedText_cons] at h
    cases gs' with
    | nil => exact absurd h (g.text_append_ne_quote _ _)
    | cons g' gs' =>
      rw [closedText_cons] at h
      obtain ⟨rfl, hgs⟩ := Glyph.eq_of_append_eq h
      rw [ih hgs]

/-- Only a number is written as one. -/
theorem Scalar.eq_number {a : Scalar} {n : Numeral} (h : a.text = n.text) : a = .number n := by
  obtain ⟨c, rest, hn, hc⟩ := n.exists_cons
  have hfirst : ∀ {c' rest'}, a.text = c' :: rest' → c' = '-' ∨ isDigit c' = true := by
    intro c' rest' ha
    rwa [(List.cons.inj (ha.symm.trans (h.trans hn))).1]
  match a with
  | .null => exact absurd (hfirst rfl) (by decide)
  | .boolean true => exact absurd (hfirst rfl) (by decide)
  | .boolean false => exact absurd (hfirst rfl) (by decide)
  | .string glyphs => exact absurd (hfirst rfl) (by decide)
  | .number ⟨text, isNumeral⟩ =>
    obtain rfl : text = n.text := h
    rfl

/-- **Different scalars are written differently.** -/
theorem Scalar.text_injective : Function.Injective Scalar.text := by
  intro a b h
  match a, b with
  | .number n, b => exact (eq_number h.symm).symm
  | a, .number n => exact eq_number h
  | .string glyphs, .string glyphs' => rw [closedText_injective (List.cons.inj h).2]
  | .null, .null => rfl
  | .boolean true, .boolean true => rfl
  | .boolean false, .boolean false => rfl

/-! ### Trees -/

/-- Values that are written in one text leave the same of it. -/
theorem rest_unique {t t' : Tree} {s rest rest' : Text} (h : Spaced t.tokens s rest)
    (h' : Spaced t'.tokens s rest') (hrest : Ends rest) (hrest' : Ends rest') : rest = rest' := by
  -- Skipping is a function, so it cannot leave two texts.
  have heq := (skipValue_of_spaced h hrest).symm.trans (skipValue_of_spaced h' hrest')
  exact Except.ok.inj heq

/-- No other tree is written where this one is. -/
def IsOnly (t : Tree) : Prop :=
  ∀ ⦃t' s rest rest'⦄, Spaced t.tokens s rest → Spaced (Tree.tokens t') s rest' → Ends rest →
    Ends rest' → t' = t

/-- Trees of different kinds begin differently. -/
theorem isOnly_scalar (a : Scalar) : IsOnly (.scalar a) := by
  intro t' s rest rest' h h' hrest hrest'
  obtain rfl := rest_unique h h' hrest hrest'
  obtain ⟨c, later, hs, hc⟩ := exists_cons_of_spaced h
  obtain ⟨c', later', hs', hc'⟩ := exists_cons_of_spaced h'
  obtain ⟨rfl, rfl⟩ := List.cons.inj (hs.symm.trans hs')
  have hscalar : BeginsScalar c := hc
  cases t' with
  | list ts => obtain rfl := hc'; exact absurd hscalar (by decide)
  | object ms => obtain rfl := hc'; exact absurd hscalar (by decide)
  | scalar b =>
    rw [Tree.tokens] at h h'
    obtain ⟨_, ha, rfl⟩ := spaced_cons.mp h
    obtain ⟨_, hb, rfl⟩ := spaced_cons.mp h'
    rw [Scalar.text_injective (List.append_cancel_right (ha.symm.trans hb))]

/-- Two readings of the next mark agree on it. -/
theorem spaced_cons_cons {a b : Token} {as bs : List Token} {s rest rest' : Text} {c d : Char}
    (h : Spaced (a :: as) s rest) (h' : Spaced (b :: bs) s rest') (ha : a.text = [c])
    (hb : b.text = [d]) : c = d ∧ ∃ later, Spaced as later rest ∧ Spaced bs later rest' := by
  obtain ⟨later, hs, has⟩ := spaced_cons.mp h
  obtain ⟨later', hs', hbs⟩ := spaced_cons.mp h'
  rw [hs, ha, hb] at hs'
  obtain ⟨rfl, rfl⟩ := List.cons.inj hs'
  exact ⟨rfl, later, has, hbs⟩

theorem key_unique {key key' : List Glyph} {s rest rest' : Text}
    (h : Spaced [.scalar (.string key), .colon] s rest)
    (h' : Spaced [.scalar (.string key'), .colon] s rest') : key' = key ∧ rest' = rest := by
  obtain ⟨later, hs, hcolon⟩ := spaced_cons.mp h
  obtain ⟨later', hs', hcolon'⟩ := spaced_cons.mp h'
  have hkey : Spaced (Tree.scalar (.string key)).tokens s later := by
    rw [Tree.tokens]
    exact spaced_cons.mpr ⟨later, hs, rfl⟩
  have hkey' : Spaced (Tree.scalar (.string key')).tokens s later' := by
    rw [Tree.tokens]
    exact spaced_cons.mpr ⟨later', hs', rfl⟩
  have hends := ends_of_spaced (by simp) hcolon
  have hends' := ends_of_spaced (by simp) hcolon'
  obtain rfl := rest_unique hkey hkey' hends hends'
  obtain ⟨-, last, rfl, rfl⟩ := spaced_cons_cons hcolon hcolon' rfl rfl
  have htree := isOnly_scalar _ hkey hkey' hends hends'
  simp only [Tree.scalar.injEq, Scalar.string.injEq] at htree
  exact ⟨htree, rfl⟩

/-- A list that goes on with a value, behind a comma or not, does not end there. -/
theorem not_closeList_of_spaced {first : Bool} {t : Tree} {us : List Token} {s rest rest' : Text}
    (h : Spaced (separator first ++ (t.tokens ++ us)) s rest) : ¬ Spaced [.closeList] s rest' := by
  intro hclose
  cases first with
  | false => exact absurd (spaced_cons_cons h hclose rfl rfl).1 (by decide)
  | true =>
    obtain ⟨later, ht, -⟩ := begins_append.mp (show Spaced (t.tokens ++ us) s rest from h)
    obtain ⟨c, later, hs, hc⟩ := exists_cons_of_spaced ht
    obtain ⟨later', hs', -⟩ := spaced_cons.mp hclose
    exact absurd (List.cons.inj (hs.symm.trans hs')).1 hc.notMark.2.1

/-- An object that goes on with a key, behind a comma or not, does not end there. -/
theorem not_closeObject_of_spaced {first : Bool} {key : List Glyph} {us : List Token}
    {s rest rest' : Text} (h : Spaced (separator first ++ (.scalar (.string key) :: us)) s rest) :
    ¬ Spaced [.closeObject] s rest' := by
  intro hclose
  cases first with
  | false => exact absurd (spaced_cons_cons h hclose rfl rfl).1 (by decide)
  | true =>
    obtain ⟨later, hs, -⟩ := spaced_cons.mp h
    obtain ⟨later', hs', -⟩ := spaced_cons.mp hclose
    exact absurd (List.cons.inj (hs.symm.trans hs')).1 (by decide)

theorem separator_unique {first : Bool} {s later later' : Text}
    (h : Spaced (separator first) s later) (h' : Spaced (separator first) s later') :
    later' = later := by
  cases first with
  | true => exact (Eq.symm h').trans h
  | false =>
    obtain ⟨-, more, rfl, rfl⟩ := spaced_cons_cons h h' rfl rfl
    rfl

theorem elements_unique {ts ts' : List Tree} {first : Bool} {s rest rest' : Text}
    (hts : ∀ t ∈ ts, IsOnly t) (h : Spaced (elementTokens first ts) s rest)
    (h' : Spaced (elementTokens first ts') s rest') : ts' = ts := by
  induction ts generalizing ts' first s with
  | nil =>
    cases ts' with
    | nil => rfl
    | cons t' ts' => exact absurd h (not_closeList_of_spaced (by rwa [elementTokens] at h'))
  | cons t ts ih =>
    rw [elementTokens] at h
    cases ts' with
    | nil => exact absurd h' (not_closeList_of_spaced h)
    | cons t' ts' =>
      rw [elementTokens] at h'
      obtain ⟨later, hseparator, hlater⟩ := begins_append.mp h
      obtain ⟨later', hseparator', hlater'⟩ := begins_append.mp h'
      obtain rfl := separator_unique hseparator hseparator'
      obtain ⟨more, ht, hmore⟩ := begins_append.mp hlater
      obtain ⟨more', ht', hmore'⟩ := begins_append.mp hlater'
      obtain rfl := rest_unique ht ht' (ends_elements hmore) (ends_elements hmore')
      rw [hts t (by simp) ht ht' (ends_elements hmore) (ends_elements hmore'),
        ih (fun t' h => hts t' (by simp [h])) hmore hmore']

theorem members_unique {ms ms' : List (List Glyph × Tree)} {first : Bool} {s rest rest' : Text}
    (hms : ∀ m ∈ ms, IsOnly m.2) (h : Spaced (memberTokens first ms) s rest)
    (h' : Spaced (memberTokens first ms') s rest') : ms' = ms := by
  induction ms generalizing ms' first s with
  | nil =>
    cases ms' with
    | nil => rfl
    | cons m' ms' => exact absurd h (not_closeObject_of_spaced (by rwa [memberTokens] at h'))
  | cons m ms ih =>
    obtain ⟨key, t⟩ := m
    rw [memberTokens] at h
    cases ms' with
    | nil => exact absurd h' (not_closeObject_of_spaced h)
    | cons m' ms' =>
      obtain ⟨key', t'⟩ := m'
      rw [memberTokens] at h'
      obtain ⟨later, hseparator, hlater⟩ := begins_append.mp h
      obtain ⟨later', hseparator', hlater'⟩ := begins_append.mp h'
      obtain rfl := separator_unique hseparator hseparator'
      obtain ⟨value, hkey, hvalue⟩ := begins_append.mp hlater
      obtain ⟨value', hkey', hvalue'⟩ := begins_append.mp hlater'
      obtain ⟨rfl, rfl⟩ := key_unique hkey hkey'
      obtain ⟨more, ht, hmore⟩ := begins_append.mp hvalue
      obtain ⟨more', ht', hmore'⟩ := begins_append.mp hvalue'
      obtain rfl := rest_unique ht ht' (ends_members hmore) (ends_members hmore')
      rw [hms (key', t) (by simp) ht ht' (ends_members hmore) (ends_members hmore'),
        ih (fun m' h => hms m' (by simp [h])) hmore hmore']

/-- **Where a tree is written, no other is.** -/
theorem isOnly (t : Tree) : IsOnly t := by
  induction t using Tree.induct with
  | scalar a => exact isOnly_scalar a
  | list ts ih =>
    intro t' s rest rest' h h' hrest hrest'
    cases t' with
    | scalar a => exact (isOnly_scalar a h' h hrest' hrest).symm
    | object ms =>
      simp only [Tree.tokens] at h h'
      exact absurd (spaced_cons_cons h h' rfl rfl).1 (by decide)
    | list ts' =>
      simp only [Tree.tokens] at h h'
      obtain ⟨-, later, hlater, hlater'⟩ := spaced_cons_cons h h' rfl rfl
      rw [elements_unique ih hlater hlater']
  | object ms ih =>
    intro t' s rest rest' h h' hrest hrest'
    cases t' with
    | scalar a => exact (isOnly_scalar a h' h hrest' hrest).symm
    | list ts =>
      simp only [Tree.tokens] at h h'
      exact absurd (spaced_cons_cons h h' rfl rfl).1 (by decide)
    | object ms' =>
      simp only [Tree.tokens] at h h'
      obtain ⟨-, later, hlater, hlater'⟩ := spaced_cons_cons h h' rfl rfl
      rw [members_unique ih hlater hlater']

/-- **A text is at most one document.** -/
theorem IsDocument.unique {t t' : Tree} {s : Text} (h : IsDocument t s) (h' : IsDocument t' s) :
    t' = t := by
  obtain ⟨rest, ht, hrest⟩ := h
  obtain ⟨rest', ht', hrest'⟩ := h'
  exact isOnly t ht ht' (ends_of_spaces hrest) (ends_of_spaces hrest')

end Json

end ImportAlias
