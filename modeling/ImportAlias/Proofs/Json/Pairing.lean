import ImportAlias.Proofs.Json.Strings

/-!
# Strings that stand for texts

A string literal can write any code, and so also half of a surrogate pair. Whether every half has
its other half is seen in the glyphs, without decoding them (`arePaired`), and it is all that a
literal needs to stand for a text (`isSome_decode`).

A tree is paired when all literals in it are, in its keys and in its values. So are then the trees
that it is made of.
-/

namespace ImportAlias

namespace Json

/-- The glyph writes the leading half of a surrogate pair. -/
def Glyph.isLead : Glyph → Bool
  | .code d₁ d₂ d₃ d₄ _ => Json.isLead (codeNumber d₁ d₂ d₃ d₄)
  | _ => false

/-- The glyph writes the trailing half of a surrogate pair. -/
def Glyph.isTrail : Glyph → Bool
  | .code d₁ d₂ d₃ d₄ _ => Json.isTrail (codeNumber d₁ d₂ d₃ d₄)
  | _ => false

/-- A trailing half stands behind each leading half and nowhere else. `behind` says that a leading
half stands in front. -/
def arePairedFrom (behind : Bool) : List Glyph → Bool
  | [] => !behind
  | g :: gs => g.isTrail == behind && arePairedFrom g.isLead gs

/-- No glyph writes half of a surrogate pair without the other half. -/
def arePaired (glyphs : List Glyph) : Bool := arePairedFrom false glyphs

/-- No code is both halves. -/
theorem isLead_of_isTrail {n : Nat} (h : isTrail n) : isLead n = false := by
  simp only [isTrail, isLead, Bool.and_eq_true, decide_eq_true_eq, Bool.and_eq_false_iff,
    decide_eq_false_iff_not] at h ⊢
  omega

theorem isSome_decodeFrom (lead : Option Nat) (glyphs : List Glyph) :
    (decodeFrom lead glyphs).isSome = arePairedFrom lead.isSome glyphs := by
  induction glyphs generalizing lead with
  | nil => cases lead <;> rfl
  | cons g glyphs ih =>
    have hnone : (decodeFrom none glyphs).isSome = arePairedFrom false glyphs := ih none
    cases lead with
    | none =>
      cases g with
      | plain c h => simp [decodeFrom, arePairedFrom, Glyph.isTrail, Glyph.isLead, hnone]
      | escape letter h =>
        obtain ⟨c, hc⟩ := Option.isSome_iff_exists.mp (isSome_simpleEscape.mpr h)
        simp [decodeFrom, arePairedFrom, Glyph.isTrail, Glyph.isLead, hc, hnone]
      | code d₁ d₂ d₃ d₄ h =>
        simp only [decodeFrom, arePairedFrom, Glyph.isTrail, Glyph.isLead]
        split_ifs with htrail hlead
        · simp [htrail]
        · simp [htrail, hlead, ih]
        · simp [htrail, hlead, hnone]
    | some lead =>
      cases g with
      | plain c h => simp [decodeFrom, arePairedFrom, Glyph.isTrail]
      | escape letter h => simp [decodeFrom, arePairedFrom, Glyph.isTrail]
      | code d₁ d₂ d₃ d₄ h =>
        simp only [decodeFrom, arePairedFrom, Glyph.isTrail, Glyph.isLead]
        split_ifs with htrail
        · simp [htrail, isLead_of_isTrail htrail, hnone]
        · simp [htrail]

/-- **A literal stands for a text** exactly when its surrogates are paired. -/
theorem isSome_decode (glyphs : List Glyph) : (decode glyphs).isSome = arePaired glyphs :=
  isSome_decodeFrom none glyphs

/-! ### Trees -/

/-- The token is no string literal with half of a surrogate pair alone. -/
def Token.isPaired : Token → Bool
  | .scalar (.string glyphs) => arePaired glyphs
  | _ => true

/-- No string literal in the tree, be it a key or a value, has half of a surrogate pair without the
other half. -/
def Tree.IsPaired (t : Tree) : Prop := ∀ token ∈ t.tokens, token.isPaired

instance (t : Tree) : Decidable t.IsPaired :=
  inferInstanceAs (Decidable (∀ token ∈ t.tokens, token.isPaired))

section Tokens

variable {token : Token} {t : Tree} {ts : List Tree} {m : List Glyph × Tree}
  {ms : List (List Glyph × Tree)}

theorem mem_elementTokens (ht : t ∈ ts) (h : token ∈ t.tokens) (first : Bool) :
    token ∈ elementTokens first ts := by
  induction ts generalizing first with
  | nil => cases ht
  | cons u ts ih =>
    rw [elementTokens, List.mem_append, List.mem_append]
    rcases List.mem_cons.mp ht with rfl | ht
    · exact .inr (.inl h)
    · exact .inr (.inr (ih ht false))

/-- The tokens of an object are those of its keys and values, among others. -/
theorem mem_memberTokens (hm : m ∈ ms) (h : token = .scalar (.string m.1) ∨ token ∈ m.2.tokens)
    (first : Bool) : token ∈ memberTokens first ms := by
  induction ms generalizing first with
  | nil => cases hm
  | cons m' ms ih =>
    rw [memberTokens, List.mem_append, List.mem_append, List.mem_append]
    rcases List.mem_cons.mp hm with rfl | hm
    · rcases h with rfl | h
      · exact .inr (.inl List.mem_cons_self)
      · exact .inr (.inr (.inl h))
    · exact .inr (.inr (.inr (ih hm false)))

namespace Tree.IsPaired

theorem text {glyphs : List Glyph} (h : (Tree.scalar (.string glyphs)).IsPaired) :
    (decode glyphs).isSome := by
  rw [isSome_decode]
  exact h (.scalar (.string glyphs)) (by simp [tokens])

theorem element (h : (Tree.list ts).IsPaired) (ht : t ∈ ts) : t.IsPaired := fun token htoken =>
  h token (List.mem_cons_of_mem _ (mem_elementTokens ht htoken true))

theorem key (h : (Tree.object ms).IsPaired) (hm : m ∈ ms) : (decode m.1).isSome := by
  rw [isSome_decode]
  exact h (.scalar (.string m.1)) (List.mem_cons_of_mem _ (mem_memberTokens hm (.inl rfl) true))

theorem value (h : (Tree.object ms).IsPaired) (hm : m ∈ ms) : m.2.IsPaired := fun token htoken =>
  h token (List.mem_cons_of_mem _ (mem_memberTokens hm (.inr htoken) true))

end Tree.IsPaired

end Tokens

/-! ### Writing a tree -/

/-- The characters of a text that stand for themselves in a literal. -/
def plainGlyphs (s : Text) : List Glyph :=
  s.filterMap fun c =>
    if h : 0x20 ≤ c.toNat ∧ c ≠ '"' ∧ c ≠ '\\' then some (.plain c h) else none

/-- The tree as it is written without spaces. -/
def Tree.written (t : Tree) : Text := t.tokens.flatMap Token.text

/-- Every tree can be written. -/
theorem isDocument_written (t : Tree) : IsDocument t t.written := by
  have hspaces : Spaces [] := by simp [Spaces]
  have key : ∀ ts : List Token, Spaced ts (ts.flatMap Token.text) [] := by
    intro ts
    induction ts with
    | nil => rfl
    | cons token ts ih =>
      exact ⟨[], ts.flatMap Token.text, hspaces, by rw [List.flatMap_cons, List.nil_append], ih⟩
  exact ⟨[], key t.tokens, hspaces⟩

end Json

end ImportAlias
