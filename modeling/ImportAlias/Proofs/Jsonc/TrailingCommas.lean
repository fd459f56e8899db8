import ImportAlias.Jsonc.TrailingCommas
import ImportAlias.Proofs.Jsonc.Layout

/-!
# Dropping trailing commas

Trailing commas are dropped by characters, without regard to tokens. Here this is shown to be the
same as dropping tokens (`isSpaced_dropTrailingCommas`), in both directions: whatever tokens are
left of a text, it was made of tokens itself (`exists_of_dropTrailingCommas`).

So commas that were added to the tokens of a tree behind its last elements are dropped again. Commas
are dropped behind an opening mark as well; apart from that nothing else becomes the tokens of a
tree (`dropTokens_of_commasAdded`, `commasAdded_of_dropTokens`).
-/

namespace ImportAlias

namespace Jsonc

open Json

/-! ### Commas among tokens -/

/-- Whether the first of the tokens closes a container. -/
def closesFirst : List Token → Bool
  | [] => false
  | t :: _ => t.closes

/-- The tokens without the commas that directly precede a closing mark. -/
def dropTokens : List Token → List Token
  | [] => []
  | t :: ts => if t.isComma && closesFirst ts then dropTokens ts else t :: dropTokens ts

/-- Whether one of the tokens is a comma behind an opening mark. `opened` says that such a mark
comes before them. -/
def commaOpensAmong : (opened : Bool) → List Token → Bool
  | _, [] => false
  | opened, t :: ts => opened && t.isComma || commaOpensAmong t.opens ts

section Tokens

variable {a t : Token} {ts us : List Token}

theorem isComma_eq_false_of_endsValue (h : t.endsValue = true) : t.isComma = false := by
  cases t <;> simp_all [Token.endsValue, Token.isComma]

theorem isComma_eq_false_of_closes (h : t.closes = true) : t.isComma = false := by
  cases t <;> simp_all [Token.closes, Token.isComma]

theorem dropTokens_of_keep (h : (t.isComma && closesFirst ts) = false) :
    dropTokens (t :: ts) = t :: dropTokens ts := by
  rw [dropTokens, h]
  rfl

/-- Where tokens fit, no comma precedes a closing mark. -/
theorem not_isComma_of_fits (h : Fits (t :: ts)) : (t.isComma && closesFirst ts) = false := by
  cases t with
  | comma =>
    cases ts with
    | nil => rfl
    | cons c ts =>
      have hfollows := (fits_cons_cons.mp h).1.1
      cases hc : c.closes with
      | false => simp [closesFirst, hc]
      | true => simpa [Token.opens, Token.endsValue] using hfollows hc
  | _ => rfl

theorem closesFirst_dropTokens (h : closesFirst ts = true) :
    closesFirst (dropTokens ts) = true := by
  cases ts with
  | nil => cases h
  | cons t ts =>
    have ht : t.closes = true := h
    rw [dropTokens_of_keep (by simp [isComma_eq_false_of_closes ht])]
    exact ht

theorem isComma_of_follows (h : a.Follows t) : (a.opens && t.isComma) = false := by
  cases ha : a.opens with
  | false => rfl
  | true => simp [h.2 ha]

/-- Commas that were added are dropped again, and none of them follows an opening mark. -/
theorem dropTokens_of_commasAdded (h : CommasAdded ts us) (hfits : Fits (a :: ts)) :
    dropTokens us = ts ∧ commaOpensAmong a.opens us = false := by
  induction h generalizing a with
  | nil => exact ⟨rfl, rfl⟩
  | @cons t ts us _ ih =>
    obtain ⟨hfollows, hfits⟩ := fits_cons_cons.mp hfits
    obtain ⟨rfl, hopens⟩ := ih hfits
    have hkeep : (t.isComma && closesFirst us) = false := by
      cases hcloses : closesFirst us with
      | false => simp
      | true => simpa [closesFirst_dropTokens hcloses] using not_isComma_of_fits hfits
    exact ⟨dropTokens_of_keep hkeep,
      by rw [commaOpensAmong, isComma_of_follows hfollows, hopens, Bool.false_or]⟩
  | @comma e c ts us he hc _ ih =>
    -- `e` stays, as it is no comma, and the comma behind it goes, as `c` closes a container.
    obtain ⟨hfollows, hfits⟩ := fits_cons_cons.mp hfits
    obtain ⟨hdrop, hopens⟩ := ih hfits
    constructor
    · rw [dropTokens_of_keep (by simp [isComma_eq_false_of_endsValue he]), dropTokens]
      simp [Token.isComma, closesFirst, hc, hdrop]
    · rw [opens_eq_false he, commaOpensAmong, Bool.false_and, Bool.false_or] at hopens
      simp [commaOpensAmong, isComma_of_follows hfollows, opens_eq_false he, hopens,
        isComma_eq_false_of_closes hc]

/-- **Dropped commas were added behind the end of a value**, unless they follow an opening mark. -/
theorem commasAdded_of_dropTokens (hdrop : dropTokens us = ts) (hfits : Fits (a :: ts))
    (hopens : commaOpensAmong a.opens us = false) : CommasAdded (a :: ts) (a :: us) := by
  induction us generalizing a ts with
  | nil =>
    subst hdrop
    exact .cons a .nil
  | cons u us ih =>
    rw [commaOpensAmong, Bool.or_eq_false_iff] at hopens
    cases hkeep : u.isComma && closesFirst us with
    | false =>
      rw [dropTokens_of_keep hkeep] at hdrop
      subst hdrop
      exact .cons a (ih rfl (fits_cons_cons.mp hfits).2 hopens.2)
    | true =>
      cases us with
      | nil => simp [closesFirst] at hkeep
      | cons c us =>
        obtain ⟨hcomma, hc⟩ := Bool.and_eq_true_iff.mp hkeep
        have hc : c.closes = true := hc
        obtain rfl := Token.eq_comma_of_isComma hcomma
        -- The comma was dropped. `a` does not open a container, so it ends a value, since without
        -- the comma the closing mark fits behind it.
        have ha : a.opens = false := by simpa [Token.isComma] using hopens.1
        rw [dropTokens, if_pos hkeep] at hdrop
        have hadded := ih hdrop hfits (by rw [ha]; exact hopens.2)
        rw [dropTokens_of_keep (by simp [isComma_eq_false_of_closes hc])] at hdrop
        subst hdrop
        have hends : a.endsValue = true :=
          ((fits_cons_cons.mp hfits).1.1 hc).resolve_left (by simp [ha])
        cases hadded with
        | cons _ h => exact .comma hends hc h
        | comma _ _ _ => cases hc

end Tokens

/-! ### Commas among characters -/

variable {s y : Text}

theorem closesNext_append {gap : Text} (h : ∀ c ∈ gap, Text.isBlank c = true) (s : Text) :
    closesNext (gap ++ s) = closesNext s := by
  induction gap with
  | nil => rfl
  | cons c gap ih =>
    rw [← ih fun d hd => h d (by simp [hd])]
    simp [closesNext, h c (by simp)]

theorem closesNext_cons {c : Char} (h : Text.isBlank c = false) (s : Text) :
    closesNext (c :: s) = (c = '\x7d' || c = ']') := by
  simp [closesNext, h]

/-- The first character of a token is not blank, and tells whether the token closes a container. -/
theorem closesNext_token (t : Token) (s : Text) : closesNext (t.text ++ s) = t.closes := by
  cases t with
  | scalar a =>
    obtain ⟨c, w, ha, hc⟩ := a.exists_cons
    have hplain : Text.isBlank c = false ∧ c ≠ '\x7d' ∧ c ≠ ']' := by
      rcases hc with rfl | rfl | rfl | rfl | rfl | hc
      iterate 5 decide
      have hword := mem_wordChars_of_isDigit hc
      exact ⟨(plain_of_mem (.inl hword)).1, ne_of_mem_of_not_mem hword (by decide),
        ne_of_mem_of_not_mem hword (by decide)⟩
    rw [Token.text, ha, List.cons_append, closesNext_cons hplain.1]
    simp [hplain, Token.closes]
  | _ => rfl

/-- **A closing mark is seen from its first character.** -/
theorem closesNext_of_isSpaced {ts : List Token} (h : IsSpaced ts s) :
    closesNext s = closesFirst ts := by
  obtain ⟨rest, hts, hrest⟩ := h
  cases ts with
  | nil =>
    cases hts
    have hnil := closesNext_append (fun c hc => isBlank_of_isSpace (hrest c hc)) []
    rwa [List.append_nil] at hnil
  | cons t ts =>
    obtain ⟨gap, later, hgap, rfl, -⟩ := hts
    rw [closesNext_append (fun c hc => isBlank_of_isSpace (hgap c hc)), closesNext_token]
    rfl

theorem dropCommasFrom_code_cons {c : Char} (hquote : c ≠ '"')
    (hcomma : c = ',' → closesNext s = false) :
    dropCommasFrom .code (c :: s) = c :: dropCommasFrom .code s := by
  rw [dropCommasFrom, if_neg, if_neg hquote]
  rintro ⟨hc, hcloses⟩
  rw [hcomma hc] at hcloses
  cases hcloses

theorem dropCommasFrom_comma (h : closesNext s = true) :
    dropCommasFrom .code (',' :: s) = dropCommasFrom .code s := by
  rw [dropCommasFrom, if_pos ⟨rfl, h⟩]

/-- Words, marks other than the comma, and spaces stay. -/
theorem dropCommasFrom_plain {w : Text} (hw : ∀ c ∈ w, c ≠ '"' ∧ c ≠ ',') (s : Text) :
    dropCommasFrom .code (w ++ s) = w ++ dropCommasFrom .code s := by
  induction w with
  | nil => rfl
  | cons c w ih =>
    obtain ⟨hquote, hcomma⟩ := hw c (by simp)
    rw [List.cons_append, dropCommasFrom_code_cons hquote fun h => absurd h hcomma,
      ih fun d hd => hw d (by simp [hd]), List.cons_append]

theorem dropCommasFrom_spaces {gap : Text} (h : Spaces gap) (s : Text) :
    dropCommasFrom .code (gap ++ s) = gap ++ dropCommasFrom .code s := by
  refine dropCommasFrom_plain (fun c hc => ?_) s
  rcases isSpace_iff.mp (h c hc) with rfl | rfl | rfl | rfl <;> decide

theorem dropCommasFrom_glyph (g : Glyph) (s : Text) :
    dropCommasFrom .string (g.text ++ s) = g.text ++ dropCommasFrom .string s := by
  cases g with
  | plain c h => simp [Glyph.text, dropCommasFrom, h.2]
  | escape letter h => simp [Glyph.text, dropCommasFrom]
  | code d₁ d₂ d₃ d₄ h =>
    have hdigit := plain_of_isCode h
    simp only [List.forall_mem_cons] at hdigit
    simp [Glyph.text, dropCommasFrom, hdigit]

theorem dropCommasFrom_closedText (gs : List Glyph) (s : Text) :
    dropCommasFrom .string (closedText gs ++ s) = closedText gs ++ dropCommasFrom .code s := by
  induction gs with
  | nil => simp [closedText, dropCommasFrom]
  | cons g gs ih =>
    rw [closedText_cons, List.append_assoc, dropCommasFrom_glyph, ih, List.append_assoc]

/-- **A token stays**, unless it is a comma before a closing mark. -/
theorem dropCommasFrom_token (t : Token) (h : (t.isComma && closesNext s) = false) :
    dropCommasFrom .code (t.text ++ s) = t.text ++ dropCommasFrom .code s := by
  obtain ⟨gs, rfl⟩ | ⟨c, hc, ht⟩ | hw := t.text_cases
  · rw [Token.text, Scalar.text, List.cons_append, dropCommasFrom, if_neg (by simp), if_pos rfl,
      dropCommasFrom_closedText, List.cons_append]
  · rw [ht, List.singleton_append, List.singleton_append]
    refine dropCommasFrom_code_cons (plain_of_mem (.inr hc)).2.1 ?_
    rintro rfl
    obtain rfl := Token.eq_comma_of_text ht
    exact h
  · refine dropCommasFrom_plain (fun c hc => ?_) s
    exact ⟨(plain_of_mem (.inl (hw c hc))).2.1, ne_of_mem_of_not_mem (hw c hc) (by decide)⟩

/-- **Dropping characters drops tokens.** -/
theorem isSpaced_dropTrailingCommas {ts : List Token} (h : IsSpaced ts s) :
    IsSpaced (dropTokens ts) (dropTrailingCommas s) := by
  obtain ⟨rest, hts, hrest⟩ := h
  induction ts generalizing s with
  | nil =>
    cases hts
    have hspaces := dropCommasFrom_spaces hrest []
    rw [List.append_nil, dropCommasFrom, List.append_nil] at hspaces
    rw [dropTrailingCommas, hspaces]
    exact isSpaced_nil.mpr hrest
  | cons t ts ih =>
    obtain ⟨gap, later, hgap, rfl, hlater⟩ := hts
    have hdrop := ih hlater
    have hcloses := closesNext_of_isSpaced ⟨rest, hlater, hrest⟩
    rw [dropTrailingCommas, dropCommasFrom_spaces hgap, isSpaced_append hgap]
    cases hkeep : t.isComma && closesFirst ts with
    | false =>
      rw [dropTokens_of_keep hkeep, dropCommasFrom_token t (by rwa [hcloses])]
      exact isSpaced_cons.mpr ⟨_, skipSpace_token t _, hdrop⟩
    | true =>
      obtain ⟨hcomma, hc⟩ := Bool.and_eq_true_iff.mp hkeep
      obtain rfl := Token.eq_comma_of_isComma hcomma
      rw [dropTokens, if_pos hkeep, Token.text, List.singleton_append,
        dropCommasFrom_comma (hcloses.trans hc)]
      exact hdrop

/-- A text in which no comma precedes a closing mark stays. -/
theorem dropTrailingCommas_of_fits {ts : List Token} (h : IsSpaced ts s) (hfits : Fits ts) :
    dropTrailingCommas s = s := by
  obtain ⟨rest, hts, hrest⟩ := h
  induction ts generalizing s with
  | nil =>
    cases hts
    have hspaces := dropCommasFrom_spaces hrest []
    rwa [List.append_nil, dropCommasFrom, List.append_nil] at hspaces
  | cons t ts ih =>
    obtain ⟨gap, later, hgap, rfl, hlater⟩ := hts
    have hcloses := closesNext_of_isSpaced ⟨rest, hlater, hrest⟩
    have hdrop := ih hfits.tail hlater
    rw [dropTrailingCommas] at hdrop ⊢
    rw [dropCommasFrom_spaces hgap, dropCommasFrom_token t, hdrop]
    rw [hcloses]
    exact not_isComma_of_fits hfits

/-! ### From what is left to what was there -/

/-- The mode behind a character of a string. -/
def StringMode.behind (c : Char) : StringMode :=
  if c = '\\' then .escape else if c = '"' then .code else .string

theorem exists_of_dropCommasFrom_string {c : Char}
    (h : dropCommasFrom .string s = c :: y) :
    ∃ rest, s = c :: rest ∧ dropCommasFrom (.behind c) rest = y := by
  cases s with
  | nil => simp [dropCommasFrom] at h
  | cons d rest =>
    rw [dropCommasFrom] at h
    obtain ⟨rfl, hrest⟩ := List.cons.inj h
    exact ⟨rest, rfl, hrest⟩

theorem exists_of_dropCommasFrom_escape {c : Char} (h : dropCommasFrom .escape s = c :: y) :
    ∃ rest, s = c :: rest ∧ dropCommasFrom .string rest = y := by
  cases s with
  | nil => simp [dropCommasFrom] at h
  | cons d rest =>
    rw [dropCommasFrom] at h
    obtain ⟨rfl, hrest⟩ := List.cons.inj h
    exact ⟨rest, rfl, hrest⟩

theorem exists_of_dropCommasFrom_string_plain {c : Char} (hquote : c ≠ '"') (hbackslash : c ≠ '\\')
    (h : dropCommasFrom .string s = c :: y) :
    ∃ rest, s = c :: rest ∧ dropCommasFrom .string rest = y := by
  simpa [StringMode.behind, hquote, hbackslash] using exists_of_dropCommasFrom_string h

theorem exists_of_dropCommasFrom_glyph (g : Glyph)
    (h : dropCommasFrom .string s = g.text ++ y) :
    ∃ rest, s = g.text ++ rest ∧ dropCommasFrom .string rest = y := by
  cases g with
  | plain c hc => exact exists_of_dropCommasFrom_string_plain hc.2.1 hc.2.2 h
  | escape letter hletter =>
    obtain ⟨s₁, rfl, hs₁⟩ := exists_of_dropCommasFrom_string h
    obtain ⟨rest, rfl, hrest⟩ := exists_of_dropCommasFrom_escape hs₁
    exact ⟨rest, rfl, hrest⟩
  | code d₁ d₂ d₃ d₄ hcode =>
    have hdigit := plain_of_isCode hcode
    simp only [List.forall_mem_cons] at hdigit
    obtain ⟨h₁, h₂, h₃, h₄, -⟩ := hdigit
    obtain ⟨s₁, rfl, hs₁⟩ := exists_of_dropCommasFrom_string h
    obtain ⟨s₂, rfl, hs₂⟩ := exists_of_dropCommasFrom_escape hs₁
    obtain ⟨s₃, rfl, hs₃⟩ := exists_of_dropCommasFrom_string_plain h₁.1 h₁.2 hs₂
    obtain ⟨s₄, rfl, hs₄⟩ := exists_of_dropCommasFrom_string_plain h₂.1 h₂.2 hs₃
    obtain ⟨s₅, rfl, hs₅⟩ := exists_of_dropCommasFrom_string_plain h₃.1 h₃.2 hs₄
    obtain ⟨rest, rfl, hrest⟩ := exists_of_dropCommasFrom_string_plain h₄.1 h₄.2 hs₅
    exact ⟨rest, rfl, hrest⟩

theorem exists_of_dropCommasFrom_closedText (gs : List Glyph)
    (h : dropCommasFrom .string s = closedText gs ++ y) :
    ∃ rest, s = closedText gs ++ rest ∧ dropCommasFrom .code rest = y := by
  induction gs generalizing s with
  | nil => exact exists_of_dropCommasFrom_string h
  | cons g gs ih =>
    rw [closedText_cons, List.append_assoc] at h
    obtain ⟨s₁, rfl, hs₁⟩ := exists_of_dropCommasFrom_glyph g h
    obtain ⟨rest, rfl, hrest⟩ := ih hs₁
    exact ⟨rest, by rw [closedText_cons, List.append_assoc], hrest⟩

/-- Whether a comma that is dropped comes next. -/
def DropsNext (s : Text) : Prop := ∃ rest, s = ',' :: rest ∧ closesNext rest = true

/-- A closing mark that comes next stays there. -/
theorem closesNext_dropCommasFrom (h : closesNext s = true) :
    closesNext (dropCommasFrom .code s) = true := by
  induction s with
  | nil => simp [closesNext] at h
  | cons c s ih =>
    cases hblank : Text.isBlank c with
    | true =>
      have hc : c ≠ '"' ∧ c ≠ ',' := by
        constructor <;> rintro rfl <;> exact absurd hblank (by decide)
      have hgap : ∀ d ∈ [c], Text.isBlank d = true := by simpa using hblank
      rw [dropCommasFrom_code_cons hc.1 fun h => absurd h hc.2]
      rw [← List.singleton_append, closesNext_append hgap] at h ⊢
      exact ih h
    | false =>
      rw [closesNext_cons hblank] at h
      have hc : c ≠ '"' ∧ c ≠ ',' := by
        constructor <;> rintro rfl <;> exact absurd h (by decide)
      rw [dropCommasFrom_code_cons hc.1 fun h => absurd h hc.2, closesNext_cons hblank]
      exact h

/-- A character that is not dropped is left. -/
theorem exists_cons_of_dropCommasFrom {c : Char} (h : ¬ DropsNext (c :: s)) :
    ∃ later, dropCommasFrom .code (c :: s) = c :: later := by
  rw [dropCommasFrom, if_neg]
  · exact ⟨_, rfl⟩
  · rintro ⟨rfl, hcloses⟩
    exact h ⟨s, rfl, hcloses⟩

/-- Where a word was left, it was read: a comma is dropped only before a mark. -/
theorem exists_of_dropCommasFrom_word {w : Text} (hw : ∀ c ∈ w, c ∈ wordChars)
    (h : dropCommasFrom .code s = w ++ y) :
    ∃ rest, s = w ++ rest ∧ dropCommasFrom .code rest = y := by
  induction w generalizing s with
  | nil => exact ⟨s, rfl, h⟩
  | cons c w ih =>
    have hword : c ∈ wordChars := hw c (by simp)
    obtain ⟨hblank, hquote, -⟩ := plain_of_mem (.inl hword)
    have hcomma : c ≠ ',' := ne_of_mem_of_not_mem hword (by decide)
    have hbrace : c ≠ '\x7d' := ne_of_mem_of_not_mem hword (by decide)
    have hbracket : c ≠ ']' := ne_of_mem_of_not_mem hword (by decide)
    cases s with
    | nil => simp [dropCommasFrom] at h
    | cons d rest =>
      -- A dropped comma would have left a closing mark, which is no part of a word.
      have hkeep : ¬ DropsNext (d :: rest) := by
        rintro ⟨rest', hs, hcloses⟩
        obtain ⟨rfl, rfl⟩ := List.cons.inj hs
        rw [dropCommasFrom_comma hcloses] at h
        have hnext := closesNext_dropCommasFrom hcloses
        rw [h, List.cons_append, closesNext_cons hblank] at hnext
        simp [hbrace, hbracket] at hnext
      obtain ⟨later, hlater⟩ := exists_cons_of_dropCommasFrom hkeep
      obtain ⟨rfl, rfl⟩ := List.cons.inj (hlater.symm.trans h)
      rw [dropCommasFrom_code_cons hquote fun h => absurd h hcomma] at h
      obtain ⟨more, rfl, hmore⟩ := ih (fun e he => hw e (by simp [he])) (List.cons.inj h).2
      exact ⟨more, rfl, hmore⟩

theorem closesNext_eq_false {c : Char} (h : ¬ DropsNext (c :: s)) (hc : c = ',') :
    closesNext s = false := by
  subst hc
  rw [Bool.eq_false_iff]
  exact fun hcloses => h ⟨s, rfl, hcloses⟩

/-- **Where a token was left, it was read**, unless a comma was dropped. -/
theorem exists_of_dropCommasFrom_token (t : Token) (hkeep : ¬ DropsNext s)
    (h : dropCommasFrom .code s = t.text ++ y) :
    ∃ rest, s = t.text ++ rest ∧ dropCommasFrom .code rest = y ∧
      (t.isComma && closesNext rest) = false := by
  obtain ⟨c, w, ht, -⟩ := t.exists_cons
  cases s with
  | nil => simp [dropCommasFrom, ht] at h
  | cons d s =>
    obtain ⟨later, hlater⟩ := exists_cons_of_dropCommasFrom hkeep
    obtain ⟨gs, rfl⟩ | ⟨c, hc, ht⟩ | hw := t.text_cases
    · obtain rfl := (List.cons.inj (hlater.symm.trans h)).1
      rw [dropCommasFrom, if_neg (by simp), if_pos rfl] at h
      obtain ⟨rest, rfl, hrest⟩ := exists_of_dropCommasFrom_closedText gs (List.cons.inj h).2
      exact ⟨rest, rfl, hrest, rfl⟩
    · rw [ht] at h ⊢
      obtain rfl := (List.cons.inj (hlater.symm.trans h)).1
      rw [dropCommasFrom_code_cons (plain_of_mem (.inr hc)).2.1 (closesNext_eq_false hkeep)] at h
      refine ⟨s, rfl, (List.cons.inj h).2, ?_⟩
      cases hcomma : t.isComma with
      | false => rfl
      | true =>
        obtain rfl := Token.eq_comma_of_isComma hcomma
        exact closesNext_eq_false hkeep (List.cons.inj ht).1.symm
    · obtain ⟨rest, hs, hrest⟩ := exists_of_dropCommasFrom_word hw h
      refine ⟨rest, hs, hrest, ?_⟩
      cases hcomma : t.isComma with
      | false => rfl
      | true =>
        obtain rfl := Token.eq_comma_of_isComma hcomma
        exact absurd (hw ',' (by simp [Token.text])) (by decide)

/-- **Tokens that are left of a text were in it.** The induction is on the length of the text, of
which a space, a token or a dropped comma is taken off at a time. -/
theorem exists_of_dropTrailingCommas {ts : List Token} (h : IsSpaced ts (dropTrailingCommas s)) :
    ∃ us, IsSpaced us s ∧ dropTokens us = ts := by
  induction hlength : s.length using Nat.strong_induction_on generalizing s ts with
  | _ n ih =>
    by_cases hdropped : DropsNext s
    · obtain ⟨rest, rfl, hcloses⟩ := hdropped
      rw [dropTrailingCommas, dropCommasFrom_comma hcloses] at h
      obtain ⟨us, hus, hdrop⟩ := ih rest.length (by simp at hlength; omega) h rfl
      refine ⟨.comma :: us, isSpaced_cons.mpr ⟨rest, rfl, hus⟩, ?_⟩
      rw [dropTokens, if_pos (by simp [Token.isComma, ← closesNext_of_isSpaced hus, hcloses])]
      exact hdrop
    cases s with
    | nil =>
      obtain rfl := eq_nil_of_isSpaced h
      exact ⟨[], isSpaced_nil.mpr (by simp [Spaces]), rfl⟩
    | cons c rest =>
      obtain ⟨later, hlater⟩ := exists_cons_of_dropCommasFrom hdropped
      cases hspace : isSpace c with
      | true =>
        have hgap : Spaces [c] := by simpa [Spaces] using hspace
        rw [dropTrailingCommas, ← List.singleton_append, dropCommasFrom_spaces hgap,
          isSpaced_append hgap] at h
        obtain ⟨us, hus, hdrop⟩ := ih rest.length (by simp at hlength; omega) h rfl
        exact ⟨us, (isSpaced_append hgap).mpr hus, hdrop⟩
      | false =>
        have hfirst := h
        rw [dropTrailingCommas, hlater] at hfirst
        cases ts with
        | nil => exact absurd (isSpaced_nil.mp hfirst c (by simp)) (by simp [hspace])
        | cons t ts =>
          obtain ⟨later', ht, hts⟩ := isSpaced_cons.mp hfirst
          rw [skipSpace, List.dropWhile_cons_of_neg (by simp [hspace])] at ht
          obtain ⟨more, hs, rfl, hkeep⟩ :=
            exists_of_dropCommasFrom_token t hdropped (hlater.trans ht)
          obtain ⟨d, w, hd, -⟩ := t.exists_cons
          rw [hs, List.length_append, hd, List.length_cons] at hlength
          obtain ⟨us, hus, hdrop⟩ := ih more.length (by omega) hts rfl
          refine ⟨t :: us, ?_, ?_⟩
          · rw [hs]
            exact isSpaced_cons.mpr ⟨more, skipSpace_token t _, hus⟩
          · rw [closesNext_of_isSpaced hus] at hkeep
            rw [dropTokens_of_keep hkeep, hdrop]

/-! ### Commas behind opening marks -/

/-- Whether a comma comes next after an opening brace or bracket, with blanks between the two, read
from a given mode on. `opened` says that such a mark comes before the text. -/
def commaOpensFrom : StringMode → (opened : Bool) → Text → Bool
  | _, _, [] => false
  | .code, opened, c :: rest =>
    if Text.isBlank c then commaOpensFrom .code opened rest
    else
      opened && c = ',' ||
        commaOpensFrom (if c = '"' then .string else .code) (c = '[' || c = '\x7b') rest
  | .string, _, c :: rest =>
    commaOpensFrom (if c = '\\' then .escape else if c = '"' then .code else .string) false rest
  | .escape, _, _ :: rest => commaOpensFrom .string false rest

/-- Whether an opening brace or bracket is directly followed by a comma. -/
def commaOpens (source : Text) : Bool := commaOpensFrom .code false source

theorem commaOpensFrom_blanks {gap : Text} (h : ∀ c ∈ gap, Text.isBlank c = true) (opened : Bool)
    (s : Text) : commaOpensFrom .code opened (gap ++ s) = commaOpensFrom .code opened s := by
  induction gap with
  | nil => rfl
  | cons c gap ih =>
    rw [List.cons_append, commaOpensFrom, if_pos (h c (by simp)), ih fun d hd => h d (by simp [hd])]

theorem commaOpensFrom_glyph (g : Glyph) (opened : Bool) (s : Text) :
    commaOpensFrom .string opened (g.text ++ s) = commaOpensFrom .string false s := by
  cases g with
  | plain c h => simp [Glyph.text, commaOpensFrom, h.2]
  | escape letter h => simp [Glyph.text, commaOpensFrom]
  | code d₁ d₂ d₃ d₄ h =>
    have hdigit := plain_of_isCode h
    simp only [List.forall_mem_cons] at hdigit
    simp [Glyph.text, commaOpensFrom, hdigit]

theorem commaOpensFrom_closedText (gs : List Glyph) (opened : Bool) (s : Text) :
    commaOpensFrom .string opened (closedText gs ++ s) = commaOpensFrom .code false s := by
  induction gs generalizing opened with
  | nil => simp [closedText, commaOpensFrom]
  | cons g gs ih => rw [closedText_cons, List.append_assoc, commaOpensFrom_glyph, ih]

/-- A word is neither a comma nor an opening mark. -/
theorem commaOpensFrom_word {w : Text} (hw : ∀ c ∈ w, c ∈ wordChars) (hne : w ≠ [])
    (opened : Bool) (s : Text) :
    commaOpensFrom .code opened (w ++ s) = commaOpensFrom .code false s := by
  induction w generalizing opened with
  | nil => exact absurd rfl hne
  | cons c w ih =>
    have hword : c ∈ wordChars := hw c (by simp)
    obtain ⟨hblank, hquote, -⟩ := plain_of_mem (.inl hword)
    have hcomma : c ≠ ',' := ne_of_mem_of_not_mem hword (by decide)
    have hbracket : c ≠ '[' := ne_of_mem_of_not_mem hword (by decide)
    have hbrace : c ≠ '\x7b' := ne_of_mem_of_not_mem hword (by decide)
    cases w with
    | nil => simp [commaOpensFrom, hblank, hquote, hcomma, hbracket, hbrace]
    | cons d w =>
      rw [List.cons_append, commaOpensFrom]
      simp only [hblank, hquote, hcomma, hbracket, hbrace, ↓reduceIte, decide_false,
        Bool.and_false, Bool.or_false, Bool.false_or, Bool.false_eq_true]
      exact ih (fun e he => hw e (by simp [he])) (by simp) false

/-- **A token is a comma or an opening mark** as its characters say. -/
theorem commaOpensFrom_token (t : Token) (opened : Bool) (s : Text) :
    commaOpensFrom .code opened (t.text ++ s) =
      (opened && t.isComma || commaOpensFrom .code t.opens s) := by
  have hmark : ∀ c : Char, Text.isBlank c = false → c ≠ '"' →
      commaOpensFrom .code opened (c :: s) =
        (opened && c = ',' || commaOpensFrom .code (c = '[' || c = '\x7b') s) := by
    intro c hblank hquote
    rw [commaOpensFrom, if_neg (by simp [hblank]), if_neg hquote]
  cases t with
  | scalar a =>
    obtain ⟨gs, ht⟩ | ⟨c, hc, ht⟩ | hw := (Token.scalar a).text_cases
    · cases ht
      have hquote : Text.isBlank '"' = false := by decide
      simp [Token.text, Scalar.text, commaOpensFrom, hquote, commaOpensFrom_closedText,
        Token.isComma, Token.opens]
    · obtain ⟨d, w, ha, hd⟩ := a.exists_cons
      obtain rfl := (List.cons.inj (ha.symm.trans ht)).1
      have hall : ∀ c ∈ markChars, ¬ BeginsScalar c := forall_mem_of_all (by decide)
      exact absurd hd (hall d hc)
    · obtain ⟨c, w, ht, -⟩ := (Token.scalar a).exists_cons
      rw [commaOpensFrom_word hw (by simp [ht])]
      simp [Token.isComma, Token.opens]
  | _ => exact hmark _ (by decide) (by decide)

/-- **Such a comma is seen among the characters**, as it is among the tokens. -/
theorem commaOpensFrom_of_isSpaced {ts : List Token} (h : IsSpaced ts s) (opened : Bool) :
    commaOpensFrom .code opened s = commaOpensAmong opened ts := by
  obtain ⟨rest, hts, hrest⟩ := h
  induction ts generalizing s opened with
  | nil =>
    cases hts
    have hblanks := commaOpensFrom_blanks (fun c hc => isBlank_of_isSpace (hrest c hc)) opened []
    rwa [List.append_nil] at hblanks
  | cons t ts ih =>
    obtain ⟨gap, later, hgap, rfl, hlater⟩ := hts
    rw [commaOpensFrom_blanks fun c hc => isBlank_of_isSpace (hgap c hc), commaOpensFrom_token,
      ih t.opens hlater]
    rfl

end Jsonc

end ImportAlias
