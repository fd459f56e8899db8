import ImportAlias.Jsonc.Comments
import ImportAlias.Proofs.Jsonc.Layout

/-!
# Replacing comments

A comment can be taken out of a text, or a space can be put in its place. Both leave the tokens of
a layout where they are, with spaces around them (`exists_isSpaced_of_isLaidOut`). When spaces are
put in the place of comments the converse holds too: whatever tokens are left, the text was a
layout of them (`isLaidOut_of_replaceComments`). It fails when comments are just taken out, as what
stood on both sides of one may then be read as one token.
-/

namespace ImportAlias

namespace Jsonc

open Json

/-! ### Replacing comments -/

/-- The text with a mark in the place of each comment, behind which the line breaks of the comment
stay. There is none if a comment is not closed. -/
@[grind =]
def replaceFrom (mark : Text) : CommentMode → Text → Option Text
  | .block, [] => none
  | .code, [] | .string, [] | .line, [] => some []
  | .code, '/' :: '/' :: rest => (replaceFrom mark .line rest).map (mark ++ ·)
  | .code, '/' :: '*' :: rest => (replaceFrom mark .block rest).map (mark ++ ·)
  | .code, '"' :: rest => (replaceFrom mark .string rest).map ('"' :: ·)
  | .code, c :: rest => (replaceFrom mark .code rest).map (c :: ·)
  | .string, '\\' :: c :: rest => (replaceFrom mark .string rest).map fun s => '\\' :: c :: s
  | .string, '"' :: rest => (replaceFrom mark .code rest).map ('"' :: ·)
  | .string, c :: rest => (replaceFrom mark .string rest).map (c :: ·)
  | .line, '\n' :: rest => (replaceFrom mark .code rest).map ('\n' :: ·)
  | .line, _ :: rest => replaceFrom mark .line rest
  | .block, '*' :: '/' :: rest => replaceFrom mark .code rest
  | .block, '\n' :: rest => (replaceFrom mark .block rest).map ('\n' :: ·)
  | .block, _ :: rest => replaceFrom mark .block rest

/-- The text with the mark in the place of each comment, if every comment is closed. -/
def replaceComments (mark source : Text) : Option Text := replaceFrom mark .code source

/-- Taking comments out is replacing them by nothing. -/
theorem stripFrom_of_replaceFrom {mode : CommentMode} {s y : Text}
    (h : replaceFrom [] mode s = some y) : stripFrom mode s = y := by
  fun_induction stripFrom mode s generalizing y
  case case1 mode => cases mode <;> simp_all [replaceFrom]
  all_goals simp_all [replaceFrom]
  all_goals grind

variable {mark s y later : Text}

theorem replaceFrom_code_cons {c : Char} {s : Text} (hquote : c ≠ '"')
    (hslash : ∀ rest, c = '/' → s ≠ '/' :: rest ∧ s ≠ '*' :: rest) (mark : Text) :
    replaceFrom mark .code (c :: s) = (replaceFrom mark .code s).map (c :: ·) := by
  rw [replaceFrom]
  · exact fun rest hc => (hslash rest hc).1
  · exact fun rest hc => (hslash rest hc).2
  · exact hquote

theorem replaceFrom_string_cons {c : Char} {s : Text} (hquote : c ≠ '"')
    (hbackslash : c = '\\' → s = []) (mark : Text) :
    replaceFrom mark .string (c :: s) = (replaceFrom mark .string s).map (c :: ·) := by
  rw [replaceFrom]
  · rintro d rest hc rfl
    cases hbackslash hc
  · exact hquote

/-- Spaces stay. -/
theorem replaceFrom_spaces {gap : Text} (h : Spaces gap) (mark s : Text) :
    replaceFrom mark .code (gap ++ s) = (replaceFrom mark .code s).map (gap ++ ·) := by
  induction gap with
  | nil => simp
  | cons c gap ih =>
    have hc : c ≠ '"' ∧ c ≠ '/' := by
      rcases isSpace_iff.mp (h c (by simp)) with rfl | rfl | rfl | rfl <;> decide
    rw [List.cons_append, replaceFrom_code_cons hc.1 fun _ h => absurd h hc.2,
      ih fun d hd => h d (by simp [hd]), Option.map_map]
    rfl

theorem replaceFrom_line_cons {c : Char} (hbreak : c ≠ '\n') (mark s : Text) :
    replaceFrom mark .line (c :: s) = replaceFrom mark .line s := by
  rw [replaceFrom]
  exact hbreak

theorem replaceFrom_block_cons {c : Char} {s : Text} (hbreak : c ≠ '\n')
    (hstar : ∀ rest, c = '*' → s ≠ '/' :: rest) (mark : Text) :
    replaceFrom mark .block (c :: s) = replaceFrom mark .block s := by
  rw [replaceFrom]
  · exact hstar
  · exact hbreak

/-- A comment to the end of the line leaves the line break. -/
theorem replaceFrom_line {content : Text} (h : '\n' ∉ content) (mark s : Text) :
    replaceFrom mark .line (content ++ '\n' :: s) = (replaceFrom mark .code s).map ('\n' :: ·) := by
  induction content with
  | nil => rfl
  | cons c content ih =>
    rw [List.mem_cons, not_or] at h
    rw [List.cons_append, replaceFrom_line_cons (Ne.symm h.1), ih h.2]

theorem replaceFrom_line_end {content : Text} (h : '\n' ∉ content) (mark : Text) :
    replaceFrom mark .line content = some [] := by
  induction content with
  | nil => rfl
  | cons c content ih =>
    rw [List.mem_cons, not_or] at h
    rw [replaceFrom_line_cons (Ne.symm h.1), ih h.2]

/-- A closed comment leaves its line breaks. -/
theorem replaceFrom_block {content : Text} (h : ¬ ['*', '/'] <:+: content) (mark s : Text) :
    replaceFrom mark .block (content ++ '*' :: '/' :: s) =
      (replaceFrom mark .code s).map (content.filter (· = '\n') ++ ·) := by
  induction content with
  | nil => simp [replaceFrom]
  | cons c content ih =>
    have ih := ih fun hinfix => h (List.infix_cons hinfix)
    by_cases hbreak : c = '\n'
    · subst hbreak
      rw [List.cons_append, replaceFrom, ih, Option.map_map]
      rfl
    -- A star that is not the last character of the comment has no slash behind it.
    have hstar : ∀ rest, c = '*' → content ++ '*' :: '/' :: s ≠ '/' :: rest := by
      rintro rest rfl hrest
      cases content with
      | nil => cases hrest
      | cons d content =>
        obtain rfl := (List.cons.inj hrest).1
        exact h ⟨[], content, rfl⟩
    rw [List.cons_append, replaceFrom_block_cons hbreak hstar, ih]
    simp [hbreak]

theorem spaces_breaks (content : Text) : Spaces (content.filter (· = '\n')) := by
  intro c hc
  rw [List.mem_filter, decide_eq_true_eq] at hc
  rw [hc.2]
  rfl

/-- **A gap leaves spaces.** -/
theorem exists_spaces_of_gap {gap : Text} (h : Gap gap) (hmark : Spaces mark) :
    ∃ spaces, Spaces spaces ∧ ∀ s, replaceFrom mark .code (gap ++ s) =
      (replaceFrom mark .code s).map (spaces ++ ·) := by
  induction h with
  | nil => exact ⟨[], by simp [Spaces], by simp⟩
  | @space c gap hc _ ih =>
    obtain ⟨spaces, hspaces, ih⟩ := ih
    refine ⟨c :: spaces, List.forall_mem_cons.mpr ⟨hc, hspaces⟩, fun s => ?_⟩
    have hc' : Spaces [c] := by simpa [Spaces] using hc
    rw [List.cons_append, ← List.singleton_append, replaceFrom_spaces hc', ih, Option.map_map]
    rfl
  | @line content gap hcontent _ ih =>
    obtain ⟨spaces, hspaces, ih⟩ := ih
    refine ⟨mark ++ '\n' :: spaces, ?_, fun s => ?_⟩
    · exact List.forall_mem_append.mpr ⟨hmark, List.forall_mem_cons.mpr ⟨rfl, hspaces⟩⟩
    · simp [replaceFrom, replaceFrom_line hcontent, ih, Function.comp_def]
  | @block content gap hcontent _ ih =>
    obtain ⟨spaces, hspaces, ih⟩ := ih
    refine ⟨mark ++ (content.filter (· = '\n') ++ spaces), ?_, fun s => ?_⟩
    · exact List.forall_mem_append.mpr
        ⟨hmark, List.forall_mem_append.mpr ⟨spaces_breaks content, hspaces⟩⟩
    · simp [replaceFrom, replaceFrom_block hcontent, ih, Function.comp_def]

/-- A glyph of a string stays. -/
theorem replaceFrom_glyph (mark : Text) (g : Glyph) (s : Text) :
    replaceFrom mark .string (g.text ++ s) = (replaceFrom mark .string s).map (g.text ++ ·) := by
  cases g with
  | plain c h => exact replaceFrom_string_cons h.2.1 (fun hc => absurd hc h.2.2) mark
  | escape letter h => simp [Glyph.text, replaceFrom]
  | code d₁ d₂ d₃ d₄ h =>
    have hdigit := plain_of_isCode h
    simp only [List.forall_mem_cons] at hdigit
    simp [Glyph.text, replaceFrom, hdigit, replaceFrom_string_cons, Function.comp_def]

/-- A string literal stays. -/
theorem replaceFrom_closedText (mark : Text) (gs : List Glyph) (s : Text) :
    replaceFrom mark .string (closedText gs ++ s) =
      (replaceFrom mark .code s).map (closedText gs ++ ·) := by
  induction gs with
  | nil => simp [closedText, replaceFrom]
  | cons g gs ih =>
    rw [closedText_cons, List.append_assoc, replaceFrom_glyph, ih, Option.map_map]
    simp [Function.comp_def]

/-- **A token stays.** -/
theorem replaceFrom_token (mark : Text) (t : Token) (s : Text) :
    replaceFrom mark .code (t.text ++ s) = (replaceFrom mark .code s).map (t.text ++ ·) := by
  have hplain : ∀ w : Text, (∀ c ∈ w, c ∈ wordChars ∨ c ∈ markChars) →
      replaceFrom mark .code (w ++ s) = (replaceFrom mark .code s).map (w ++ ·) := by
    intro w hw
    induction w with
    | nil => simp
    | cons c w ih =>
      obtain ⟨-, hquote, hslash⟩ := plain_of_mem (hw c (by simp))
      rw [List.cons_append, replaceFrom_code_cons hquote fun _ h => absurd h hslash,
        ih fun d hd => hw d (by simp [hd]), Option.map_map]
      rfl
  obtain ⟨gs, rfl⟩ | ⟨c, hc, ht⟩ | hw := t.text_cases
  · rw [Token.text, Scalar.text, List.cons_append, replaceFrom, replaceFrom_closedText,
      Option.map_map]
    rfl
  · rw [ht]
    exact hplain [c] (by simpa using .inr hc)
  · exact hplain t.text fun c hc => .inl (hw c hc)

/-! ### From layouts to tokens -/

/-- **Replacing comments leaves the tokens**, with spaces around them. -/
theorem exists_isSpaced_of_isLaidOut {ts : List Token} (h : IsLaidOut ts s) (hmark : Spaces mark) :
    ∃ y, replaceComments mark s = some y ∧ IsSpaced ts y := by
  obtain ⟨rest, hts, hrest⟩ := h
  induction ts generalizing s with
  | nil =>
    cases hts
    cases hrest with
    | gap hgap =>
      obtain ⟨spaces, hspaces, hreplace⟩ := exists_spaces_of_gap hgap hmark
      refine ⟨spaces, ?_, isSpaced_nil.mpr hspaces⟩
      simpa [replaceComments, replaceFrom] using hreplace []
    | @line content gap hcontent hgap =>
      obtain ⟨spaces, hspaces, hreplace⟩ := exists_spaces_of_gap hgap hmark
      refine ⟨spaces ++ mark, ?_, isSpaced_nil.mpr (List.forall_mem_append.mpr ⟨hspaces, hmark⟩)⟩
      simp [replaceComments, hreplace, replaceFrom, replaceFrom_line_end hcontent]
  | cons t ts ih =>
    obtain ⟨gap, later, hgap, rfl, hlater⟩ := hts
    obtain ⟨spaces, hspaces, hreplace⟩ := exists_spaces_of_gap hgap hmark
    obtain ⟨y, hy, hts⟩ := ih hlater
    refine ⟨spaces ++ (t.text ++ y), ?_, ?_⟩
    · rw [replaceComments] at hy ⊢
      rw [hreplace, replaceFrom_token, hy]
      rfl
    · exact (isSpaced_append hspaces).mpr
        (isSpaced_cons.mpr ⟨y, skipSpace_token t y, hts⟩)

/-- A text without comments stays. -/
theorem replaceComments_of_isSpaced {ts : List Token} (h : IsSpaced ts s) (mark : Text) :
    replaceComments mark s = some s := by
  obtain ⟨rest, hts, hrest⟩ := h
  induction ts generalizing s with
  | nil =>
    cases hts
    have hspaces := replaceFrom_spaces hrest mark []
    rw [List.append_nil] at hspaces
    simpa [replaceComments, replaceFrom] using hspaces
  | cons t ts ih =>
    obtain ⟨gap, later, hgap, rfl, hlater⟩ := hts
    have hy := ih hlater
    rw [replaceComments] at hy ⊢
    rw [replaceFrom_spaces hgap, replaceFrom_token, hy]
    rfl

/-! ### From tokens to layouts -/

/-- What may have been read where a text went on outside of strings and comments. -/
theorem cases_of_replaceFrom (h : replaceFrom mark .code s = some y) :
    (s = [] ∧ y = []) ∨
    (∃ rest later, s = '/' :: '/' :: rest ∧ replaceFrom mark .line rest = some later ∧
      y = mark ++ later) ∨
    (∃ rest later, s = '/' :: '*' :: rest ∧ replaceFrom mark .block rest = some later ∧
      y = mark ++ later) ∨
    (∃ rest later, s = '"' :: rest ∧ replaceFrom mark .string rest = some later ∧
      y = '"' :: later) ∨
    ∃ c rest later, s = c :: rest ∧ c ≠ '"' ∧ replaceFrom mark .code rest = some later ∧
      y = c :: later := by
  cases s with
  | nil => exact .inl ⟨rfl, by simpa [replaceFrom] using h.symm⟩
  | cons c s =>
    refine .inr ?_
    by_cases hquote : c = '"'
    · subst hquote
      obtain ⟨later, hlater, rfl⟩ := Option.map_eq_some_iff.mp h
      exact .inr (.inr (.inl ⟨s, later, rfl, hlater, rfl⟩))
    by_cases hline : ∃ rest, c = '/' ∧ s = '/' :: rest
    · obtain ⟨rest, rfl, rfl⟩ := hline
      obtain ⟨later, hlater, rfl⟩ := Option.map_eq_some_iff.mp h
      exact .inl ⟨rest, later, rfl, hlater, rfl⟩
    by_cases hblock : ∃ rest, c = '/' ∧ s = '*' :: rest
    · obtain ⟨rest, rfl, rfl⟩ := hblock
      obtain ⟨later, hlater, rfl⟩ := Option.map_eq_some_iff.mp h
      exact .inr (.inl ⟨rest, later, rfl, hlater, rfl⟩)
    · rw [replaceFrom_code_cons hquote fun rest hc =>
        ⟨fun hs => hline ⟨rest, hc, hs⟩, fun hs => hblock ⟨rest, hc, hs⟩⟩] at h
      obtain ⟨later, hlater, rfl⟩ := Option.map_eq_some_iff.mp h
      exact .inr (.inr (.inr ⟨c, s, later, rfl, hquote, hlater, rfl⟩))

/-- A comment to the end of the line ends with its line or with the text. -/
theorem exists_of_replaceFrom_line (h : replaceFrom mark .line s = some y) :
    ('\n' ∉ s ∧ y = []) ∨
    ∃ content rest later, '\n' ∉ content ∧ s = content ++ '\n' :: rest ∧
      replaceFrom mark .code rest = some later ∧ y = '\n' :: later := by
  induction s with
  | nil => exact .inl ⟨by simp, by simpa [replaceFrom] using h.symm⟩
  | cons c s ih =>
    by_cases hbreak : c = '\n'
    · subst hbreak
      obtain ⟨later, hlater, rfl⟩ := Option.map_eq_some_iff.mp h
      exact .inr ⟨[], s, later, by simp, rfl, hlater, rfl⟩
    · rw [replaceFrom_line_cons hbreak] at h
      obtain ⟨hs, rfl⟩ | ⟨content, rest, later, hcontent, rfl, hlater, rfl⟩ := ih h
      · exact .inl ⟨by simp [hs, Ne.symm hbreak], rfl⟩
      · exact .inr ⟨c :: content, rest, later, by simp [hcontent, Ne.symm hbreak], rfl, hlater, rfl⟩

/-- A comment that may span lines is closed. -/
theorem exists_of_replaceFrom_block (h : replaceFrom mark .block s = some y) :
    ∃ content rest later, ¬ ['*', '/'] <:+: content ∧ s = content ++ '*' :: '/' :: rest ∧
      replaceFrom mark .code rest = some later ∧ y = content.filter (· = '\n') ++ later := by
  induction s generalizing y with
  | nil => simp [replaceFrom] at h
  | cons c s ih =>
    by_cases hclose : ∃ rest, c = '*' ∧ s = '/' :: rest
    · obtain ⟨rest, rfl, rfl⟩ := hclose
      exact ⟨[], rest, y, by simp, rfl, h, rfl⟩
    -- The comment goes on, and does not end with what is put before it.
    have hstar : ∀ rest, c = '*' → s ≠ '/' :: rest := fun rest hc hs => hclose ⟨rest, hc, hs⟩
    have hcons : ∀ {content rest : Text}, ¬ ['*', '/'] <:+: content →
        s = content ++ '*' :: '/' :: rest → ¬ ['*', '/'] <:+: c :: content := by
      rintro content rest hcontent rfl hinfix
      rcases List.infix_cons_iff.mp hinfix with hprefix | hinfix
      · obtain ⟨hc, hslash⟩ := List.cons_prefix_cons.mp hprefix
        cases content with
        | nil => simp at hslash
        | cons d content =>
          obtain ⟨rfl, -⟩ := List.cons_prefix_cons.mp hslash
          exact hstar _ hc.symm rfl
      · exact hcontent hinfix
    by_cases hbreak : c = '\n'
    · subst hbreak
      obtain ⟨y, hy, rfl⟩ := Option.map_eq_some_iff.mp h
      obtain ⟨content, rest, later, hcontent, hs, hlater, rfl⟩ := ih hy
      exact ⟨'\n' :: content, rest, later, hcons hcontent hs, by rw [hs]; rfl, hlater, rfl⟩
    · rw [replaceFrom_block_cons hbreak hstar] at h
      obtain ⟨content, rest, later, hcontent, hs, hlater, rfl⟩ := ih h
      exact ⟨c :: content, rest, later, hcons hcontent hs, by rw [hs]; rfl, hlater,
        by simp [hbreak]⟩

/-- What may have been read where a string went on. -/
theorem cases_of_replaceFrom_string (h : replaceFrom mark .string s = some y) :
    (s = [] ∧ y = []) ∨
    (∃ rest later, s = '"' :: rest ∧ replaceFrom mark .code rest = some later ∧
      y = '"' :: later) ∨
    (∃ c rest later, s = '\\' :: c :: rest ∧ replaceFrom mark .string rest = some later ∧
      y = '\\' :: c :: later) ∨
    ∃ c rest later, s = c :: rest ∧ c ≠ '"' ∧ (c = '\\' → rest = []) ∧
      replaceFrom mark .string rest = some later ∧ y = c :: later := by
  cases s with
  | nil => exact .inl ⟨rfl, by simpa [replaceFrom] using h.symm⟩
  | cons c s =>
    refine .inr ?_
    by_cases hquote : c = '"'
    · subst hquote
      obtain ⟨later, hlater, rfl⟩ := Option.map_eq_some_iff.mp h
      exact .inl ⟨s, later, rfl, hlater, rfl⟩
    by_cases hescape : ∃ d rest, c = '\\' ∧ s = d :: rest
    · obtain ⟨d, rest, rfl, rfl⟩ := hescape
      obtain ⟨later, hlater, rfl⟩ := Option.map_eq_some_iff.mp h
      exact .inr (.inl ⟨d, rest, later, rfl, hlater, rfl⟩)
    · have hend : c = '\\' → s = [] := by
        intro hc
        cases s with
        | nil => rfl
        | cons d rest => exact absurd ⟨d, rest, hc, rfl⟩ hescape
      rw [replaceFrom_string_cons hquote hend] at h
      obtain ⟨later, hlater, rfl⟩ := Option.map_eq_some_iff.mp h
      exact .inr (.inr ⟨c, s, later, rfl, hquote, hend, hlater, rfl⟩)

theorem exists_of_replaceFrom_string_cons {c : Char} (hquote : c ≠ '"') (hbackslash : c ≠ '\\')
    (h : replaceFrom mark .string s = some (c :: y)) :
    ∃ rest, s = c :: rest ∧ replaceFrom mark .string rest = some y := by
  rcases cases_of_replaceFrom_string h with ⟨-, hy⟩ | ⟨rest, later, rfl, hrest, hy⟩ |
    ⟨d, rest, later, rfl, hrest, hy⟩ | ⟨d, rest, later, rfl, -, -, hrest, hy⟩
  · cases hy
  · exact absurd (List.cons.inj hy).1 hquote
  · exact absurd (List.cons.inj hy).1 hbackslash
  · obtain ⟨rfl, rfl⟩ := List.cons.inj hy
    exact ⟨rest, rfl, hrest⟩

theorem exists_of_replaceFrom_backslash {c : Char}
    (h : replaceFrom mark .string s = some ('\\' :: c :: y)) :
    ∃ rest, s = '\\' :: c :: rest ∧ replaceFrom mark .string rest = some y := by
  rcases cases_of_replaceFrom_string h with ⟨-, hy⟩ | ⟨rest, later, rfl, hrest, hy⟩ |
    ⟨d, rest, later, rfl, hrest, hy⟩ | ⟨d, rest, later, rfl, -, hend, hrest, hy⟩
  · cases hy
  · exact absurd (List.cons.inj hy).1 (by decide)
  · cases hy
    exact ⟨rest, rfl, hrest⟩
  · obtain ⟨rfl, rfl⟩ := List.cons.inj hy
    rw [hend rfl] at hrest
    cases hrest

theorem exists_of_replaceFrom_glyph (g : Glyph)
    (h : replaceFrom mark .string s = some (g.text ++ y)) :
    ∃ rest, s = g.text ++ rest ∧ replaceFrom mark .string rest = some y := by
  cases g with
  | plain c hc => exact exists_of_replaceFrom_string_cons hc.2.1 hc.2.2 h
  | escape letter hletter => exact exists_of_replaceFrom_backslash h
  | code d₁ d₂ d₃ d₄ hcode =>
    have hdigit := plain_of_isCode hcode
    simp only [List.forall_mem_cons] at hdigit
    obtain ⟨h₁, h₂, h₃, h₄, -⟩ := hdigit
    obtain ⟨s₁, rfl, hs₁⟩ := exists_of_replaceFrom_backslash h
    obtain ⟨s₂, rfl, hs₂⟩ := exists_of_replaceFrom_string_cons h₁.1 h₁.2 hs₁
    obtain ⟨s₃, rfl, hs₃⟩ := exists_of_replaceFrom_string_cons h₂.1 h₂.2 hs₂
    obtain ⟨s₄, rfl, hs₄⟩ := exists_of_replaceFrom_string_cons h₃.1 h₃.2 hs₃
    obtain ⟨rest, rfl, hrest⟩ := exists_of_replaceFrom_string_cons h₄.1 h₄.2 hs₄
    exact ⟨rest, rfl, hrest⟩

theorem exists_of_replaceFrom_closedText (gs : List Glyph)
    (h : replaceFrom mark .string s = some (closedText gs ++ y)) :
    ∃ rest, s = closedText gs ++ rest ∧ replaceFrom mark .code rest = some y := by
  induction gs generalizing s with
  | nil =>
    rcases cases_of_replaceFrom_string h with ⟨-, hy⟩ | ⟨rest, later, rfl, hrest, hy⟩ |
      ⟨d, rest, later, rfl, hrest, hy⟩ | ⟨d, rest, later, rfl, hquote, -, hrest, hy⟩
    · cases hy
    · cases hy
      exact ⟨rest, rfl, hrest⟩
    · cases hy
    · exact absurd (List.cons.inj hy).1.symm hquote
  | cons g gs ih =>
    rw [closedText_cons, List.append_assoc] at h
    obtain ⟨s, rfl, hs⟩ := exists_of_replaceFrom_glyph g h
    obtain ⟨rest, rfl, hrest⟩ := ih hs
    exact ⟨rest, by rw [closedText_cons, List.append_assoc], hrest⟩

/-- Where a word or a mark was left, it was read: a comment would have left a space. -/
theorem exists_of_replaceFrom_plain {w : Text} (hw : ∀ c ∈ w, c ∈ wordChars ∨ c ∈ markChars)
    (h : replaceFrom [' '] .code s = some (w ++ y)) :
    ∃ rest, s = w ++ rest ∧ replaceFrom [' '] .code rest = some y := by
  induction w generalizing s with
  | nil => exact ⟨s, rfl, h⟩
  | cons c w ih =>
    obtain ⟨hblank, hquote, -⟩ := plain_of_mem (hw c (by simp))
    have hspace : c ≠ ' ' := by rintro rfl; exact absurd hblank (by decide)
    rcases cases_of_replaceFrom h with ⟨-, hy⟩ | ⟨rest, later, rfl, -, hy⟩ |
      ⟨rest, later, rfl, -, hy⟩ | ⟨rest, later, rfl, hrest, hy⟩ |
      ⟨d, rest, later, rfl, -, hrest, hy⟩
    · cases hy
    · exact absurd (List.cons.inj hy).1 hspace
    · exact absurd (List.cons.inj hy).1 hspace
    · exact absurd (List.cons.inj hy).1 hquote
    · obtain ⟨rfl, rfl⟩ := List.cons.inj hy
      obtain ⟨more, rfl, hmore⟩ := ih (fun d hd => hw d (by simp [hd])) hrest
      exact ⟨more, rfl, hmore⟩

/-- **Where a token was left, it was read.** -/
theorem exists_of_replaceFrom_token (t : Token)
    (h : replaceFrom [' '] .code s = some (t.text ++ y)) :
    ∃ rest, s = t.text ++ rest ∧ replaceFrom [' '] .code rest = some y := by
  obtain ⟨gs, rfl⟩ | ⟨c, hc, ht⟩ | hw := t.text_cases
  · rcases cases_of_replaceFrom h with ⟨-, hy⟩ | ⟨rest, later, rfl, -, hy⟩ |
      ⟨rest, later, rfl, -, hy⟩ | ⟨rest, later, rfl, hrest, hy⟩ |
      ⟨d, rest, later, rfl, hquote, -, hy⟩
    · cases hy
    · exact absurd (List.cons.inj hy).1 (by decide)
    · exact absurd (List.cons.inj hy).1 (by decide)
    · obtain rfl := (List.cons.inj hy).2
      obtain ⟨more, rfl, hmore⟩ := exists_of_replaceFrom_closedText gs hrest
      exact ⟨more, rfl, hmore⟩
    · exact absurd (List.cons.inj hy).1.symm hquote
  · rw [ht] at h ⊢
    exact exists_of_replaceFrom_plain (by simpa using .inr hc) h
  · exact exists_of_replaceFrom_plain (fun c hc => .inl (hw c hc)) h

/-- **Tokens that spaces in the place of comments leave were laid out in the text.** The induction
is on the length of the text, of which a gap or a token is taken off at a time. -/
theorem isLaidOut_of_replaceComments {ts : List Token} (h : replaceComments [' '] s = some y)
    (hy : IsSpaced ts y) : IsLaidOut ts s := by
  induction hlength : s.length using Nat.strong_induction_on generalizing s y ts with
  | _ n ih =>
    -- A gap at the start has left spaces, and the text behind it is shorter.
    have hgap : ∀ {g rest spaces later : Text}, Gap g → g ≠ [] → s = g ++ rest → Spaces spaces →
        y = spaces ++ later → replaceFrom [' '] .code rest = some later → IsLaidOut ts s := by
      rintro g rest spaces later hg hne rfl hspaces rfl hrest
      have hpos := List.length_pos_iff.mpr hne
      rw [List.length_append] at hlength
      exact (ih rest.length (by omega) hrest ((isSpaced_append hspaces).mp hy) rfl).append hg
    -- Where no space was left, the first token was.
    have htoken : ∀ {c later}, y = c :: later → isSpace c = false → IsLaidOut ts s := by
      rintro c later rfl hc
      cases ts with
      | nil => exact absurd (isSpaced_nil.mp hy c (by simp)) (by simp [hc])
      | cons t ts =>
        obtain ⟨later', ht, hts⟩ := isSpaced_cons.mp hy
        rw [skipSpace, List.dropWhile_cons_of_neg (by simp [hc])] at ht
        rw [ht] at h
        obtain ⟨rest, rfl, hrest⟩ := exists_of_replaceFrom_token t h
        obtain ⟨d, w, hd, -⟩ := t.exists_cons
        rw [List.length_append, hd, List.length_cons] at hlength
        exact (ih rest.length (by omega) hrest hts rfl).cons
    have hspace : Spaces [' '] := by simp [Spaces, isSpace]
    rcases cases_of_replaceFrom h with ⟨rfl, rfl⟩ | ⟨rest, later, rfl, hline, rfl⟩ |
      ⟨rest, later, rfl, hblock, rfl⟩ | ⟨rest, later, rfl, -, rfl⟩ |
      ⟨c, rest, later, rfl, -, hrest, rfl⟩
    · obtain rfl := eq_nil_of_isSpaced hy
      exact ⟨[], rfl, .gap .nil⟩
    · obtain ⟨hrest, rfl⟩ | ⟨content, rest, later, hcontent, rfl, hrest, rfl⟩ :=
        exists_of_replaceFrom_line hline
      · obtain rfl := eq_nil_of_isSpaced ((isSpaced_append hspace).mp hy)
        exact ⟨_, rfl, .line hrest .nil⟩
      · have hspaces : Spaces [' ', '\n'] := by simp [Spaces, isSpace]
        exact hgap (.line hcontent .nil) (by simp) (by simp) hspaces rfl hrest
    · obtain ⟨content, rest, later, hcontent, rfl, hrest, rfl⟩ := exists_of_replaceFrom_block hblock
      have hspaces : Spaces ([' '] ++ content.filter (· = '\n')) :=
        List.forall_mem_append.mpr ⟨hspace, spaces_breaks content⟩
      rw [← List.append_assoc] at h hy
      exact hgap (.block hcontent .nil) (by simp) (by simp) hspaces rfl hrest
    · exact htoken rfl rfl
    · cases hc : isSpace c with
      | false => exact htoken rfl hc
      | true =>
        have hspaces : Spaces [c] := by simpa [Spaces] using hc
        exact hgap (.space hc .nil) (by simp) rfl hspaces rfl hrest

end Jsonc

end ImportAlias
