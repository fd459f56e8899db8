import ImportAlias.Proofs.Config.Meaning
import ImportAlias.Proofs.Jsonc.Comments
import ImportAlias.Proofs.Jsonc.TrailingCommas

/-!
# The layout of a configuration

Two passes over its characters turn a configuration with comments and trailing commas into strict
JSON. Every layout of a tree becomes a document of that tree (`isDocument_of_isCommented`), so the
layout has no part in what is read, and strict JSON is left as it is.

The passes know nothing of the grammar, and they repair some texts that are no layout of anything.
Which of the accepted texts those are can be told from what the text becomes when a space is put in
the place of each comment (`isCommented_of_isDocument`).
-/

namespace ImportAlias

namespace Config

open Json Jsonc

variable {t : Tree} {source strict mark y : Text} {o : PathOptions}

/-! ### Layouts and documents -/

/-- With its comments replaced, a layout of a tree has no comma behind an opening mark, and without
its trailing commas it is a document of the tree. -/
theorem exists_document_of_isCommented (h : IsCommented t source) (hmark : Spaces mark) :
    ∃ y, replaceComments mark source = some y ∧ commaOpens y = false ∧
      IsDocument t (dropTrailingCommas y) := by
  obtain ⟨ts, hadded, hlaid⟩ := h
  obtain ⟨y, hy, hts⟩ := exists_isSpaced_of_isLaidOut hlaid hmark
  obtain ⟨hdrop, hopens⟩ := dropTokens_of_commasAdded hadded (fits_tokens t)
  refine ⟨y, hy, (commaOpensFrom_of_isSpaced hts false).trans hopens, ?_⟩
  rw [IsDocument, ← hdrop]
  exact isSpaced_dropTrailingCommas hts

/-- **Every layout of a tree becomes a document of it.** -/
theorem isDocument_of_isCommented (h : IsCommented t source) :
    IsDocument t (dropTrailingCommas (stripComments source)) := by
  have hnone : Spaces [] := by simp [Spaces]
  obtain ⟨y, hy, -, hdocument⟩ := exists_document_of_isCommented h hnone
  rwa [stripComments, stripFrom_of_replaceFrom hy]

/-- Conversely, a text is a layout of what it becomes when spaces are put in the place of its
comments, unless a comma is dropped behind an opening mark. -/
theorem isCommented_of_isDocument (hy : replaceComments [' '] source = some y)
    (hopens : commaOpens y = false) (h : IsDocument t (dropTrailingCommas y)) :
    IsCommented t source := by
  obtain ⟨us, hus, hdrop⟩ := exists_of_dropTrailingCommas h
  have hamong : commaOpensAmong Token.colon.opens us = false :=
    (commaOpensFrom_of_isSpaced hus false).symm.trans hopens
  refine ⟨us, ?_, isLaidOut_of_replaceComments hy hus⟩
  have hadded := commasAdded_of_dropTokens hdrop (fits_tokens t) hamong
  generalize t.tokens = ts at hadded ⊢
  -- A colon stands before the tree, which ends no value: no comma was added behind it.
  cases hadded with
  | cons _ hadded => exact hadded
  | comma he _ _ => cases he

/-- Strict JSON is a layout of its tree, without comments and without trailing commas. -/
theorem isCommented_of_strict (h : IsDocument t strict) : IsCommented t strict :=
  ⟨t.tokens, .refl _, isLaidOut_of_replaceComments (replaceComments_of_isSpaced h [' ']) h⟩

/-- **Layout has no part in what is read.** However a strict document is laid out anew, with other
spaces, with comments and with trailing commas, it is read as the document itself, which is as what
the tree means, and neither pass changes the document. -/
theorem parse_of_isCommented (hstrict : IsDocument t strict) (hsource : IsCommented t source) :
    (parse source).toOption = (parseStrict strict).toOption ∧
      (parseStrict strict).toOption = meaning t ∧
      stripComments strict = strict ∧ dropTrailingCommas strict = strict := by
  have hmeaning := toOption_parseStrict hstrict
  refine ⟨?_, hmeaning, ?_, dropTrailingCommas_of_fits hstrict (fits_tokens t).tail⟩
  · calc (parse source).toOption
        = meaning t := toOption_parseStrict (isDocument_of_isCommented hsource)
      _ = (parseStrict strict).toOption := hmeaning.symm
  · exact stripFrom_of_replaceFrom (replaceComments_of_isSpaced hstrict [])

/-- A configuration whose string imitates comments and a trailing comma, and whose comments imitate
strings and brackets, before and behind trailing commas. -/
def imitations : Text :=
  ("\x7b\"compilerOptions\":/*\"*/\x7b\"baseUrl\":\"a//b,]\\\"/*\"," ++
    "/*]**/\x7d,//\x7b\n\x7d// /*").toList

/-- The same configuration with spaces for comments and without trailing commas. -/
def plainImitations : Text :=
  "\x7b\"compilerOptions\": \x7b\"baseUrl\":\"a//b,]\\\"/*\" \x7d \n\x7d ".toList

theorem parse_of_isCommented_imitations :
    ∃ t, IsDocument t plainImitations ∧ IsCommented t imitations ∧
      (parse imitations).toOption = (parseStrict plainImitations).toOption ∧
      (parseStrict plainImitations).toOption = meaning t ∧
      stripComments plainImitations = plainImitations ∧
      dropTrailingCommas plainImitations = plainImitations := by
  have hparse : parseStrict plainImitations = .ok ⟨some "a//b,]\"/*".toList, none⟩ := rfl
  obtain ⟨t, ht, -⟩ := parseStrict_eq_ok_iff.mp hparse
  have hreplace : replaceComments [' '] imitations = some _ := rfl
  have hcommented := isCommented_of_isDocument hreplace (by decide) ht
  exact ⟨t, ht, hcommented, parse_of_isCommented ht hcommented⟩

/-! ### Accepted texts -/

/-- The root is an object, and so is the value of `compilerOptions` wherever it stands in it. -/
def HasObjects (t : Tree) : Prop :=
  ∃ ms, t = .object ms ∧
    ∀ m ∈ ms, decode m.1 = some "compilerOptions".toList → ∃ ms', m.2 = .object ms'

/-- The text is a configuration as documented: the layout of a tree with objects where they are
wanted. -/
def IsDocumented (source : Text) : Prop := ∃ t, HasObjects t ∧ IsCommented t source

/-- Of the texts that become a document, those are documented that still become one with a space in
the place of each comment. -/
theorem isDocumented_iff (hdocument : IsDocument t (dropTrailingCommas (stripComments source)))
    (hmeaning : meaning t = some o) :
    IsDocumented source ↔ HasObjects t ∧ ∃ y, replaceComments [' '] source = some y ∧
      commaOpens y = false ∧ (parseStrict (dropTrailingCommas y)).isOk := by
  constructor
  · rintro ⟨t', hobjects, hsource⟩
    obtain rfl := (isDocument_of_isCommented hsource).unique hdocument
    have hspace : Spaces [' '] := by simp [Spaces, isSpace]
    obtain ⟨y, hy, hopens, hdocument'⟩ := exists_document_of_isCommented hsource hspace
    refine ⟨hobjects, y, hy, hopens, ?_⟩
    rw [parseStrict_eq_ok_iff.mpr ⟨t, hdocument', hmeaning⟩]
    rfl
  · rintro ⟨hobjects, y, hy, hopens, hok⟩
    cases hparse : parseStrict (dropTrailingCommas y) with
    | error e =>
      rw [hparse] at hok
      cases hok
    | ok o' =>
      obtain ⟨t', hdocument', -⟩ := parseStrict_eq_ok_iff.mp hparse
      have hsource := isCommented_of_isDocument hy hopens hdocument'
      obtain rfl := (isDocument_of_isCommented hsource).unique hdocument
      exact ⟨t, hobjects, hsource⟩

/-- **Which accepted texts are configurations as documented.** An accepted text becomes a document
that means the options. The text is documented exactly when that document has objects where they
are wanted, every comment is closed, no comma comes directly behind an opening brace or bracket, and
the text is still accepted when a space is put in the place of each comment. -/
theorem isDocumented_iff_of_parse (h : parse source = .ok o) :
    ∃ t, IsDocument t (dropTrailingCommas (stripComments source)) ∧ meaning t = some o ∧
      (IsDocumented source ↔ HasObjects t ∧ ∃ y, replaceComments [' '] source = some y ∧
        commaOpens y = false ∧ (parseStrict (dropTrailingCommas y)).isOk) := by
  obtain ⟨t, hdocument, hmeaning⟩ := parseStrict_eq_ok_iff.mp h
  exact ⟨t, hdocument, hmeaning, isDocumented_iff hdocument hmeaning⟩

/-- Two tokens with a comment between them are read as one, and the text is accepted. -/
theorem isDocumented_iff_of_parse_glued :
    parse "\x7b\"x\":tr/**/ue\x7d".toList = .ok {} ∧
      ¬ IsDocumented "\x7b\"x\":tr/**/ue\x7d".toList := by
  have h : parse "\x7b\"x\":tr/**/ue\x7d".toList = .ok {} := rfl
  obtain ⟨t, -, -, hiff⟩ := isDocumented_iff_of_parse h
  refine ⟨h, fun hdocumented => ?_⟩
  obtain ⟨-, y, hy, -, hok⟩ := hiff.mp hdocumented
  cases hy
  exact absurd hok (by decide)

/-- The text is accepted, though it is no configuration as documented. -/
def IsStray (source : Text) : Prop := (parse source).isOk ∧ ¬ IsDocumented source

theorem isStray_of_parse (h : parse source = .ok o)
    (hstray : ∀ t y, IsDocument t (dropTrailingCommas (stripComments source)) → HasObjects t →
      replaceComments [' '] source = some y → commaOpens y = false →
      (parseStrict (dropTrailingCommas y)).isOk = false) : IsStray source := by
  obtain ⟨t, hdocument, hmeaning⟩ := parseStrict_eq_ok_iff.mp h
  refine ⟨by rw [h]; rfl, fun hdocumented => ?_⟩
  obtain ⟨hobjects, y, hy, hopens, hok⟩ := (isDocumented_iff hdocument hmeaning).mp hdocumented
  rw [hstray t y hdocument hobjects hy hopens] at hok
  cases hok

/-- **Not every accepted text is a configuration as documented.** A comma in an empty object is
dropped, a comment that is not closed is taken out, two tokens are joined where a comment stood
between them, and a list is taken for the values of an object. -/
theorem isStray_repaired :
    IsStray "\x7b,\x7d".toList ∧ IsStray "\x7b\x7d /* open".toList ∧
      IsStray "\x7b\"x\":tr/**/ue\x7d".toList ∧ IsStray "[]".toList := by
  have hempty : parse "\x7b,\x7d".toList = .ok {} := rfl
  have hopen : parse "\x7b\x7d /* open".toList = .ok {} := rfl
  have hglued : parse "\x7b\"x\":tr/**/ue\x7d".toList = .ok {} := rfl
  have hlist : parse "[]".toList = .ok {} := rfl
  refine ⟨isStray_of_parse hempty ?_, isStray_of_parse hopen ?_, isStray_of_parse hglued ?_,
    isStray_of_parse hlist ?_⟩
  · intro t y _ _ hy hopens
    cases hy
    exact absurd hopens (by decide)
  · intro t y _ _ hy _
    cases hy
  · intro t y _ _ hy _
    cases hy
    decide
  · rintro t y ⟨rest, ht, -⟩ ⟨ms, rfl, -⟩ _ _
    obtain ⟨later, hlater, -⟩ := spaced_object.mp ht
    cases hlater

end Config

end ImportAlias
