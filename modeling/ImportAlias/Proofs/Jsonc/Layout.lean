import ImportAlias.Proofs.Json.Tokens

/-!
# Layouts with comments and trailing commas

How a document may be laid out in a configuration file: comments may stand wherever spaces may, and
a comma may follow the last element of an object or array. `IsCommented` says that a text is such a
layout of a tree.
-/

namespace ImportAlias

namespace Jsonc

open Json

/-- What may stand between tokens: spaces, comments that end with their line, and comments that
are closed, which may hold everything but their end. -/
inductive Gap : Text → Prop
  | nil : Gap []
  | space {c : Char} {gap : Text} (hc : isSpace c = true) (h : Gap gap) : Gap (c :: gap)
  | line {content gap : Text} (hcontent : '\n' ∉ content) (h : Gap gap) :
      Gap ('/' :: '/' :: (content ++ '\n' :: gap))
  | block {content gap : Text} (hcontent : ¬ ['*', '/'] <:+: content) (h : Gap gap) :
      Gap ('/' :: '*' :: (content ++ '*' :: '/' :: gap))

/-- What may stand behind the last token: a comment may also end with the text. -/
inductive EndGap : Text → Prop
  | gap {gap : Text} (h : Gap gap) : EndGap gap
  | line {content gap : Text} (hcontent : '\n' ∉ content) (h : Gap gap) :
      EndGap (gap ++ '/' :: '/' :: content)

/-- The text is made of the tokens, with spaces and comments around them. -/
def IsLaidOut (ts : List Token) (s : Text) : Prop := ∃ rest, Begins Gap ts s rest ∧ EndGap rest

/-- The second tokens are the first with commas added, at most one between the end of a value and
a closing mark. -/
inductive CommasAdded : List Token → List Token → Prop
  | nil : CommasAdded [] []
  | cons (t : Token) {ts us : List Token} (h : CommasAdded ts us) : CommasAdded (t :: ts) (t :: us)
  | comma {e c : Token} {ts us : List Token} (he : e.endsValue = true) (hc : c.closes = true)
      (h : CommasAdded (c :: ts) (c :: us)) : CommasAdded (e :: c :: ts) (e :: .comma :: c :: us)

/-- The tree is written in the text with comments and trailing commas. -/
def IsCommented (t : Tree) (s : Text) : Prop := ∃ ts, CommasAdded t.tokens ts ∧ IsLaidOut ts s

/-- It may be that no comma is added. -/
theorem CommasAdded.refl (ts : List Token) : CommasAdded ts ts := by
  induction ts with
  | nil => exact .nil
  | cons t ts ih => exact .cons t ih

theorem Gap.append {g h : Text} (hg : Gap g) (hh : Gap h) : Gap (g ++ h) := by
  induction hg with
  | nil => exact hh
  | space hc _ ih => exact .space hc ih
  | line hcontent _ ih =>
    rw [List.cons_append, List.cons_append, List.append_assoc]
    exact .line hcontent ih
  | block hcontent _ ih =>
    rw [List.cons_append, List.cons_append, List.append_assoc]
    exact .block hcontent ih

/-- A gap may come before a layout. -/
theorem IsLaidOut.append {ts : List Token} {g s : Text} (hg : Gap g) (h : IsLaidOut ts s) :
    IsLaidOut ts (g ++ s) := by
  obtain ⟨rest, hts, hrest⟩ := h
  cases ts with
  | nil =>
    cases hts
    refine ⟨g ++ s, rfl, ?_⟩
    cases hrest with
    | gap h => exact .gap (hg.append h)
    | line hcontent h =>
      rw [← List.append_assoc]
      exact .line hcontent (hg.append h)
  | cons t ts =>
    obtain ⟨gap, later, hgap, rfl, hlater⟩ := hts
    exact ⟨rest, ⟨g ++ gap, later, hg.append hgap, (List.append_assoc ..).symm, hlater⟩, hrest⟩

/-- A token may come before a layout. -/
theorem IsLaidOut.cons {t : Token} {ts : List Token} {s : Text} (h : IsLaidOut ts s) :
    IsLaidOut (t :: ts) (t.text ++ s) := by
  obtain ⟨rest, hts, hrest⟩ := h
  exact ⟨rest, ⟨[], s, .nil, rfl, hts⟩, hrest⟩

end Jsonc

end ImportAlias
