import ImportAlias.Proofs.Json.Grammar
import ImportAlias.Text.Blank
import Mathlib.Tactic.IntervalCases

/-!
# Tokens and their neighbours

What a pass over the characters of a document can know of its tokens: how they are written, and
which of them may stand side by side. A token is a string, a mark or a word, which is a name or a
number (`Token.text_cases`). In the tokens of a tree a closing mark follows an opening one or the
end of a value, and a comma never follows an opening mark (`Follows`).
-/

namespace ImportAlias

namespace Json

/-! ### How tokens are written -/

/-- The characters of names and numbers. -/
def wordChars : Text := "0123456789+-.eEnultrfas".toList

/-- The marks. -/
def markChars : Text := "[]\x7b\x7d:,".toList

/-- A check of the characters of a text one by one. The statement itself can be decided too, but by
going through all characters there are. -/
theorem forall_mem_of_all {p : Char → Prop} [DecidablePred p] {w : Text}
    (h : (w.all fun c => p c) = true) : ∀ c ∈ w, p c := by
  simpa using h

theorem mem_wordChars_of_isDigit {c : Char} (h : isDigit c = true) : c ∈ wordChars := by
  obtain ⟨hlow, hhigh⟩ := isDigit_iff.mp h
  have hc := Char.ofNat_toNat c
  generalize c.toNat = n at *
  subst hc
  interval_cases n <;> decide

theorem IsDigits.mem_wordChars {ds : Text} (h : IsDigits ds) : ∀ c ∈ ds, c ∈ wordChars :=
  fun c hc => mem_wordChars_of_isDigit (h c hc)

theorem IsInteger.mem_wordChars {s : Text} (h : IsInteger s) : ∀ c ∈ s, c ∈ wordChars := by
  cases h with
  | zero => exact forall_mem_of_all (by decide)
  | digits hd h0 hds =>
    exact List.forall_mem_cons.mpr ⟨mem_wordChars_of_isDigit hd, hds.mem_wordChars⟩

theorem IsFraction.mem_wordChars {s : Text} (h : IsFraction s) : ∀ c ∈ s, c ∈ wordChars := by
  cases h with
  | absent => exact List.forall_mem_nil _
  | digits hd hds =>
    exact List.forall_mem_cons.mpr ⟨by decide,
      List.forall_mem_cons.mpr ⟨mem_wordChars_of_isDigit hd, hds.mem_wordChars⟩⟩

theorem IsExponent.mem_wordChars {s : Text} (h : IsExponent s) : ∀ c ∈ s, c ∈ wordChars := by
  cases h with
  | absent => exact List.forall_mem_nil _
  | digits he hsign hd hds =>
    refine List.forall_mem_cons.mpr ⟨by rcases he with rfl | rfl <;> decide, ?_⟩
    refine List.forall_mem_append.mpr ⟨?_, ?_⟩
    · rcases hsign with rfl | rfl | rfl <;> exact forall_mem_of_all (by decide)
    exact List.forall_mem_cons.mpr ⟨mem_wordChars_of_isDigit hd, hds.mem_wordChars⟩

theorem Numeral.mem_wordChars (n : Numeral) : ∀ c ∈ n.text, c ∈ wordChars := by
  obtain ⟨sign, integer, fraction, exponent, hsign, hinteger, hfraction, hexponent, h⟩ :=
    n.isNumeral
  rw [h]
  refine List.forall_mem_append.mpr ⟨?_, ?_⟩
  · rcases hsign with rfl | rfl <;> exact forall_mem_of_all (by decide)
  refine List.forall_mem_append.mpr ⟨hinteger.mem_wordChars, ?_⟩
  exact List.forall_mem_append.mpr ⟨hfraction.mem_wordChars, hexponent.mem_wordChars⟩

/-- **A token is a string, a mark or a word.** -/
theorem Token.text_cases (t : Token) :
    (∃ glyphs, t = .scalar (.string glyphs)) ∨ (∃ c ∈ markChars, t.text = [c]) ∨
      ∀ c ∈ t.text, c ∈ wordChars := by
  match t with
  | .scalar (.string glyphs) => exact .inl ⟨glyphs, rfl⟩
  | .scalar .null => exact .inr (.inr (forall_mem_of_all (by decide)))
  | .scalar (.boolean true) => exact .inr (.inr (forall_mem_of_all (by decide)))
  | .scalar (.boolean false) => exact .inr (.inr (forall_mem_of_all (by decide)))
  | .scalar (.number n) => exact .inr (.inr n.mem_wordChars)
  | .openList => exact .inr (.inl ⟨'[', by decide, rfl⟩)
  | .closeList => exact .inr (.inl ⟨']', by decide, rfl⟩)
  | .openObject => exact .inr (.inl ⟨'\x7b', by decide, rfl⟩)
  | .closeObject => exact .inr (.inl ⟨'\x7d', by decide, rfl⟩)
  | .colon => exact .inr (.inl ⟨':', by decide, rfl⟩)
  | .comma => exact .inr (.inl ⟨',', by decide, rfl⟩)

theorem isBlank_of_isSpace {c : Char} (h : isSpace c = true) : Text.isBlank c = true := by
  rcases isSpace_iff.mp h with rfl | rfl | rfl | rfl <;> decide

/-- What words and marks have in common: they are not blank and begin neither strings nor
comments. -/
theorem plain_of_mem {c : Char} (h : c ∈ wordChars ∨ c ∈ markChars) :
    Text.isBlank c = false ∧ c ≠ '"' ∧ c ≠ '/' := by
  have hall : ∀ c ∈ wordChars ++ markChars, Text.isBlank c = false ∧ c ≠ '"' ∧ c ≠ '/' :=
    forall_mem_of_all (by decide)
  exact hall c (List.mem_append.mpr h)

/-! ### Neighbours -/

namespace Token

/-- Whether the token opens a container. -/
def opens : Token → Bool
  | openList | openObject => true
  | _ => false

/-- Whether the token closes a container. -/
def closes : Token → Bool
  | closeList | closeObject => true
  | _ => false

/-- Whether a value may end with the token. -/
def endsValue : Token → Bool
  | closeList | closeObject | scalar _ => true
  | _ => false

/-- Whether the token is a comma. -/
def isComma : Token → Bool
  | comma => true
  | _ => false

/-- Whether the second token may come next after the first. -/
def Follows (a b : Token) : Prop :=
  (b.closes = true → a.opens = true ∨ a.endsValue = true) ∧
    (a.opens = true → b.isComma = false)

theorem eq_comma_of_isComma {t : Token} (h : t.isComma = true) : t = comma := by
  cases t <;> first | rfl | cases h

theorem eq_comma_of_text {t : Token} {w : Text} (h : t.text = ',' :: w) : t = comma := by
  cases t with
  | comma => rfl
  | scalar a =>
    obtain ⟨c, w', ha, hc⟩ := a.exists_cons
    obtain rfl := (List.cons.inj (ha.symm.trans h)).1
    exact absurd hc (by decide)
  | _ => exact absurd (List.cons.inj h).1 (by decide)

end Token

open Token

/-- The tokens may stand in this order. -/
def Fits (ts : List Token) : Prop := List.IsChain Follows ts

theorem fits_cons_cons {a b : Token} {ts : List Token} :
    Fits (a :: b :: ts) ↔ Follows a b ∧ Fits (b :: ts) :=
  List.isChain_cons_cons

theorem Fits.tail {t : Token} {ts : List Token} (h : Fits (t :: ts)) : Fits ts := by
  cases ts with
  | nil => exact .nil
  | cons b ts => exact (fits_cons_cons.mp h).2

theorem opens_eq_false {a : Token} (h : a.endsValue = true) : a.opens = false := by
  cases a <;> simp_all [endsValue, opens]

theorem endsValue_eq_false {a : Token} (h : a.opens = true) : a.endsValue = false := by
  cases a <;> simp_all [endsValue, opens]

/-- The tokens of the tree may stand wherever a value is due. -/
def IsFitting (t : Tree) : Prop :=
  ∀ ⦃a us⦄, a.endsValue = false → (∀ b : Token, b.endsValue = true → Fits (b :: us)) →
    Fits (a :: (t.tokens ++ us))

/-- A separator fits behind what is before it, and a value is due behind it. -/
theorem fits_separator {first : Bool} {a : Token} {us : List Token}
    (ha : if first then a.opens = true else a.endsValue = true)
    (hus : ∀ b : Token, b.endsValue = false → Fits (b :: us)) :
    Fits (a :: (separator first ++ us)) := by
  cases first with
  | true => exact hus a (endsValue_eq_false ha)
  | false =>
    have hcomma : Follows a .comma :=
      ⟨fun h => (by cases h), fun h => absurd h (by simp [opens_eq_false ha])⟩
    exact fits_cons_cons.mpr ⟨hcomma, hus .comma rfl⟩

/-- A closing mark fits behind an opening one and behind a value. -/
theorem fits_close {first : Bool} {a b : Token} {us : List Token}
    (ha : if first then a.opens = true else a.endsValue = true) (hb : b.isComma = false)
    (hus : Fits (b :: us)) : Fits (a :: b :: us) := by
  refine fits_cons_cons.mpr ⟨⟨fun _ => ?_, fun _ => hb⟩, hus⟩
  cases first <;> simp_all

theorem fits_elements {ts : List Tree} (hts : ∀ t ∈ ts, IsFitting t) {first : Bool} {a : Token}
    {us : List Token} (ha : if first then a.opens = true else a.endsValue = true)
    (hus : ∀ b : Token, b.endsValue = true → Fits (b :: us)) :
    Fits (a :: (elementTokens first ts ++ us)) := by
  induction ts generalizing first a with
  | nil => exact fits_close ha rfl (hus _ rfl)
  | cons t ts ih =>
    rw [elementTokens, List.append_assoc, List.append_assoc]
    refine fits_separator ha fun b hb => hts t (by simp) hb fun e he => ?_
    exact ih (fun t' ht' => hts t' (by simp [ht'])) he

theorem fits_members {ms : List (List Glyph × Tree)} (hms : ∀ m ∈ ms, IsFitting m.2)
    {first : Bool} {a : Token} {us : List Token}
    (ha : if first then a.opens = true else a.endsValue = true)
    (hus : ∀ b : Token, b.endsValue = true → Fits (b :: us)) :
    Fits (a :: (memberTokens first ms ++ us)) := by
  induction ms generalizing first a with
  | nil => exact fits_close ha rfl (hus _ rfl)
  | cons m ms ih =>
    obtain ⟨key, t⟩ := m
    rw [memberTokens, List.append_assoc, List.append_assoc, List.append_assoc]
    refine fits_separator ha fun b hb => ?_
    refine fits_cons_cons.mpr ⟨⟨fun h => (by cases h), fun _ => rfl⟩, ?_⟩
    refine fits_cons_cons.mpr ⟨⟨fun h => (by cases h), fun h => (by cases h)⟩, ?_⟩
    refine hms (key, t) (by simp) rfl fun e he => ?_
    exact ih (fun m' hm' => hms m' (by simp [hm'])) he

theorem isFitting (t : Tree) : IsFitting t := by
  induction t using Tree.induct with
  | scalar s =>
    intro a us ha hus
    rw [Tree.tokens]
    exact fits_cons_cons.mpr ⟨⟨fun h => (by cases h), fun _ => rfl⟩, hus _ rfl⟩
  | list ts ih =>
    intro a us ha hus
    rw [Tree.tokens]
    refine fits_cons_cons.mpr ⟨⟨fun h => (by cases h), fun _ => rfl⟩, ?_⟩
    exact fits_elements ih rfl hus
  | object ms ih =>
    intro a us ha hus
    rw [Tree.tokens]
    refine fits_cons_cons.mpr ⟨⟨fun h => (by cases h), fun _ => rfl⟩, ?_⟩
    exact fits_members ih rfl hus

/-- **The tokens of a tree fit**, wherever a value is due. A colon stands for such a place. -/
theorem fits_tokens (t : Tree) : Fits (.colon :: t.tokens) := by
  have h : Fits (.colon :: (t.tokens ++ [])) := isFitting t rfl fun b _ => .singleton b
  rwa [List.append_nil] at h

end Json

end ImportAlias
