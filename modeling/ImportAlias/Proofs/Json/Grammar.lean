import ImportAlias.Json.Literal
import Mathlib.Data.List.TakeWhile

/-!
# The grammar of JSON

What a JSON document is, said without a reader. A document is a tree; its tokens stand in a text
one behind the other, with gaps between them. Literals carry the proof that they are written as
the grammar wants them, so every tree can be written down, and a text is a document exactly when
some tree is written in it (`IsDocument`).

The gaps are a parameter of `Begins`, which says that a text begins with given tokens and what is
left of it: between the tokens of JSON stand spaces alone, and other formats allow more there.
-/

namespace ImportAlias

namespace Json

/-! ### Literals -/

/-- One character of a string literal, as it is written. -/
inductive Glyph where
  /-- A character that stands for itself. -/
  | plain (c : Char) (isPlain : 0x20 ≤ c.toNat ∧ c ≠ '"' ∧ c ≠ '\\')
  /-- A backslash and a letter. -/
  | escape (letter : Char) (isLetter : letter ∈ "\"\\/bfnrt".toList)
  /-- A backslash, the letter `u` and four hexadecimal digits. -/
  | code (d₁ d₂ d₃ d₄ : Char) (isCode : ∀ d ∈ [d₁, d₂, d₃, d₄], (Text.hexValue? d).isSome)

/-- The character as it is written. -/
def Glyph.text : Glyph → Text
  | plain c _ => [c]
  | escape letter _ => ['\\', letter]
  | code d₁ d₂ d₃ d₄ _ => ['\\', 'u', d₁, d₂, d₃, d₄]

/-- Decimal digits, or nothing. -/
def IsDigits (s : Text) : Prop := ∀ c ∈ s, isDigit c = true

/-- The integer part of a number: zero, or digits that do not begin with zero. -/
inductive IsInteger : Text → Prop
  | zero : IsInteger ['0']
  | digits {d : Char} {ds : Text} (hd : isDigit d = true) (h0 : d ≠ '0') (hds : IsDigits ds) :
      IsInteger (d :: ds)

/-- The fraction of a number, which may be absent. -/
inductive IsFraction : Text → Prop
  | absent : IsFraction []
  | digits {d : Char} {ds : Text} (hd : isDigit d = true) (hds : IsDigits ds) :
      IsFraction ('.' :: d :: ds)

/-- The exponent of a number, which may be absent. -/
inductive IsExponent : Text → Prop
  | absent : IsExponent []
  | digits {e : Char} {sign : Text} {d : Char} {ds : Text} (he : e = 'e' ∨ e = 'E')
      (hsign : sign = [] ∨ sign = ['+'] ∨ sign = ['-']) (hd : isDigit d = true)
      (hds : IsDigits ds) : IsExponent (e :: (sign ++ d :: ds))

/-- A number as it is written. -/
def IsNumeral (s : Text) : Prop :=
  ∃ sign integer fraction exponent, (sign = [] ∨ sign = ['-']) ∧ IsInteger integer ∧
    IsFraction fraction ∧ IsExponent exponent ∧ s = sign ++ (integer ++ (fraction ++ exponent))

/-- A number literal. -/
structure Numeral where
  text : Text
  isNumeral : IsNumeral text

/-- A value that is no container. -/
inductive Scalar where
  | null
  | boolean (b : Bool)
  | number (n : Numeral)
  | string (glyphs : List Glyph)

/-- The glyphs as they are written, with the quotation mark that ends them. -/
def closedText (glyphs : List Glyph) : Text := glyphs.flatMap Glyph.text ++ ['"']

theorem closedText_cons (g : Glyph) (gs : List Glyph) :
    closedText (g :: gs) = g.text ++ closedText gs := by
  simp [closedText]

/-- The value as it is written. -/
def Scalar.text : Scalar → Text
  | null => "null".toList
  | boolean true => "true".toList
  | boolean false => "false".toList
  | number n => n.text
  | string glyphs => '"' :: closedText glyphs

/-! ### Trees and their tokens -/

/-- A token. -/
inductive Token where
  | openList
  | closeList
  | openObject
  | closeObject
  | colon
  | comma
  | scalar (s : Scalar)

/-- The token as it is written. -/
def Token.text : Token → Text
  | openList => ['[']
  | closeList => [']']
  | openObject => ['\x7b']
  | closeObject => ['\x7d']
  | colon => [':']
  | comma => [',']
  | scalar s => s.text

/-- A JSON value as it is written, its layout apart. -/
inductive Tree where
  | scalar (s : Scalar)
  | list (elements : List Tree)
  | object (members : List (List Glyph × Tree))

/-- What stands before an element or a member, which may be the first of its container. -/
def separator : (first : Bool) → List Token
  | true => []
  | false => [.comma]

mutual

/-- The tokens of a value, in order. -/
def Tree.tokens : Tree → List Token
  | .scalar s => [.scalar s]
  | .list ts => .openList :: elementTokens true ts
  | .object ms => .openObject :: memberTokens true ms

/-- The tokens of the elements that are left of a list, and of its end. -/
def elementTokens : (first : Bool) → List Tree → List Token
  | _, [] => [.closeList]
  | first, t :: ts => separator first ++ (t.tokens ++ elementTokens false ts)

/-- The tokens of the members that are left of an object, and of its end. -/
def memberTokens : (first : Bool) → List (List Glyph × Tree) → List Token
  | _, [] => [.closeObject]
  | first, (key, t) :: ms =>
    separator first ++ ([.scalar (.string key), .colon] ++ (t.tokens ++ memberTokens false ms))

end

/-- Induction over trees, with the children of a container taken together. -/
theorem Tree.induct {motive : Tree → Prop} (scalar : ∀ s, motive (.scalar s))
    (list : ∀ ts, (∀ t ∈ ts, motive t) → motive (.list ts))
    (object : ∀ ms, (∀ m ∈ ms, motive m.2) → motive (.object ms)) (t : Tree) : motive t :=
  Tree.rec (motive_1 := motive) (motive_2 := fun ts => ∀ t ∈ ts, motive t)
    (motive_3 := fun ms => ∀ m ∈ ms, motive m.2) (motive_4 := fun m => motive m.2)
    scalar list object (by simp)
    (fun t ts ht hts => by simpa using ⟨ht, hts⟩) (by simp)
    (fun m ms hm hms => by simpa using ⟨hm, fun a b h => hms (a, b) h⟩) (fun _ _ h => h) t

/-! ### Texts that tokens are written in -/

/-- The text `s` begins with the tokens, each behind a gap, and `rest` is left of it. -/
def Begins (Gap : Text → Prop) : List Token → Text → Text → Prop
  | [], s, rest => s = rest
  | t :: ts, s, rest =>
    ∃ gap later, Gap gap ∧ s = gap ++ (t.text ++ later) ∧ Begins Gap ts later rest

/-- Spaces, or nothing. -/
def Spaces (s : Text) : Prop := ∀ c ∈ s, isSpace c = true

/-- The text `s` begins with the tokens, with spaces between them, and `rest` is left of it. -/
abbrev Spaced : List Token → Text → Text → Prop := Begins Spaces

/-- The text is made of the tokens, with spaces around them. -/
def IsSpaced (ts : List Token) (s : Text) : Prop := ∃ rest, Spaced ts s rest ∧ Spaces rest

/-- The tree is written in the text, and nothing else is. -/
def IsDocument (t : Tree) (s : Text) : Prop := IsSpaced t.tokens s

/-! ### How tokens begin -/

theorem isSpace_iff {c : Char} : isSpace c = true ↔ c = ' ' ∨ c = '\t' ∨ c = '\r' ∨ c = '\n' := by
  simp [isSpace, or_assoc]

theorem isDigit_iff {c : Char} : isDigit c = true ↔ 48 ≤ c.toNat ∧ c.toNat ≤ 57 := by
  simp only [isDigit, Bool.and_eq_true, decide_eq_true_eq, Char.le_def, UInt32.le_iff_toNat_le]
  exact Iff.rfl

theorem isSome_simpleEscape {c : Char} :
    (simpleEscape c).isSome ↔ c ∈ "\"\\/bfnrt".toList := by
  simp only [simpleEscape]
  split_ifs <;> simp_all
  grind

/-- A hexadecimal digit takes one byte. -/
theorem utf8Size_of_hexValue? {c : Char} (h : (Text.hexValue? c).isSome) : c.utf8Size = 1 := by
  have hval : c.val ≤ 127 := by
    unfold Text.hexValue? at h
    split_ifs at h with h₁ h₂ h₃
    · exact UInt32.le_trans h₁.2 (by decide)
    · exact UInt32.le_trans h₂.2 (by decide)
    · exact UInt32.le_trans h₃.2 (by decide)
    · simp at h
  simp [Char.utf8Size, hval]

/-- The digits of a code neither end a string nor begin an escape. -/
theorem plain_of_isCode {ds : Text} (h : ∀ d ∈ ds, (Text.hexValue? d).isSome) :
    ∀ d ∈ ds, d ≠ '"' ∧ d ≠ '\\' := by
  intro d hd
  constructor <;> rintro rfl <;> exact absurd (h _ hd) (by decide)

/-- A number begins with its sign or with a digit. -/
theorem Numeral.exists_cons (n : Numeral) :
    ∃ c rest, n.text = c :: rest ∧ (c = '-' ∨ isDigit c = true) := by
  obtain ⟨sign, integer, fraction, exponent, hsign, hinteger, -, -, h⟩ := n.isNumeral
  rw [h]
  obtain rfl | rfl := hsign
  · cases hinteger with
    | zero => exact ⟨_, _, rfl, .inr rfl⟩
    | digits hd h0 hds => exact ⟨_, _, rfl, .inr hd⟩
  · exact ⟨_, _, rfl, .inl rfl⟩

/-- The first characters of scalars. -/
def BeginsScalar (c : Char) : Prop :=
  c = 'n' ∨ c = 't' ∨ c = 'f' ∨ c = '"' ∨ c = '-' ∨ isDigit c = true

instance : DecidablePred BeginsScalar := fun c =>
  inferInstanceAs
    (Decidable (c = 'n' ∨ c = 't' ∨ c = 'f' ∨ c = '"' ∨ c = '-' ∨ isDigit c = true))

theorem Scalar.exists_cons (s : Scalar) : ∃ c rest, s.text = c :: rest ∧ BeginsScalar c := by
  match s with
  | .null => exact ⟨_, _, rfl, .inl rfl⟩
  | .boolean true => exact ⟨_, _, rfl, .inr (.inl rfl)⟩
  | .boolean false => exact ⟨_, _, rfl, .inr (.inr (.inl rfl))⟩
  | .string glyphs => exact ⟨_, _, rfl, .inr (.inr (.inr (.inl rfl)))⟩
  | .number n =>
    obtain ⟨c, rest, h, hc⟩ := n.exists_cons
    exact ⟨c, rest, h, .inr (.inr (.inr (.inr hc)))⟩

theorem BeginsScalar.not_isSpace {c : Char} (h : BeginsScalar c) : isSpace c = false := by
  rcases h with rfl | rfl | rfl | rfl | rfl | h
  iterate 5 rfl
  rw [Bool.eq_false_iff]
  intro hs
  rcases isSpace_iff.mp hs with rfl | rfl | rfl | rfl <;> exact absurd h (by decide)

/-- No token begins with a space. -/
theorem Token.exists_cons (t : Token) : ∃ c rest, t.text = c :: rest ∧ isSpace c = false := by
  cases t with
  | scalar s =>
    obtain ⟨c, rest, h, hc⟩ := s.exists_cons
    exact ⟨c, rest, h, hc.not_isSpace⟩
  | _ => exact ⟨_, _, rfl, rfl⟩

/-! ### Texts token by token -/

section Begins

variable {Gap : Text → Prop} {ts us : List Token} {t : Token} {s later rest : Text}

@[simp] theorem begins_nil : Begins Gap [] s rest ↔ s = rest := Iff.rfl

theorem begins_append :
    Begins Gap (ts ++ us) s rest ↔ ∃ later, Begins Gap ts s later ∧ Begins Gap us later rest := by
  induction ts generalizing s with
  | nil => simp
  | cons t ts ih =>
    simp only [List.cons_append, Begins, ih]
    grind

theorem skipSpace_append (hgap : Spaces later) (t : Token) (s : Text) :
    skipSpace (later ++ (t.text ++ s)) = t.text ++ s := by
  obtain ⟨c, cs, ht, hc⟩ := t.exists_cons
  rw [skipSpace, List.dropWhile_append_of_pos hgap, ht]
  simp [hc]

theorem skipSpace_token (t : Token) (s : Text) : skipSpace (t.text ++ s) = t.text ++ s :=
  skipSpace_append (show Spaces [] by simp [Spaces]) t s

/-- **Reading a token off a text**: it stands behind the spaces at the start. -/
theorem spaced_cons :
    Spaced (t :: ts) s rest ↔ ∃ later, skipSpace s = t.text ++ later ∧ Spaced ts later rest := by
  constructor
  · rintro ⟨gap, later, hgap, rfl, h⟩
    exact ⟨later, skipSpace_append hgap t later, h⟩
  · rintro ⟨later, hs, h⟩
    refine ⟨s.takeWhile isSpace, later, fun c hc => ?_, ?_, h⟩
    · exact List.mem_takeWhile_imp hc
    · rw [← hs, skipSpace, List.takeWhile_append_dropWhile]

/-- Every token takes at least one character. -/
theorem length_add_le_of_begins (h : Begins Gap ts s rest) :
    ts.length + rest.length ≤ s.length := by
  induction ts generalizing s with
  | nil => simp [begins_nil.mp h]
  | cons t ts ih =>
    obtain ⟨gap, later, -, rfl, hlater⟩ := h
    obtain ⟨c, cs, ht, -⟩ := t.exists_cons
    have := ih hlater
    simp only [List.length_cons, List.length_append, ht]
    omega

theorem spaces_iff : Spaces s ↔ skipSpace s = [] := by
  rw [skipSpace, List.dropWhile_eq_nil_iff]
  rfl

/-- Spaces may come before a token. -/
theorem skipSpace_spaces_append (h : Spaces later) (s : Text) :
    skipSpace (later ++ s) = skipSpace s := by
  rw [skipSpace, skipSpace, List.dropWhile_append_of_pos h]

end Begins

section IsSpaced

variable {ts : List Token} {t : Token} {s gap : Text}

theorem isSpaced_nil : IsSpaced [] s ↔ Spaces s :=
  ⟨fun ⟨_, h, hrest⟩ => h ▸ hrest, fun h => ⟨s, rfl, h⟩⟩

theorem isSpaced_cons :
    IsSpaced (t :: ts) s ↔ ∃ later, skipSpace s = t.text ++ later ∧ IsSpaced ts later := by
  simp only [IsSpaced, spaced_cons]
  grind

theorem isSpaced_append (h : Spaces gap) : IsSpaced ts (gap ++ s) ↔ IsSpaced ts s := by
  cases ts with
  | nil =>
    rw [isSpaced_nil, isSpaced_nil]
    exact List.forall_mem_append.trans (and_iff_right h)
  | cons t ts => rw [isSpaced_cons, isSpaced_cons, skipSpace_spaces_append h]

/-- An empty text holds no tokens. -/
theorem eq_nil_of_isSpaced (h : IsSpaced ts []) : ts = [] := by
  cases ts with
  | nil => rfl
  | cons t ts =>
    obtain ⟨later, hs, -⟩ := isSpaced_cons.mp h
    obtain ⟨c, w, ht, -⟩ := t.exists_cons
    rw [ht] at hs
    cases hs

end IsSpaced

/-! ### How trees begin -/

/-- The characters that a tree may begin with. -/
def Tree.BeginsWith : Tree → Char → Prop
  | .scalar _, c => BeginsScalar c
  | .list _, c => c = '['
  | .object _, c => c = '\x7b'

theorem exists_cons_of_spaced {t : Tree} {s rest : Text} (h : Spaced t.tokens s rest) :
    ∃ c later, skipSpace s = c :: later ∧ t.BeginsWith c := by
  match t with
  | .scalar a =>
    rw [Tree.tokens] at h
    obtain ⟨later, hs, -⟩ := spaced_cons.mp h
    obtain ⟨c, text, htext, hc⟩ := a.exists_cons
    exact ⟨c, text ++ later, by rw [hs, Token.text, htext, List.cons_append], hc⟩
  | .list ts =>
    rw [Tree.tokens] at h
    obtain ⟨later, hs, -⟩ := spaced_cons.mp h
    exact ⟨_, later, hs, rfl⟩
  | .object ms =>
    rw [Tree.tokens] at h
    obtain ⟨later, hs, -⟩ := spaced_cons.mp h
    exact ⟨_, later, hs, rfl⟩

theorem Tree.length_tokens_pos (t : Tree) : 0 < t.tokens.length := by
  cases t <;> simp [tokens]

/-- No tree begins with a space or with a mark that stands between trees. -/
theorem Tree.BeginsWith.notMark {t : Tree} {c : Char} (h : t.BeginsWith c) :
    isSpace c = false ∧ c ≠ ']' ∧ c ≠ ',' := by
  cases t with
  | scalar a =>
    have hscalar : BeginsScalar c := h
    refine ⟨hscalar.not_isSpace, ?_, ?_⟩ <;> rintro rfl <;> exact absurd hscalar (by decide)
  | list ts => obtain rfl := h; decide
  | object ms => obtain rfl := h; decide

end Json

end ImportAlias
