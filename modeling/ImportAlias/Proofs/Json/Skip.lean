import ImportAlias.Json.Skip
import ImportAlias.Proofs.Json.Grammar

/-!
# Skipping follows the grammar

Skipping a value succeeds on exactly what the grammar calls a value, and what it leaves is what
stands behind it: `skipValue_of_spaced` and `exists_tree_of_skipValue`.

Skipping reads one character after another, with a stack of the containers it is inside of, while
the grammar speaks of trees. The two meet in `resume`, which is what is left to skip once a value is
complete. That a tree is skipped is an induction on the tree; that whatever was skipped is a tree is
an induction on the text, as a tree is known only once it was read.
-/

namespace ImportAlias

namespace Json

section Machine

variable {frames : List Frame} {state : Skipping} {c : Char} {s rest : Text}

/-- What is left to skip once a value inside the frames is complete. -/
def resume : List Frame → Text → Except Fault Text
  | [], s => .ok s
  | frames, s => skipFrom .next frames s

theorem resume_cons (frame : Frame) (frames : List Frame) (s : Text) :
    resume (frame :: frames) s = skipFrom .next (frame :: frames) s := rfl

/-! ### One move -/

theorem skipFrom_of_go {state' : Skipping} {frames' : List Frame}
    (h : move frames c state = .go state' frames') :
    skipFrom state frames (c :: s) = skipFrom state' frames' s := by
  rw [skipFrom, h]

theorem skipFrom_of_ended {frames' : List Frame} (h : move frames c state = ended frames') :
    skipFrom state frames (c :: s) = resume frames' s := by
  rw [skipFrom, h]
  cases frames' <;> rfl

theorem skipFrom_of_refuse {cause : Cause} {bytes : Nat}
    (h : move frames c state = .refuse cause bytes) :
    skipFrom state frames (c :: s) = .error ⟨cause, c :: s, bytes⟩ := by
  rw [skipFrom, h]

/-- A state that is kept by spaces passes over them. -/
theorem skipFrom_skipSpace (h : ∀ c, isSpace c = true → move frames c state = .go state frames)
    (s : Text) : skipFrom state frames (skipSpace s) = skipFrom state frames s := by
  induction s with
  | nil => rfl
  | cons c s ih =>
    rw [skipSpace, List.dropWhile_cons]
    split
    · rename_i hc
      rw [skipFrom_of_go (h c hc)]
      exact ih
    · rfl

/-- The states in which a token is due, and spaces may come before it. -/
def Skipping.AwaitsToken : Skipping → Prop
  | .value | .opened | .next | .key | .colon => True
  | _ => False

theorem skip_skipSpace (state : Skipping) (h : state.AwaitsToken) (frames : List Frame)
    (s : Text) : skipFrom state frames (skipSpace s) = skipFrom state frames s := by
  refine skipFrom_skipSpace (fun c hc => ?_) s
  cases state <;> simp_all [Skipping.AwaitsToken, move]

/-! ### Names -/

/-- The letters of a name are skipped. -/
theorem skip_letters {due : List Char} (hdue : due ≠ []) (s : Text) :
    skipFrom (.letters due) frames (due ++ s) = resume frames s := by
  induction due with
  | nil => exact absurd rfl hdue
  | cons letter due ih =>
    cases due with
    | nil => exact skipFrom_of_ended (by simp [move])
    | cons letter' due =>
      have hmove : move frames letter (.letters (letter :: letter' :: due)) =
          .go (.letters (letter' :: due)) frames := by simp [move]
      rw [List.cons_append, skipFrom_of_go hmove]
      exact ih (by simp)

/-- Nothing but the letters of a name is skipped as one. -/
theorem exists_of_skip_letters {due : List Char} (hdue : due ≠ [])
    (h : skipFrom (.letters due) frames s = .ok rest) :
    ∃ later, s = due ++ later ∧ resume frames later = .ok rest := by
  induction due generalizing s with
  | nil => exact absurd rfl hdue
  | cons letter due ih =>
    cases s with
    | nil => simp [skipFrom, atEnd] at h
    | cons c s =>
      by_cases hc : c = letter
      · subst hc
        cases due with
        | nil =>
          rw [skipFrom_of_ended (by rw [move, if_pos rfl])] at h
          exact ⟨s, rfl, h⟩
        | cons letter' due =>
          have hmove : move frames c (.letters (c :: letter' :: due)) =
              .go (.letters (letter' :: due)) frames := by simp [move]
          rw [skipFrom_of_go hmove] at h
          obtain ⟨later, rfl, hlater⟩ := ih (by simp) h
          exact ⟨later, rfl, hlater⟩
      · have hmove : move frames c (.letters (letter :: due)) = .refuse .expectedIdent 1 := by
          cases due <;> simp [move, hc]
        rw [skipFrom_of_refuse hmove] at h
        cases h

/-! ### Numbers -/

/-- The text does not go on with a character that could belong to a number. -/
def Ends (s : Text) : Prop := ∀ c ∈ s.head?, isDigit c = false ∧ c ≠ '.' ∧ c ≠ 'e' ∧ c ≠ 'E'

/-- The parts with which a number may end. -/
def NumberPart.IsFinal (part : NumberPart) : Prop :=
  part = .zero ∨ part = .integer ∨ part = .fraction ∨ part = .exponentDigits

/-- What may follow in a number whose last character belongs to the given part. -/
def IsRemainder : NumberPart → Text → Prop
  | .minus, u => ∃ i f e, IsInteger i ∧ IsFraction f ∧ IsExponent e ∧ u = i ++ (f ++ e)
  | .zero, u => ∃ f e, IsFraction f ∧ IsExponent e ∧ u = f ++ e
  | .integer, u => ∃ ds f e, IsDigits ds ∧ IsFraction f ∧ IsExponent e ∧ u = ds ++ (f ++ e)
  | .point, u => ∃ d ds e, isDigit d = true ∧ IsDigits ds ∧ IsExponent e ∧ u = d :: (ds ++ e)
  | .fraction, u => ∃ ds e, IsDigits ds ∧ IsExponent e ∧ u = ds ++ e
  | .exponent, u =>
    ∃ sign d ds, (sign = [] ∨ sign = ['+'] ∨ sign = ['-']) ∧ isDigit d = true ∧ IsDigits ds ∧
      u = sign ++ d :: ds
  | .exponentSign, u => ∃ d ds, isDigit d = true ∧ IsDigits ds ∧ u = d :: ds
  | .exponentDigits, u => IsDigits u

theorem isDigits_nil : IsDigits [] := by simp [IsDigits]

theorem IsDigits.cons {d : Char} {ds : Text} (hd : isDigit d = true) (hds : IsDigits ds) :
    IsDigits (d :: ds) := by
  simpa [IsDigits, hd] using hds

/-- Nothing may follow a part with which a number may end. -/
theorem isRemainder_nil {part : NumberPart} (h : part.IsFinal) : IsRemainder part [] := by
  rcases h with rfl | rfl | rfl | rfl
  · exact ⟨[], [], .absent, .absent, rfl⟩
  · exact ⟨[], [], [], isDigits_nil, .absent, .absent, rfl⟩
  · exact ⟨[], [], isDigits_nil, .absent, rfl⟩
  · exact isDigits_nil

theorem isExponent_cons {u : Text} (he : c = 'e' ∨ c = 'E') (h : IsRemainder .exponent u) :
    IsExponent (c :: u) := by
  obtain ⟨sign, d, ds, hsign, hd, hds, rfl⟩ := h
  exact .digits he hsign hd hds

theorem exists_fraction_cons {u : Text} (h : IsRemainder .point u) :
    ∃ f e, IsFraction f ∧ IsExponent e ∧ '.' :: u = f ++ e := by
  obtain ⟨d, ds, e, hd, hds, he, rfl⟩ := h
  exact ⟨'.' :: d :: ds, e, .digits hd hds, he, rfl⟩

/-- A character in a number belongs to the next part, follows the number or is refused. -/
theorem move_number_cases (frames : List Frame) (part : NumberPart) (c : Char) :
    (∃ next, move frames c (.number part) = .go (.number next) frames ∧
      ∀ u, IsRemainder next u → IsRemainder part (c :: u)) ∨
    (part.IsFinal ∧ move frames c (.number part) = afterNumber frames c) ∨
    ∃ cause, move frames c (.number part) = .refuse cause 1 := by
  cases part with
  | minus =>
    by_cases h0 : c = '0'
    · refine .inl ⟨.zero, by simp [move, inNumber, h0], ?_⟩
      rintro u ⟨f, e, hf, he, rfl⟩
      exact ⟨['0'], f, e, .zero, hf, he, by rw [h0]; rfl⟩
    by_cases hd : isDigit c = true
    · refine .inl ⟨.integer, by simp [move, inNumber, h0, hd], ?_⟩
      rintro u ⟨ds, f, e, hds, hf, he, rfl⟩
      exact ⟨c :: ds, f, e, .digits hd h0 hds, hf, he, rfl⟩
    · exact .inr (.inr ⟨.invalidNumber, by simp [move, inNumber, h0, hd]⟩)
  | zero =>
    by_cases hd : isDigit c = true
    · exact .inr (.inr ⟨.invalidNumber, by simp [move, inNumber, hd]⟩)
    by_cases hdot : c = '.'
    · subst hdot
      exact .inl ⟨.point, by simp [move, inNumber, hd], fun u h => exists_fraction_cons h⟩
    by_cases he : c = 'e' ∨ c = 'E'
    · exact .inl ⟨.exponent, by simp [move, inNumber, hd, hdot, he], fun u h =>
        ⟨[], c :: u, .absent, isExponent_cons he h, rfl⟩⟩
    · exact .inr (.inl ⟨.inl rfl, by simp [move, inNumber, hd, hdot, he]⟩)
  | integer =>
    by_cases hd : isDigit c = true
    · refine .inl ⟨.integer, by simp [move, inNumber, hd], ?_⟩
      rintro u ⟨ds, f, e, hds, hf, he, rfl⟩
      exact ⟨c :: ds, f, e, hds.cons hd, hf, he, rfl⟩
    by_cases hdot : c = '.'
    · subst hdot
      refine .inl ⟨.point, by simp [move, inNumber, hd], fun u h => ?_⟩
      obtain ⟨f, e, hf, he, hu⟩ := exists_fraction_cons h
      exact ⟨[], f, e, isDigits_nil, hf, he, hu⟩
    by_cases he : c = 'e' ∨ c = 'E'
    · exact .inl ⟨.exponent, by simp [move, inNumber, hd, hdot, he], fun u h =>
        ⟨[], [], c :: u, isDigits_nil, .absent, isExponent_cons he h, rfl⟩⟩
    · exact .inr (.inl ⟨.inr (.inl rfl), by simp [move, inNumber, hd, hdot, he]⟩)
  | point =>
    by_cases hd : isDigit c = true
    · refine .inl ⟨.fraction, by simp [move, inNumber, hd], ?_⟩
      rintro u ⟨ds, e, hds, he, rfl⟩
      exact ⟨c, ds, e, hd, hds, he, rfl⟩
    · exact .inr (.inr ⟨.invalidNumber, by simp [move, inNumber, hd]⟩)
  | fraction =>
    by_cases hd : isDigit c = true
    · refine .inl ⟨.fraction, by simp [move, inNumber, hd], ?_⟩
      rintro u ⟨ds, e, hds, he, rfl⟩
      exact ⟨c :: ds, e, hds.cons hd, he, rfl⟩
    by_cases he : c = 'e' ∨ c = 'E'
    · exact .inl ⟨.exponent, by simp [move, inNumber, hd, he], fun u h =>
        ⟨[], c :: u, isDigits_nil, isExponent_cons he h, rfl⟩⟩
    · exact .inr (.inl ⟨.inr (.inr (.inl rfl)), by simp [move, inNumber, hd, he]⟩)
  | exponent =>
    by_cases hsign : c = '+' ∨ c = '-'
    · refine .inl ⟨.exponentSign, by simp [move, inNumber, hsign], ?_⟩
      rintro u ⟨d, ds, hd, hds, rfl⟩
      exact ⟨[c], d, ds, .inr (by simpa using hsign), hd, hds, rfl⟩
    by_cases hd : isDigit c = true
    · exact .inl ⟨.exponentDigits, by simp [move, inNumber, hsign, hd], fun u h =>
        ⟨[], c, u, .inl rfl, hd, h, rfl⟩⟩
    · exact .inr (.inr ⟨.invalidNumber, by simp [move, inNumber, hsign, hd]⟩)
  | exponentSign =>
    by_cases hd : isDigit c = true
    · exact .inl ⟨.exponentDigits, by simp [move, inNumber, hd], fun u h => ⟨c, u, hd, h, rfl⟩⟩
    · exact .inr (.inr ⟨.invalidNumber, by simp [move, inNumber, hd]⟩)
  | exponentDigits =>
    by_cases hd : isDigit c = true
    · exact .inl ⟨.exponentDigits, by simp [move, inNumber, hd], fun u h => h.cons hd⟩
    · exact .inr (.inl ⟨.inr (.inr (.inr rfl)), by simp [move, inNumber, hd]⟩)

/-- The end of a number is seen from the character after it, which is read like any character
after a value. -/
theorem skip_afterNumber (h : move frames c state = afterNumber frames c) :
    skipFrom state frames (c :: s) = resume frames (c :: s) := by
  rw [skipFrom, h]
  cases frames with
  | nil => rfl
  | cons frame frames =>
    rw [resume_cons, skipFrom, move]
    by_cases hc : isSpace c = true
    · simp [afterNumber, hc]
    · simp [afterNumber, hc]

theorem skip_number_nil {part : NumberPart} (h : part.IsFinal) :
    skipFrom (.number part) frames [] = resume frames [] := by
  cases frames <;> rcases h with rfl | rfl | rfl | rfl <;> simp [skipFrom, atEnd, resume]

/-- **Only numbers are skipped as numbers.** -/
theorem exists_remainder_of_skip {part : NumberPart}
    (h : skipFrom (.number part) frames s = .ok rest) :
    ∃ u later, s = u ++ later ∧ IsRemainder part u ∧ resume frames later = .ok rest := by
  induction s generalizing part with
  | nil =>
    by_cases hfinal : part.IsFinal
    · rw [skip_number_nil hfinal] at h
      exact ⟨[], [], rfl, isRemainder_nil hfinal, h⟩
    · cases part <;> simp [NumberPart.IsFinal] at hfinal <;> simp [skipFrom, atEnd] at h
  | cons c s ih =>
    rcases move_number_cases frames part c with
      ⟨next, hmove, hnext⟩ | ⟨hfinal, hmove⟩ | ⟨cause, hmove⟩
    · rw [skipFrom_of_go hmove] at h
      obtain ⟨u, later, rfl, hu, hlater⟩ := ih h
      exact ⟨c :: u, later, rfl, hnext u hu, hlater⟩
    · rw [skip_afterNumber hmove] at h
      exact ⟨[], c :: s, rfl, isRemainder_nil hfinal, h⟩
    · rw [skipFrom_of_refuse hmove] at h
      cases h

/-- Digits are skipped where digits may stand. -/
theorem skip_digits {part : NumberPart} (hpart : part = .integer ∨ part = .fraction ∨
    part = .exponentDigits) {ds : Text} (hds : IsDigits ds) (s : Text) :
    skipFrom (.number part) frames (ds ++ s) = skipFrom (.number part) frames s := by
  induction ds with
  | nil => rfl
  | cons d ds ih =>
    have hd : isDigit d = true := hds d (by simp)
    have hmove : move frames d (.number part) = .go (.number part) frames := by
      rcases hpart with rfl | rfl | rfl <;> simp [move, inNumber, hd]
    rw [List.cons_append, skipFrom_of_go hmove]
    exact ih fun c hc => hds c (by simp [hc])

theorem skip_ends {part : NumberPart} (hpart : part.IsFinal) (hs : Ends s) :
    skipFrom (.number part) frames s = resume frames s := by
  cases s with
  | nil => exact skip_number_nil hpart
  | cons c s =>
    obtain ⟨hd, hdot, he, hE⟩ := hs c rfl
    refine skip_afterNumber ?_
    rcases hpart with rfl | rfl | rfl | rfl <;> simp [move, inNumber, hd, hdot, he, hE]

theorem skip_exponent {part : NumberPart}
    (hpart : part = .zero ∨ part = .integer ∨ part = .fraction) {e : Text} (he : IsExponent e)
    (hs : Ends s) : skipFrom (.number part) frames (e ++ s) = resume frames s := by
  cases he with
  | absent =>
    refine skip_ends ?_ hs
    rcases hpart with rfl | rfl | rfl <;> simp [NumberPart.IsFinal]
  | @digits e sign d ds he hsign hd hds =>
    -- The digits are the same whether a sign was read or not.
    have hdigits : ∀ part', part' = .exponent ∨ part' = .exponentSign →
        skipFrom (.number part') frames (d :: (ds ++ s)) = resume frames s := by
      intro part' hpart'
      have hsigns : d ≠ '+' ∧ d ≠ '-' := by
        constructor <;> rintro rfl <;> exact absurd hd (by decide)
      have hmove : move frames d (.number part') = .go (.number .exponentDigits) frames := by
        rcases hpart' with rfl | rfl <;> simp [move, inNumber, hd, hsigns]
      rw [skipFrom_of_go hmove, skip_digits (by simp) hds,
        skip_ends (by simp [NumberPart.IsFinal]) hs]
    have hletter : isDigit e = false ∧ e ≠ '.' := by
      rcases he with rfl | rfl <;> decide
    have hfirst : skipFrom (.number part) frames (e :: (sign ++ d :: ds ++ s)) =
        skipFrom (.number .exponent) frames (sign ++ d :: ds ++ s) := by
      refine skipFrom_of_go ?_
      rcases hpart with rfl | rfl | rfl <;> simp [move, inNumber, hletter, he]
    rw [List.cons_append, hfirst]
    rcases hsign with rfl | rfl | rfl
    · exact hdigits .exponent (.inl rfl)
    · rw [List.append_assoc, List.singleton_append, skipFrom_of_go (by rfl)]
      exact hdigits .exponentSign (.inr rfl)
    · rw [List.append_assoc, List.singleton_append, skipFrom_of_go (by rfl)]
      exact hdigits .exponentSign (.inr rfl)

theorem skip_fraction {part : NumberPart} (hpart : part = .zero ∨ part = .integer) {f e : Text}
    (hf : IsFraction f) (he : IsExponent e) (hs : Ends s) :
    skipFrom (.number part) frames (f ++ (e ++ s)) = resume frames s := by
  cases hf with
  | absent => exact skip_exponent (hpart.imp_right .inl) he hs
  | @digits d ds hd hds =>
    have hpoint : skipFrom (.number part) frames ('.' :: (d :: ds ++ (e ++ s))) =
        skipFrom (.number .point) frames (d :: ds ++ (e ++ s)) := by
      refine skipFrom_of_go ?_
      rcases hpart with rfl | rfl <;> rfl
    have hmove : move frames d (.number .point) = .go (.number .fraction) frames := by
      simp [move, inNumber, hd]
    rw [List.cons_append, hpoint, List.cons_append, skipFrom_of_go hmove, skip_digits (by simp) hds]
    exact skip_exponent (by simp) he hs

theorem skip_integer {i f e : Text} (hi : IsInteger i) (hf : IsFraction f) (he : IsExponent e)
    (hs : Ends s) :
    skipFrom (.number .minus) frames (i ++ (f ++ (e ++ s))) = resume frames s := by
  cases hi with
  | zero =>
    rw [List.singleton_append, skipFrom_of_go (by rfl)]
    exact skip_fraction (.inl rfl) hf he hs
  | @digits d ds hd h0 hds =>
    have hmove : move frames d (.number .minus) = .go (.number .integer) frames := by
      simp [move, inNumber, hd, h0]
    rw [List.cons_append, skipFrom_of_go hmove, skip_digits (by simp) hds]
    exact skip_fraction (.inr rfl) hf he hs

/-- A digit begins a number as if a sign stood before it. -/
theorem skip_value_digit (hd : isDigit c = true) :
    skipFrom .value frames (c :: s) = skipFrom (.number .minus) frames (c :: s) := by
  have hspace : isSpace c = false :=
    BeginsScalar.not_isSpace (.inr (.inr (.inr (.inr (.inr hd)))))
  have hletters : c ≠ 'n' ∧ c ≠ 't' ∧ c ≠ 'f' ∧ c ≠ '-' := by
    refine ⟨?_, ?_, ?_, ?_⟩ <;> rintro rfl <;> exact absurd hd (by decide)
  have hmove : move frames c .value = move frames c (.number .minus) := by
    by_cases h0 : c = '0'
    · subst h0
      rfl
    · simp [move, beginValue, inNumber, hspace, hletters, hd, h0]
  rw [skipFrom, skipFrom, hmove]

/-- **Every number is skipped as one.** -/
theorem skip_numeral (n : Numeral) (hs : Ends s) :
    skipFrom .value frames (n.text ++ s) = resume frames s := by
  obtain ⟨sign, i, f, e, hsign, hi, hf, he, h⟩ := n.isNumeral
  have hnumber : skipFrom (.number .minus) frames (i ++ (f ++ (e ++ s))) = resume frames s :=
    skip_integer hi hf he hs
  rw [h]
  obtain rfl | rfl := hsign
  · obtain ⟨c, i', rfl, hc⟩ : ∃ c i', i = c :: i' ∧ isDigit c = true := by
      cases hi with
      | zero => exact ⟨_, _, rfl, rfl⟩
      | digits hd h0 hds => exact ⟨_, _, rfl, hd⟩
    simp only [List.nil_append, List.cons_append, List.append_assoc] at hnumber ⊢
    rw [skip_value_digit hc, hnumber]
  · simp only [List.cons_append, List.nil_append, List.append_assoc] at hnumber ⊢
    rw [skipFrom_of_go (by rfl)]
    exact hnumber

/-! ### Strings -/

/-- What is left to skip behind a string, which is a key or a value. -/
def afterString (isKey : Bool) (frames : List Frame) (s : Text) : Except Fault Text :=
  if isKey then skipFrom .colon frames s else resume frames s

theorem skip_quote (isKey : Bool) :
    skipFrom (.string isKey) frames ('"' :: s) = afterString isKey frames s := by
  cases isKey with
  | true => exact skipFrom_of_go rfl
  | false => exact skipFrom_of_ended rfl

/-- One digit of an escaped code. -/
theorem skip_digit_of_code (isKey valid : Bool) {left : Nat} (hd : (Text.hexValue? c).isSome)
    (hleft : 1 < left) :
    skipFrom (.code isKey left valid) frames (c :: s) =
      skipFrom (.code isKey (left - 1) valid) frames s := by
  refine skipFrom_of_go ?_
  simp [move, hd, utf8Size_of_hexValue? hd, hleft]

theorem skip_last_digit_of_code (isKey : Bool) (hd : (Text.hexValue? c).isSome) :
    skipFrom (.code isKey 1 true) frames (c :: s) = skipFrom (.string isKey) frames s := by
  refine skipFrom_of_go ?_
  simp [move, hd, utf8Size_of_hexValue? hd]

theorem skip_glyph (isKey : Bool) (g : Glyph) (s : Text) :
    skipFrom (.string isKey) frames (g.text ++ s) = skipFrom (.string isKey) frames s := by
  cases g with
  | plain c h =>
    obtain ⟨hcontrol, hquote, hbackslash⟩ := h
    refine skipFrom_of_go ?_
    simp [move, hquote, hbackslash, Nat.not_lt.mpr hcontrol]
  | escape letter h =>
    rw [Glyph.text, List.cons_append, skipFrom_of_go (by rfl), List.singleton_append]
    refine skipFrom_of_go ?_
    have hu : letter ≠ 'u' := by rintro rfl; exact absurd h (by decide)
    simp [move, hu, isSome_simpleEscape.mpr h]
  | code d₁ d₂ d₃ d₄ h =>
    simp only [List.forall_mem_cons] at h
    obtain ⟨h₁, h₂, h₃, h₄, -⟩ := h
    simp only [Glyph.text, List.cons_append, List.nil_append]
    rw [skipFrom_of_go (by rfl), skipFrom_of_go (by rfl),
      skip_digit_of_code isKey true h₁ (by decide), skip_digit_of_code isKey true h₂ (by decide),
      skip_digit_of_code isKey true h₃ (by decide), skip_last_digit_of_code isKey h₄]

/-- **Every string is skipped as one.** -/
theorem skip_glyphs (isKey : Bool) (glyphs : List Glyph) (s : Text) :
    skipFrom (.string isKey) frames (closedText glyphs ++ s) = afterString isKey frames s := by
  induction glyphs with
  | nil => exact skip_quote isKey
  | cons g glyphs ih =>
    rw [closedText_cons, List.append_assoc, skip_glyph]
    exact ih

/-- A code with a character that is no digit is refused in the end. -/
theorem skip_invalid_code (isKey : Bool) (left : Nat) :
    skipFrom (.code isKey left false) frames s ≠ .ok rest := by
  induction s generalizing left with
  | nil => simp [skipFrom, atEnd]
  | cons c s ih =>
    by_cases hleft : c.utf8Size < left
    · have hmove : move frames c (.code isKey left false) =
          .go (.code isKey (left - c.utf8Size) false) frames := by simp [move, hleft]
      rw [skipFrom_of_go hmove]
      exact ih _
    · have hmove : move frames c (.code isKey left false) = .refuse .invalidEscape left := by
        simp [move, hleft]
      rw [skipFrom_of_refuse hmove]
      simp

theorem exists_digit_of_skip {isKey : Bool} {left : Nat}
    (h : skipFrom (.code isKey left true) frames s = .ok rest) :
    ∃ d later, s = d :: later ∧ (Text.hexValue? d).isSome := by
  cases s with
  | nil => simp [skipFrom, atEnd] at h
  | cons c s =>
    refine ⟨c, s, rfl, ?_⟩
    by_contra hd
    rw [Bool.not_eq_true] at hd
    -- From here on the code is invalid, which shows only once all of its bytes are read.
    have hmove :
        move frames c (.code isKey left true) = move frames c (.code isKey left false) := by
      simp [move, hd]
    have hinvalid : skipFrom (.code isKey left true) frames (c :: s) =
        skipFrom (.code isKey left false) frames (c :: s) := by
      rw [skipFrom, skipFrom, hmove]
    exact skip_invalid_code isKey left (hinvalid.symm.trans h)

/-- The digits of an escaped code are skipped as such. -/
theorem exists_code_of_skip {isKey : Bool}
    (h : skipFrom (.code isKey 4 true) frames s = .ok rest) :
    ∃ d₁ d₂ d₃ d₄ later, s = d₁ :: d₂ :: d₃ :: d₄ :: later ∧
      (∀ d ∈ [d₁, d₂, d₃, d₄], (Text.hexValue? d).isSome) ∧
      skipFrom (.string isKey) frames later = .ok rest := by
  obtain ⟨d₁, s₁, rfl, h₁⟩ := exists_digit_of_skip h
  rw [skip_digit_of_code isKey true h₁ (by decide)] at h
  obtain ⟨d₂, s₂, rfl, h₂⟩ := exists_digit_of_skip h
  rw [skip_digit_of_code isKey true h₂ (by decide)] at h
  obtain ⟨d₃, s₃, rfl, h₃⟩ := exists_digit_of_skip h
  rw [skip_digit_of_code isKey true h₃ (by decide)] at h
  obtain ⟨d₄, s₄, rfl, h₄⟩ := exists_digit_of_skip h
  rw [skip_last_digit_of_code isKey h₄] at h
  exact ⟨d₁, d₂, d₃, d₄, s₄, rfl, by simp [h₁, h₂, h₃, h₄], h⟩

/-- What is skipped behind a backslash makes an escape. -/
theorem exists_escape_of_skip {isKey : Bool} (h : skipFrom (.escape isKey) frames s = .ok rest) :
    ∃ (g : Glyph) (later : Text), '\\' :: s = g.text ++ later ∧
      skipFrom (.string isKey) frames later = .ok rest := by
  cases s with
  | nil => simp [skipFrom, atEnd] at h
  | cons letter s =>
    by_cases hu : letter = 'u'
    · subst hu
      rw [skipFrom_of_go (by rfl)] at h
      obtain ⟨d₁, d₂, d₃, d₄, later, rfl, hcode, hlater⟩ := exists_code_of_skip h
      exact ⟨.code d₁ d₂ d₃ d₄ hcode, later, rfl, hlater⟩
    by_cases hletter : (simpleEscape letter).isSome
    · have hmove : move frames letter (.escape isKey) = .go (.string isKey) frames := by
        simp [move, hu, hletter]
      rw [skipFrom_of_go hmove] at h
      exact ⟨.escape letter (isSome_simpleEscape.mp hletter), s, rfl, h⟩
    · have hmove : move frames letter (.escape isKey) = .refuse .invalidEscape 1 := by
        simp [move, hu, hletter]
      rw [skipFrom_of_refuse hmove] at h
      cases h

/-- What is skipped of a string is the end of it or a glyph. -/
theorem cases_of_skip_string {isKey : Bool} (h : skipFrom (.string isKey) frames s = .ok rest) :
    (∃ later, s = '"' :: later ∧ afterString isKey frames later = .ok rest) ∨
    ∃ (g : Glyph) (later : Text), s = g.text ++ later ∧
      skipFrom (.string isKey) frames later = .ok rest := by
  cases s with
  | nil => simp [skipFrom, atEnd] at h
  | cons c s =>
    by_cases hquote : c = '"'
    · subst hquote
      rw [skip_quote] at h
      exact .inl ⟨s, rfl, h⟩
    refine .inr ?_
    by_cases hbackslash : c = '\\'
    · subst hbackslash
      rw [skipFrom_of_go (by rfl)] at h
      exact exists_escape_of_skip h
    by_cases hcontrol : c.toNat < 0x20
    · have hmove : move frames c (.string isKey) = .refuse .controlCharacter 0 := by
        simp [move, hquote, hbackslash, hcontrol]
      rw [skipFrom_of_refuse hmove] at h
      cases h
    · have hmove : move frames c (.string isKey) = .go (.string isKey) frames := by
        simp [move, hquote, hbackslash, hcontrol]
      rw [skipFrom_of_go hmove] at h
      exact ⟨.plain c ⟨Nat.not_lt.mp hcontrol, hquote, hbackslash⟩, s, rfl, h⟩

/-- **Only strings are skipped as strings.** The induction is on the length of the text, of which a
glyph is taken off at a time. -/
theorem exists_glyphs_of_skip {isKey : Bool} (h : skipFrom (.string isKey) frames s = .ok rest) :
    ∃ glyphs later, s = closedText glyphs ++ later ∧
      afterString isKey frames later = .ok rest := by
  induction hlength : s.length using Nat.strong_induction_on generalizing s with
  | _ n ih =>
    obtain ⟨later, rfl, hlater⟩ | ⟨g, later, rfl, hlater⟩ := cases_of_skip_string h
    · exact ⟨[], later, rfl, hlater⟩
    · have hpos : 0 < g.text.length := by cases g <;> simp [Glyph.text]
      rw [List.length_append] at hlength
      obtain ⟨glyphs, later', rfl, hrest⟩ := ih later.length (by omega) hlater rfl
      exact ⟨g :: glyphs, later', by rw [closedText_cons, List.append_assoc], hrest⟩

/-! ### Scalars -/

/-- **Every scalar is skipped.** -/
theorem skip_scalar (a : Scalar) (hs : Ends s) :
    skipFrom .value frames (a.text ++ s) = resume frames s := by
  match a with
  | .null => exact (skipFrom_of_go rfl).trans (skip_letters (by simp) s)
  | .boolean true => exact (skipFrom_of_go rfl).trans (skip_letters (by simp) s)
  | .boolean false => exact (skipFrom_of_go rfl).trans (skip_letters (by simp) s)
  | .number n => exact skip_numeral n hs
  | .string glyphs => exact (skipFrom_of_go rfl).trans (skip_glyphs false glyphs s)

/-- **What is skipped and opens no container is a scalar.** -/
theorem exists_scalar_of_skip (hspace : isSpace c = false) (hlist : c ≠ '[') (hobject : c ≠ '\x7b')
    (h : skipFrom .value frames (c :: s) = .ok rest) :
    ∃ (a : Scalar) (later : Text), c :: s = a.text ++ later ∧ resume frames later = .ok rest := by
  by_cases hn : c = 'n'
  · subst hn
    rw [skipFrom_of_go (by rfl)] at h
    obtain ⟨later, rfl, hlater⟩ := exists_of_skip_letters (by simp) h
    exact ⟨.null, later, rfl, hlater⟩
  by_cases ht : c = 't'
  · subst ht
    rw [skipFrom_of_go (by rfl)] at h
    obtain ⟨later, rfl, hlater⟩ := exists_of_skip_letters (by simp) h
    exact ⟨.boolean true, later, rfl, hlater⟩
  by_cases hf : c = 'f'
  · subst hf
    rw [skipFrom_of_go (by rfl)] at h
    obtain ⟨later, rfl, hlater⟩ := exists_of_skip_letters (by simp) h
    exact ⟨.boolean false, later, rfl, hlater⟩
  by_cases hquote : c = '"'
  · subst hquote
    rw [skipFrom_of_go (by rfl)] at h
    obtain ⟨glyphs, later, rfl, hlater⟩ := exists_glyphs_of_skip h
    exact ⟨.string glyphs, later, rfl, hlater⟩
  by_cases hminus : c = '-'
  · subst hminus
    rw [skipFrom_of_go (by rfl)] at h
    obtain ⟨u, later, rfl, ⟨i, f, e, hi, hf, he, rfl⟩, hlater⟩ := exists_remainder_of_skip h
    exact ⟨.number ⟨_, ['-'], i, f, e, .inr rfl, hi, hf, he, rfl⟩, later, rfl, hlater⟩
  by_cases hd : isDigit c = true
  · rw [skip_value_digit hd] at h
    obtain ⟨u, later, hu, ⟨i, f, e, hi, hf, he, rfl⟩, hlater⟩ := exists_remainder_of_skip h
    exact ⟨.number ⟨_, [], i, f, e, .inl rfl, hi, hf, he, rfl⟩, later, hu, hlater⟩
  · have h0 : c ≠ '0' := by rintro rfl; exact hd rfl
    have hmove : move frames c .value = .refuse .expectedValue 1 := by
      simp [move, beginValue, hspace, hn, ht, hf, hminus, h0, hd, hquote, hlist, hobject]
    rw [skipFrom_of_refuse hmove] at h
    cases h

/-! ### Containers -/

theorem ends_of_isSpace (hc : isSpace c = true) : Ends (c :: s) := by
  intro c' hc'
  obtain rfl : c = c' := Option.some.inj hc'
  rcases isSpace_iff.mp hc with rfl | rfl | rfl | rfl <;> decide

/-- Spaces do not continue a number. -/
theorem ends_of_spaces (h : Spaces s) : Ends s := by
  cases s with
  | nil => exact fun c hc => by cases hc
  | cons c s => exact ends_of_isSpace (h c (by simp))

/-- What begins with a space or with a mark other than a point does not continue a number. -/
theorem ends_of_spaced {t : Token} {ts : List Token} (ht : ∀ a, t ≠ .scalar a)
    (h : Spaced (t :: ts) s rest) : Ends s := by
  obtain ⟨gap, later, hgap, rfl, -⟩ := h
  cases gap with
  | cons c gap => exact ends_of_isSpace (hgap c (by simp))
  | nil =>
    intro c hc
    cases t <;> simp_all [Token.text] <;> subst hc <;> decide

theorem ends_elements {ts : List Tree} (h : Spaced (elementTokens false ts) s rest) : Ends s := by
  cases ts with
  | nil => exact ends_of_spaced (by simp) h
  | cons t ts => exact ends_of_spaced (by simp) h

theorem ends_members {ms : List (List Glyph × Tree)} (h : Spaced (memberTokens false ms) s rest) :
    Ends s := by
  cases ms with
  | nil => exact ends_of_spaced (by simp) h
  | cons m ms => exact ends_of_spaced (by simp) h

/-- The tree is skipped as a value, inside any containers. -/
def IsSkipped (t : Tree) : Prop :=
  ∀ ⦃frames s rest⦄, Spaced t.tokens s rest → Ends rest →
    skipFrom .value frames s = resume frames rest

/-- The state before an element or a member, which may be the first of its container. -/
def Skipping.before : (first : Bool) → Skipping
  | true => .opened
  | false => .next

theorem Skipping.awaitsToken_before (first : Bool) : (before first).AwaitsToken := by
  cases first <;> trivial

theorem skip_closeList {first : Bool} (h : Spaced [.closeList] s rest) :
    skipFrom (.before first) (.list :: frames) s = resume frames rest := by
  obtain ⟨later, hs, rfl⟩ := spaced_cons.mp h
  rw [← skip_skipSpace _ (Skipping.awaitsToken_before first), hs]
  exact skipFrom_of_ended (by cases first <;> rfl)

theorem skip_closeObject {first : Bool} (h : Spaced [.closeObject] s rest) :
    skipFrom (.before first) (.object :: frames) s = resume frames rest := by
  obtain ⟨later, hs, rfl⟩ := spaced_cons.mp h
  rw [← skip_skipSpace _ (Skipping.awaitsToken_before first), hs]
  exact skipFrom_of_ended (by cases first <;> rfl)

/-- In a list that goes on with a value, a value is due. -/
theorem skip_before_element {first : Bool} {t : Tree} {later : Text}
    (h : Spaced (separator first) s later) (ht : Spaced t.tokens later rest) :
    skipFrom (.before first) (.list :: frames) s = skipFrom .value (.list :: frames) later := by
  cases first with
  | false =>
    obtain ⟨later, hs, rfl⟩ := spaced_cons.mp h
    rw [← skip_skipSpace _ (Skipping.awaitsToken_before false), hs]
    exact skipFrom_of_go rfl
  | true =>
    obtain rfl : s = later := h
    obtain ⟨c, later, hs, hc⟩ := exists_cons_of_spaced ht
    obtain ⟨hspace, hclose, -⟩ := hc.notMark
    have hmove : move (.list :: frames) c .opened = move (.list :: frames) c .value := by
      simp [move, hspace, afterOpening, hclose]
    rw [← skip_skipSpace _ (Skipping.awaitsToken_before true), ← skip_skipSpace .value trivial, hs,
      Skipping.before, skipFrom, skipFrom, hmove]

/-- In an object that goes on with a key, a key is due. -/
theorem skip_before_member {first : Bool} {key : List Glyph} {later : Text}
    (h : Spaced (separator first) s later)
    (hkey : Spaced [.scalar (.string key), .colon] later rest) :
    skipFrom (.before first) (.object :: frames) s = skipFrom .key (.object :: frames) later := by
  cases first with
  | false =>
    obtain ⟨later, hs, rfl⟩ := spaced_cons.mp h
    rw [← skip_skipSpace _ (Skipping.awaitsToken_before false), hs]
    exact skipFrom_of_go rfl
  | true =>
    obtain rfl : s = later := h
    obtain ⟨later, hs, -⟩ := spaced_cons.mp hkey
    rw [← skip_skipSpace _ (Skipping.awaitsToken_before true), ← skip_skipSpace .key trivial, hs]
    rfl

/-- A key and its colon lead to the value of the member. -/
theorem skip_key {glyphs : List Glyph} (h : Spaced [.scalar (.string glyphs), .colon] s rest) :
    skipFrom .key frames s = skipFrom .value frames rest := by
  obtain ⟨later, hs, hcolon⟩ := spaced_cons.mp h
  obtain ⟨later', hs', rfl⟩ := spaced_cons.mp hcolon
  rw [← skip_skipSpace .key trivial, hs, Token.text, Scalar.text, List.cons_append,
    skipFrom_of_go (by rfl), skip_glyphs, afterString, if_pos rfl,
    ← skip_skipSpace .colon trivial, hs']
  exact skipFrom_of_go rfl

theorem skip_elements {ts : List Tree} (hts : ∀ t ∈ ts, IsSkipped t) {first : Bool}
    (h : Spaced (elementTokens first ts) s rest) :
    skipFrom (.before first) (.list :: frames) s = resume frames rest := by
  induction ts generalizing first s with
  | nil => exact skip_closeList h
  | cons t ts ih =>
    rw [elementTokens] at h
    obtain ⟨later, hseparator, hlater⟩ := begins_append.mp h
    obtain ⟨later', ht, hmore⟩ := begins_append.mp hlater
    rw [skip_before_element hseparator ht, hts t (by simp) ht (ends_elements hmore)]
    exact ih (fun t' ht' => hts t' (by simp [ht'])) hmore

theorem skip_members {ms : List (List Glyph × Tree)} (hms : ∀ m ∈ ms, IsSkipped m.2)
    {first : Bool} (h : Spaced (memberTokens first ms) s rest) :
    skipFrom (.before first) (.object :: frames) s = resume frames rest := by
  induction ms generalizing first s with
  | nil => exact skip_closeObject h
  | cons m ms ih =>
    obtain ⟨key, t⟩ := m
    rw [memberTokens] at h
    obtain ⟨later, hseparator, hlater⟩ := begins_append.mp h
    obtain ⟨value, hkey, hvalue⟩ := begins_append.mp hlater
    obtain ⟨later', ht, hmore⟩ := begins_append.mp hvalue
    rw [skip_before_member hseparator hkey, skip_key hkey,
      hms (key, t) (by simp) ht (ends_members hmore)]
    exact ih (fun m' hm' => hms m' (by simp [hm'])) hmore

/-- **Every value is skipped.** -/
theorem isSkipped (t : Tree) : IsSkipped t := by
  induction t using Tree.induct with
  | scalar a =>
    intro frames s rest h hrest
    rw [Tree.tokens] at h
    obtain ⟨later, hs, rfl⟩ := spaced_cons.mp h
    rw [← skip_skipSpace .value trivial, hs]
    exact skip_scalar a hrest
  | list ts ih =>
    intro frames s rest h hrest
    rw [Tree.tokens] at h
    obtain ⟨later, hs, hlater⟩ := spaced_cons.mp h
    rw [← skip_skipSpace .value trivial, hs]
    exact (skipFrom_of_go rfl).trans (skip_elements ih hlater)
  | object ms ih =>
    intro frames s rest h hrest
    rw [Tree.tokens] at h
    obtain ⟨later, hs, hlater⟩ := spaced_cons.mp h
    rw [← skip_skipSpace .value trivial, hs]
    exact (skipFrom_of_go rfl).trans (skip_members ih hlater)

/-! ### Nothing but values is skipped -/

/-- Where a token is due, the text goes on with a character that is no space. -/
theorem exists_cons_of_skip (h : skipFrom state frames s = .ok rest)
    (hstate : state.AwaitsToken) :
    ∃ c later, skipSpace s = c :: later ∧ isSpace c = false ∧ later.length < s.length ∧
      skipFrom state frames (c :: later) = .ok rest := by
  rw [← skip_skipSpace state hstate] at h
  cases hs : skipSpace s with
  | nil =>
    rw [hs] at h
    cases state <;> simp_all [Skipping.AwaitsToken, skipFrom, atEnd]
  | cons c later =>
    have hlength : (c :: later).length ≤ s.length := by
      rw [← hs]
      exact (List.dropWhile_sublist _).length_le
    refine ⟨c, later, rfl, ?_, hlength, hs ▸ h⟩
    have hhead := List.head?_dropWhile_not isSpace s
    rw [← skipSpace, hs] at hhead
    simpa using hhead

/-- What is skipped as a value of a text shorter than `n` is a tree. -/
def SkipsTrees (n : Nat) : Prop :=
  ∀ ⦃frames s rest⦄, s.length < n → skipFrom .value frames s = .ok rest →
    ∃ (t : Tree) (later : Text), Spaced t.tokens s later ∧ resume frames later = .ok rest

/-- A list that does not end goes on with a value, behind a comma unless it is the first. -/
theorem exists_before_element {first : Bool} {later : Text} (hs : skipSpace s = c :: later)
    (hspace : isSpace c = false) (hclose : c ≠ ']')
    (h : skipFrom (.before first) (.list :: frames) (c :: later) = .ok rest) :
    ∃ later', Spaced (separator first) s later' ∧
      skipFrom .value (.list :: frames) later' = .ok rest := by
  cases first with
  | true =>
    have hmove : move (.list :: frames) c .opened = move (.list :: frames) c .value := by
      simp [move, hspace, afterOpening, hclose]
    refine ⟨s, rfl, ?_⟩
    rw [← skip_skipSpace .value trivial, hs, ← h, Skipping.before, skipFrom, skipFrom, hmove]
  | false =>
    by_cases hcomma : c = ','
    · subst hcomma
      exact ⟨later, spaced_cons.mpr ⟨later, hs, rfl⟩, h⟩
    · have hmove : move (.list :: frames) c .next = .refuse .expectedListCommaOrEnd 1 := by
        simp [move, hspace, afterValue, hcomma, hclose]
      rw [Skipping.before, skipFrom_of_refuse hmove] at h
      cases h

/-- An object that does not end goes on with a key, behind a comma unless it is the first. -/
theorem exists_before_member {first : Bool} {later : Text} (hs : skipSpace s = c :: later)
    (hspace : isSpace c = false) (hclose : c ≠ '\x7d')
    (h : skipFrom (.before first) (.object :: frames) (c :: later) = .ok rest) :
    ∃ later', Spaced (separator first) s later' ∧
      skipFrom .key (.object :: frames) later' = .ok rest := by
  cases first with
  | true =>
    have hmove : move (.object :: frames) c .opened = move (.object :: frames) c .key := by
      simp [move, hspace, afterOpening, hclose]
    refine ⟨s, rfl, ?_⟩
    rw [← skip_skipSpace .key trivial, hs, ← h, Skipping.before, skipFrom, skipFrom, hmove]
  | false =>
    by_cases hcomma : c = ','
    · subst hcomma
      exact ⟨later, spaced_cons.mpr ⟨later, hs, rfl⟩, h⟩
    · have hmove : move (.object :: frames) c .next = .refuse .expectedObjectCommaOrEnd 1 := by
        simp [move, hspace, afterValue, hcomma, hclose]
      rw [Skipping.before, skipFrom_of_refuse hmove] at h
      cases h

theorem exists_key_of_skip (h : skipFrom .key frames s = .ok rest) :
    ∃ glyphs later, Spaced [.scalar (.string glyphs), .colon] s later ∧
      skipFrom .value frames later = .ok rest := by
  obtain ⟨c, later, hs, hspace, -, hskip⟩ := exists_cons_of_skip h trivial
  by_cases hquote : c = '"'
  · subst hquote
    rw [skipFrom_of_go (by rfl)] at hskip
    obtain ⟨glyphs, later', rfl, hcolon⟩ := exists_glyphs_of_skip hskip
    obtain ⟨c, later'', hs', hspace', -, hskip'⟩ := exists_cons_of_skip hcolon trivial
    by_cases hc : c = ':'
    · subst hc
      rw [skipFrom_of_go (by rfl)] at hskip'
      exact ⟨glyphs, later'', spaced_cons.mpr ⟨later', hs, spaced_cons.mpr ⟨later'', hs', rfl⟩⟩,
        hskip'⟩
    · have hmove : move frames c .colon = .refuse .expectedColon 1 := by
        simp [move, hspace', hc]
      rw [skipFrom_of_refuse hmove] at hskip'
      cases hskip'
  · have hmove : move frames c .key = .refuse .keyNotString 1 := by
      simp [move, hspace, beginKey, hquote]
    rw [skipFrom_of_refuse hmove] at hskip
    cases hskip

theorem exists_elements {n : Nat} (htrees : SkipsTrees n) (hn : s.length < n) {first : Bool}
    (h : skipFrom (.before first) (.list :: frames) s = .ok rest) :
    ∃ ts later, Spaced (elementTokens first ts) s later ∧ resume frames later = .ok rest := by
  induction hlength : s.length using Nat.strong_induction_on generalizing s first with
  | _ k ih =>
    obtain ⟨c, later, hs, hspace, -, hskip⟩ :=
      exists_cons_of_skip h (Skipping.awaitsToken_before first)
    by_cases hclose : c = ']'
    · subst hclose
      have hend : Spaced (elementTokens first []) s later := spaced_cons.mpr ⟨later, hs, rfl⟩
      exact ⟨[], later, hend, (skip_closeList hend).symm.trans h⟩
    · obtain ⟨later', hseparator, hvalue⟩ := exists_before_element hs hspace hclose hskip
      have hlater' := length_add_le_of_begins hseparator
      obtain ⟨t, later'', ht, hnext⟩ := htrees (by omega) hvalue
      have hlater'' := length_add_le_of_begins ht
      have hpos := t.length_tokens_pos
      have hmore : skipFrom (.before false) (.list :: frames) later'' = .ok rest := hnext
      obtain ⟨ts, end', hts, hrest⟩ := ih later''.length (by omega) (by omega) hmore rfl
      refine ⟨t :: ts, end', ?_, hrest⟩
      rw [elementTokens]
      exact begins_append.mpr ⟨later', hseparator, begins_append.mpr ⟨later'', ht, hts⟩⟩

theorem exists_members {n : Nat} (htrees : SkipsTrees n) (hn : s.length < n) {first : Bool}
    (h : skipFrom (.before first) (.object :: frames) s = .ok rest) :
    ∃ ms later, Spaced (memberTokens first ms) s later ∧ resume frames later = .ok rest := by
  induction hlength : s.length using Nat.strong_induction_on generalizing s first with
  | _ k ih =>
    obtain ⟨c, later, hs, hspace, -, hskip⟩ :=
      exists_cons_of_skip h (Skipping.awaitsToken_before first)
    by_cases hclose : c = '\x7d'
    · subst hclose
      have hend : Spaced (memberTokens first []) s later := spaced_cons.mpr ⟨later, hs, rfl⟩
      exact ⟨[], later, hend, (skip_closeObject hend).symm.trans h⟩
    · obtain ⟨later', hseparator, hkey⟩ := exists_before_member hs hspace hclose hskip
      have hlater' := length_add_le_of_begins hseparator
      obtain ⟨key, value, hkey, hvalue⟩ := exists_key_of_skip hkey
      have hkey' := length_add_le_of_begins hkey
      obtain ⟨t, later'', ht, hnext⟩ := htrees (by omega) hvalue
      have hlater'' := length_add_le_of_begins ht
      have hpos := t.length_tokens_pos
      have hmore : skipFrom (.before false) (.object :: frames) later'' = .ok rest := hnext
      obtain ⟨ms, end', hms, hrest⟩ := ih later''.length (by omega) (by omega) hmore rfl
      refine ⟨(key, t) :: ms, end', ?_, hrest⟩
      rw [memberTokens]
      exact begins_append.mpr ⟨later', hseparator, begins_append.mpr ⟨value, hkey,
        begins_append.mpr ⟨later'', ht, hms⟩⟩⟩

/-- **Only values are skipped.** The induction is on the length of the text; the loops over
elements and members call it at texts that are shorter. -/
theorem exists_tree_of_skip (h : skipFrom .value frames s = .ok rest) :
    ∃ (t : Tree) (later : Text), Spaced t.tokens s later ∧ resume frames later = .ok rest := by
  induction hlength : s.length using Nat.strong_induction_on generalizing frames s rest with
  | _ n ih =>
    have htrees : SkipsTrees n := fun frames s rest hs h => ih s.length hs h rfl
    obtain ⟨c, later, hs, hspace, hshort, hskip⟩ := exists_cons_of_skip h trivial
    by_cases hlist : c = '['
    · subst hlist
      rw [skipFrom_of_go (by rfl)] at hskip
      have hopened : skipFrom (.before true) (.list :: frames) later = .ok rest := hskip
      obtain ⟨ts, later', hts, hrest⟩ := exists_elements htrees (by omega) hopened
      refine ⟨.list ts, later', ?_, hrest⟩
      rw [Tree.tokens]
      exact spaced_cons.mpr ⟨later, hs, hts⟩
    by_cases hobject : c = '\x7b'
    · subst hobject
      rw [skipFrom_of_go (by rfl)] at hskip
      have hopened : skipFrom (.before true) (.object :: frames) later = .ok rest := hskip
      obtain ⟨ms, later', hms, hrest⟩ := exists_members htrees (by omega) hopened
      refine ⟨.object ms, later', ?_, hrest⟩
      rw [Tree.tokens]
      exact spaced_cons.mpr ⟨later, hs, hms⟩
    · obtain ⟨a, later', ha, hrest⟩ := exists_scalar_of_skip hspace hlist hobject hskip
      refine ⟨.scalar a, later', ?_, hrest⟩
      rw [Tree.tokens]
      exact spaced_cons.mpr ⟨later', hs.trans ha, rfl⟩

end Machine

/-! ### Whole values -/

variable {t : Tree} {s rest : Text}

theorem skipValue_of_spaced (h : Spaced t.tokens s rest) (hrest : Ends rest) :
    skipValue s = .ok rest :=
  isSkipped t h hrest

theorem exists_tree_of_skipValue (h : skipValue s = .ok rest) :
    ∃ t : Tree, Spaced t.tokens s rest := by
  obtain ⟨t, later, ht, hrest⟩ := exists_tree_of_skip h
  cases hrest
  exact ⟨t, ht⟩

end Json

end ImportAlias
