import ImportAlias.Proofs.Json.Unambiguous

/-!
# What strings mean

`decode` gives the text that a string literal stands for, if it stands for one: the two halves of
a surrogate pair make one character, and a half without the other makes none. Reading a string
succeeds on exactly the literals that stand for a text.

Reading is stricter than skipping, and otherwise takes the same steps. That it reads nothing but
literals is therefore known from skipping, and only its value has to be computed.
-/

namespace ImportAlias

namespace Json

/-! ### The text of a literal -/

/-- The value of a hexadecimal digit. -/
def hexDigit (d : Char) : Nat := (Text.hexValue? d).getD 0

/-- The number that four hexadecimal digits write. -/
def codeNumber (d₁ d₂ d₃ d₄ : Char) : Nat :=
  16 * (16 * (16 * hexDigit d₁ + hexDigit d₂) + hexDigit d₃) + hexDigit d₄

/-- The text that glyphs stand for behind the leading half of a surrogate pair, or behind none. -/
def decodeFrom : Option Nat → List Glyph → Option Text
  | none, [] => some []
  | none, .plain c _ :: gs => (decodeFrom none gs).map (c :: ·)
  | none, .escape letter _ :: gs =>
    (simpleEscape letter).bind fun c => (decodeFrom none gs).map (c :: ·)
  | none, .code d₁ d₂ d₃ d₄ _ :: gs =>
    let n := codeNumber d₁ d₂ d₃ d₄
    if isTrail n then none
    else if isLead n then decodeFrom (some n) gs
    else (decodeFrom none gs).map (Char.ofNat n :: ·)
  | some lead, .code d₁ d₂ d₃ d₄ _ :: gs =>
    let n := codeNumber d₁ d₂ d₃ d₄
    if isTrail n then (decodeFrom none gs).map (pairChar lead n :: ·) else none
  | some _, _ => none

/-- The text that a string literal stands for. -/
def decode (glyphs : List Glyph) : Option Text := decodeFrom none glyphs

/-! ### Reading a literal -/

variable {s rest read a : Text}

/-- The state of reading behind the leading half of a surrogate pair, or behind none. -/
def StringState.behind : Option Nat → StringState
  | none => .plain
  | some lead => .pairBackslash lead

theorem hexValue?_of_isSome {d : Char} (hd : (Text.hexValue? d).isSome) :
    Text.hexValue? d = some (hexDigit d) := by
  obtain ⟨n, hn⟩ := Option.isSome_iff_exists.mp hd
  rw [hexDigit, hn, Option.getD_some]

/-- One digit of an escaped code that is not the last. -/
theorem readStringFrom_digit {d : Char} (hd : (Text.hexValue? d).isSome) {left : Nat}
    (hleft : 1 < left) (n : Nat) (lead : Option Nat) (read s : Text) :
    readStringFrom (.code left (some n) lead) read (d :: s) =
      readStringFrom (.code (left - 1) (some (16 * n + hexDigit d)) lead) read s := by
  rw [readStringFrom.eq_def]
  simp [utf8Size_of_hexValue? hd, hexValue?_of_isSome hd, hleft]

/-- What an escaped code adds to what was read. -/
def readCode (lead : Option Nat) (n : Nat) (read s : Text) : Read Text :=
  match lead with
  | none =>
    if isTrail n then .error (.here .loneSurrogate s)
    else if isLead n then readStringFrom (.pairBackslash n) read s
    else readStringFrom .plain (Char.ofNat n :: read) s
  | some lead =>
    if isTrail n then readStringFrom .plain (pairChar lead n :: read) s
    else .error (.here .loneSurrogate s)

/-- Four digits are read as the number they write. -/
theorem readStringFrom_code {d₁ d₂ d₃ d₄ : Char}
    (h : ∀ d ∈ [d₁, d₂, d₃, d₄], (Text.hexValue? d).isSome) (lead : Option Nat) (read s : Text) :
    readStringFrom (.code 4 (some 0) lead) read (d₁ :: d₂ :: d₃ :: d₄ :: s) =
      readCode lead (codeNumber d₁ d₂ d₃ d₄) read s := by
  simp only [List.forall_mem_cons] at h
  obtain ⟨h₁, h₂, h₃, h₄, -⟩ := h
  rw [readStringFrom_digit h₁ (by decide), readStringFrom_digit h₂ (by decide),
    readStringFrom_digit h₃ (by decide), readStringFrom.eq_def]
  simp only [utf8Size_of_hexValue? h₄, hexValue?_of_isSome h₄]
  cases lead <;> simp [readCode, codeNumber] <;> rfl

/-- **A literal is read as the text it stands for**, and is refused if it stands for none. -/
theorem readStringFrom_closedText (glyphs : List Glyph) (lead : Option Nat) (read s : Text) :
    (readStringFrom (.behind lead) read (closedText glyphs ++ s)).toOption =
      (decodeFrom lead glyphs).map fun a => (read.reverse ++ a, s) := by
  induction glyphs generalizing lead read with
  | nil =>
    cases lead <;>
      simp [closedText, readStringFrom, decodeFrom, StringState.behind, Except.toOption]
  | cons g glyphs ih =>
    have hplain : ∀ c, (readStringFrom .plain (c :: read) (closedText glyphs ++ s)).toOption =
        ((decodeFrom none glyphs).map (c :: ·)).map fun a => (read.reverse ++ a, s) := by
      intro c
      rw [Option.map_map]
      simpa [StringState.behind, Function.comp_def] using ih none (c :: read)
    rw [closedText_cons, List.append_assoc]
    have hcode : ∀ {d₁ d₂ d₃ d₄ : Char} (h : ∀ d ∈ [d₁, d₂, d₃, d₄], (Text.hexValue? d).isSome),
        readStringFrom (.behind lead) read
            ((Glyph.code d₁ d₂ d₃ d₄ h).text ++ (closedText glyphs ++ s)) =
          readCode lead (codeNumber d₁ d₂ d₃ d₄) read (closedText glyphs ++ s) := by
      intro d₁ d₂ d₃ d₄ h
      rw [← readStringFrom_code h]
      cases lead <;> simp [Glyph.text, StringState.behind, readStringFrom]
    cases lead with
    | none =>
      cases g with
      | plain c h =>
        have hcontrol := Nat.not_lt.mpr h.1
        rw [decodeFrom, ← hplain]
        simp [Glyph.text, StringState.behind, readStringFrom, h.2, hcontrol]
      | escape letter h =>
        obtain ⟨c, hc⟩ := Option.isSome_iff_exists.mp (isSome_simpleEscape.mpr h)
        have hu : letter ≠ 'u' := by rintro rfl; exact absurd h (by decide)
        rw [decodeFrom, hc, Option.bind_some, ← hplain]
        simp [Glyph.text, StringState.behind, readStringFrom, hu, hc]
      | code d₁ d₂ d₃ d₄ h =>
        rw [hcode, decodeFrom, readCode]
        split_ifs with htrail hlead
        · rfl
        · exact ih (some _) read
        · exact hplain _
    | some lead =>
      cases g with
      | plain c h =>
        simp [Glyph.text, StringState.behind, readStringFrom, decodeFrom, h.2, Except.toOption]
      | escape letter h =>
        have hu : letter ≠ 'u' := by rintro rfl; exact absurd h (by decide)
        simp [Glyph.text, StringState.behind, readStringFrom, decodeFrom, hu, Except.toOption]
      | code d₁ d₂ d₃ d₄ h =>
        rw [hcode, decodeFrom, readCode]
        split_ifs with htrail
        · exact hplain _
        · rfl

/-! ### Nothing but literals is read -/

/-- What the next character of a string belongs to when it is skipped. -/
def StringState.skipping : StringState → Skipping
  | plain | pairBackslash _ => .string false
  | escape | pairLetter _ => .escape false
  | code left value _ => .code false left value.isSome

/-- A code is complete with a character that has as many bytes as are due, and is skipped if all of
it are digits. -/
theorem skip_last_of_code {frames : List Frame} {c : Char} {left : Nat} {value : Option Nat}
    {n : Nat} (hleft : ¬ c.utf8Size < left)
    (hvalue : (value.bind fun n => (Text.hexValue? c).map (16 * n + ·)) = some n) (s : Text) :
    skipFrom (.code false left value.isSome) frames (c :: s) =
      skipFrom (.string false) frames s := by
  obtain ⟨m, rfl, hm⟩ := Option.bind_eq_some_iff.mp hvalue
  obtain ⟨d, hd, -⟩ := Option.map_eq_some_iff.mp hm
  refine skipFrom_of_go ?_
  simp [move, hleft, hd]

/-- **What is read as a string is skipped as one.** -/
theorem skip_of_readStringFrom {state : StringState}
    (h : readStringFrom state read s = .ok (a, rest)) :
    skipFrom state.skipping [] s = .ok rest := by
  fun_induction readStringFrom state read s
  -- Codes take several characters: first a digit that is not the last one, then the last digit of a
  -- code that trails another, leads one or stands alone. All other characters are single moves.
  case case9 left value lead read c s value' hleft ih =>
    have hvalid : value'.isSome = (value.isSome && (Text.hexValue? c).isSome) := by
      cases value <;> simp [value']
    rw [← ih h, StringState.skipping, StringState.skipping, hvalid]
    exact skipFrom_of_go (by simp [move, hleft])
  case case12 hleft n hvalue _ _ ih => exact (skip_last_of_code hleft hvalue _).trans (ih h)
  case case13 hleft n hvalue _ _ ih => exact (skip_last_of_code hleft hvalue _).trans (ih h)
  case case14 hleft n lead hvalue _ ih => exact (skip_last_of_code hleft hvalue _).trans (ih h)
  all_goals simp_all [StringState.skipping, skipFrom, move, ended, -not_lt, -Nat.not_lt]

theorem readString_eq_ok_iff :
    readString s = .ok (a, rest) ↔
      ∃ glyphs, s = closedText glyphs ++ rest ∧ decode glyphs = some a := by
  have hread : ∀ glyphs, readString (closedText glyphs ++ rest) = .ok (a, rest) ↔
      decode glyphs = some a := by
    intro glyphs
    have h : (readString (closedText glyphs ++ rest)).toOption =
        (decode glyphs).map fun a => (a, rest) := readStringFrom_closedText glyphs none [] rest
    cases hs : readString (closedText glyphs ++ rest) <;> cases hg : decode glyphs <;>
      simp_all [Except.toOption]
  constructor
  · intro h
    obtain ⟨glyphs, later, rfl, hlater⟩ := exists_glyphs_of_skip (skip_of_readStringFrom h)
    cases hlater
    exact ⟨glyphs, rfl, (hread glyphs).mp h⟩
  · rintro ⟨glyphs, rfl, h⟩
    exact (hread glyphs).mpr h

end Json

end ImportAlias
