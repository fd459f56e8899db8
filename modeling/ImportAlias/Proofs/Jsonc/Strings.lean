import ImportAlias.Jsonc.Comments
import ImportAlias.Proofs.Jsonc.TrailingCommas
import Mathlib.Data.List.Chain

/-!
# Strings, as the two passes see them

Both passes over a text have to know its strings: for the first a `//` in a string is no comment,
and the second leaves the commas of a string alone. They find the strings in different ways. The
first takes a backslash together with the character behind it, the second notes that a backslash
came before; and the first sees the text with its comments, the second without.

A `Scan` says of each character of a text what a pass does with it. When the pass over comments
goes over what it has left, it comes to every character in the same way as before (`Reads.settle`),
so it takes nothing more out and finds the same strings. The pass over trailing commas, which knows
of no comments, takes the same characters to stand in strings (`Reads.marks_readCommas`). Both are
simulations between automata, by induction on a run of the pass over comments (`Reads`), from any
mode on. They hold of every text, also of one that ends within a string or with a backslash.
-/

namespace ImportAlias

namespace Jsonc

/-- A character of a text, as a pass comes to it. -/
structure Reading where
  char : Char
  /-- Whether it is taken to stand in a string. The opening quote stands before the string. -/
  inString : Bool
  /-- Whether it is left. -/
  kept : Bool
  deriving DecidableEq, Repr

namespace Reading

/-- A character that stands in no string and is left. -/
@[simps]
def outside (c : Char) : Reading := { char := c, inString := false, kept := true }

/-- A character of a string. -/
@[simps]
def inside (c : Char) : Reading := { char := c, inString := true, kept := true }

/-- A character that is taken out. -/
@[simps]
def dropped (c : Char) : Reading := { char := c, inString := false, kept := false }

/-- The character, and whether it is taken to stand in a string. -/
def mark (r : Reading) : Char × Bool := (r.char, r.inString)

/-- Whether the character opens a string. -/
def opens (r : Reading) : Bool := r.char = '"' && !r.inString && r.kept

end Reading

/-- What a pass that makes one text of another does with each character. -/
structure Scan (source left : Text) where
  readings : List Reading
  chars_eq : readings.map Reading.char = source
  left_eq : (readings.filter Reading.kept).map Reading.char = left

namespace Scan

variable {source left : Text}

/-- The characters of the source with their marks. -/
def marks (scan : Scan source left) : List (Char × Bool) := scan.readings.map Reading.mark

/-- The characters that are left with the marks that they have in the source. -/
def marksLeft (scan : Scan source left) : List (Char × Bool) :=
  (scan.readings.filter Reading.kept).map Reading.mark

end Scan

/-! ### The pass over comments -/

/-- The characters of a text, as they are read from a given mode on. -/
def readComments : CommentMode → Text → List Reading
  | _, [] => []
  | .code, '/' :: '/' :: rest => .dropped '/' :: .dropped '/' :: readComments .line rest
  | .code, '/' :: '*' :: rest => .dropped '/' :: .dropped '*' :: readComments .block rest
  | .code, '"' :: rest => .outside '"' :: readComments .string rest
  | .code, c :: rest => .outside c :: readComments .code rest
  | .string, '\\' :: c :: rest => .inside '\\' :: .inside c :: readComments .string rest
  | .string, '"' :: rest => .inside '"' :: readComments .code rest
  | .string, c :: rest => .inside c :: readComments .string rest
  | .line, '\n' :: rest => .outside '\n' :: readComments .code rest
  | .line, c :: rest => .dropped c :: readComments .line rest
  | .block, '*' :: '/' :: rest => .dropped '*' :: .dropped '/' :: readComments .code rest
  | .block, '\n' :: rest => .outside '\n' :: readComments .block rest
  | .block, c :: rest => .dropped c :: readComments .block rest

/-- **A run of the pass over comments**, from a given mode on: over a text, with what is done with
each character, and with what is left. There is a case for each step. A step that reads a single
character says for which characters, and before which texts, there is no other. -/
inductive Reads : CommentMode → Text → List Reading → Text → Prop
  | nil (mode : CommentMode) : Reads mode [] [] []
  | lineStart {s rs left} (h : Reads .line s rs left) :
      Reads .code ('/' :: '/' :: s) (.dropped '/' :: .dropped '/' :: rs) left
  | blockStart {s rs left} (h : Reads .block s rs left) :
      Reads .code ('/' :: '*' :: s) (.dropped '/' :: .dropped '*' :: rs) left
  | stringStart {s rs left} (h : Reads .string s rs left) :
      Reads .code ('"' :: s) (.outside '"' :: rs) ('"' :: left)
  | code {c s rs left} (hquote : c ≠ '"')
      (hslash : c = '/' → s.head? ≠ some '/' ∧ s.head? ≠ some '*') (h : Reads .code s rs left) :
      Reads .code (c :: s) (.outside c :: rs) (c :: left)
  | escape (c) {s rs left} (h : Reads .string s rs left) :
      Reads .string ('\\' :: c :: s) (.inside '\\' :: .inside c :: rs) ('\\' :: c :: left)
  | stringEnd {s rs left} (h : Reads .code s rs left) :
      Reads .string ('"' :: s) (.inside '"' :: rs) ('"' :: left)
  | string {c s rs left} (hquote : c ≠ '"') (hbackslash : c = '\\' → s = [])
      (h : Reads .string s rs left) : Reads .string (c :: s) (.inside c :: rs) (c :: left)
  | lineEnd {s rs left} (h : Reads .code s rs left) :
      Reads .line ('\n' :: s) (.outside '\n' :: rs) ('\n' :: left)
  | line {c s rs left} (hbreak : c ≠ '\n') (h : Reads .line s rs left) :
      Reads .line (c :: s) (.dropped c :: rs) left
  | blockEnd {s rs left} (h : Reads .code s rs left) :
      Reads .block ('*' :: '/' :: s) (.dropped '*' :: .dropped '/' :: rs) left
  | blockBreak {s rs left} (h : Reads .block s rs left) :
      Reads .block ('\n' :: s) (.outside '\n' :: rs) ('\n' :: left)
  | block {c s rs left} (hbreak : c ≠ '\n') (hstar : c = '*' → s.head? ≠ some '/')
      (h : Reads .block s rs left) : Reads .block (c :: s) (.dropped c :: rs) left

/-- There is a run over every text, from every mode on. -/
theorem reads (mode : CommentMode) (s : Text) :
    Reads mode s (readComments mode s) (stripFrom mode s) := by
  fun_induction readComments mode s
  case case1 mode =>
    rw [stripFrom]
    exact .nil mode
  case case2 ih => exact .lineStart ih
  case case3 ih => exact .blockStart ih
  case case4 ih => exact .stringStart ih
  case case5 c rest hslash hstar hquote ih =>
    have hnext : c = '/' → rest.head? ≠ some '/' ∧ rest.head? ≠ some '*' := by
      intro hc
      simp only [ne_eq, List.head?_eq_some_iff, not_exists]
      exact ⟨fun later => hslash later hc, fun later => hstar later hc⟩
    -- `stripFrom` reads a single character only where no other step of it applies.
    rw [stripFrom]
    exacts [.code hquote hnext ih, hslash, hstar, hquote]
  case case6 c rest ih => exact .escape c ih
  case case7 ih => exact .stringEnd ih
  case case8 c rest hbackslash hquote ih =>
    have hend : c = '\\' → rest = [] := by
      intro hc
      cases rest with
      | nil => rfl
      | cons d later => exact (hbackslash d later hc rfl).elim
    rw [stripFrom]
    exacts [.string hquote hend ih, hbackslash, hquote]
  case case9 ih => exact .lineEnd ih
  case case10 hbreak ih =>
    rw [stripFrom]
    exacts [.line hbreak ih, hbreak]
  case case11 ih => exact .blockEnd ih
  case case12 ih => exact .blockBreak ih
  case case13 c rest hstar hbreak ih =>
    have hnext : c = '*' → rest.head? ≠ some '/' := by
      intro hc
      simp only [ne_eq, List.head?_eq_some_iff, not_exists]
      exact fun later => hstar later hc
    rw [stripFrom]
    exacts [.block hbreak hnext ih, hstar, hbreak]

variable {mode : CommentMode} {s left : Text} {rs : List Reading}

theorem Reads.map_char (h : Reads mode s rs left) : rs.map Reading.char = s := by
  induction h <;> simp_all

theorem Reads.left_eq (h : Reads mode s rs left) :
    (rs.filter Reading.kept).map Reading.char = left := by
  induction h <;> simp_all

/-- And there is no other. -/
theorem Reads.eq_readComments (h : Reads mode s rs left) : rs = readComments mode s := by
  induction h with
  | nil => rw [readComments]
  | code hquote hslash _ ih =>
    rw [readComments, ih]
    · rintro rest hc rfl
      exact (hslash hc).1 rfl
    · rintro rest hc rfl
      exact (hslash hc).2 rfl
    · exact hquote
  | string hquote hbackslash _ ih =>
    rw [readComments, ih]
    · rintro d rest hc rfl
      cases hbackslash hc
    · exact hquote
  | line hbreak _ ih =>
    rw [readComments, ih]
    exact hbreak
  | block hbreak hstar _ ih =>
    rw [readComments, ih]
    · rintro rest hc rfl
      exact hstar hc rfl
    · exact hbreak
  | lineStart _ ih | blockStart _ ih | stringStart _ ih | escape _ _ ih | stringEnd _ ih
  | lineEnd _ ih | blockEnd _ ih | blockBreak _ ih => rw [readComments, ih]

theorem map_char_readComments (mode : CommentMode) (s : Text) :
    (readComments mode s).map Reading.char = s :=
  (reads mode s).map_char

theorem left_readComments (mode : CommentMode) (s : Text) :
    ((readComments mode s).filter Reading.kept).map Reading.char = stripFrom mode s :=
  (reads mode s).left_eq

/-- What the pass over comments does with each character. -/
def commentScan (source : Text) : Scan source (stripComments source) where
  readings := readComments .code source
  chars_eq := map_char_readComments .code source
  left_eq := left_readComments .code source

/-! ### Reading again what is left -/

/-- What stands next outside of strings is left, unless it may begin a comment. -/
theorem Reads.head?_left (h : Reads .code s rs left) (hslash : s.head? ≠ some '/') :
    left.head? = s.head? := by
  cases h <;> simp_all

/-- The mode in which to read on what is left: there are no comments. -/
def CommentMode.settled : CommentMode → CommentMode
  | .string => .string
  | .code | .line | .block => .code

/-- **What is left is read as it was read before.** A slash outside of strings is left when neither a
slash nor a star comes next, so that no comment does, and what comes next is left with it. Hence no
two characters with a comment between them can begin another. -/
theorem Reads.settle (h : Reads mode s rs left) :
    Reads mode.settled left (rs.filter Reading.kept) left := by
  induction h with
  | nil mode => exact .nil mode.settled
  | stringStart _ ih => exact .stringStart ih
  | stringEnd _ ih => exact .stringEnd ih
  | code hquote hslash h ih =>
    refine .code hquote (fun hc => ?_) ih
    rw [h.head?_left (hslash hc).1]
    exact hslash hc
  | escape c _ ih => exact .escape c ih
  | string hquote hbackslash h ih =>
    refine .string hquote (fun hc => ?_) ih
    obtain rfl := hbackslash hc
    cases h
    rfl
  | lineEnd _ ih | blockBreak _ ih => exact .code (by decide) (fun hc => absurd hc (by decide)) ih
  | lineStart _ ih | blockStart _ ih | line _ _ ih | blockEnd _ ih | block _ _ _ ih => exact ih

theorem readComments_stripComments (source : Text) :
    readComments .code (stripComments source) =
      (readComments .code source).filter Reading.kept :=
  (reads .code source).settle.eq_readComments.symm

/-- **Nothing more is taken out** by a second pass. -/
theorem stripComments_stripComments (source : Text) :
    stripComments (stripComments source) = stripComments source := by
  calc
    stripComments (stripComments source)
      = ((readComments .code (stripComments source)).filter Reading.kept).map Reading.char :=
        (left_readComments .code _).symm
    _ = (((readComments .code source).filter Reading.kept).filter Reading.kept).map Reading.char := by
        rw [readComments_stripComments]
    _ = stripComments source := (reads .code source).settle.left_eq

/-! ### No comment is left -/

/-- Whether the first of two characters in a row, with the marks that a pass gives them, begins a
comment. -/
def BeginsComment (a b : Char × Bool) : Prop :=
  a.1 = '/' ∧ a.2 = false ∧ (b.1 = '/' ∨ b.1 = '*')

/-- Where all is left, no comment begins. -/
theorem Reads.isChain_of_forall_kept (h : Reads mode s rs left) (hkept : ∀ r ∈ rs, r.kept = true) :
    (rs.map Reading.mark).IsChain fun a b => ¬BeginsComment a b := by
  induction h with
  | @code c s rs left _ hslash h ih =>
    have hchain := ih fun r hr => hkept r (List.mem_cons_of_mem _ hr)
    refine List.isChain_cons.mpr ⟨fun b hb hbegins => ?_, hchain⟩
    have hnext : s.head? = some b.1 := by
      rw [← h.map_char, List.head?_map]
      rw [List.head?_map] at hb
      obtain ⟨r, hr, rfl⟩ := Option.map_eq_some_iff.mp hb
      rw [hr]
      rfl
    obtain ⟨hc, -, hb | hb⟩ := hbegins
    · exact (hslash hc).1 (by rw [hnext, hb])
    · exact (hslash hc).2 (by rw [hnext, hb])
  | _ => simp_all [List.isChain_cons, BeginsComment, Reading.mark]

/-! ### The strings of a text -/

/-- The texts of the strings among characters that were read: an opening quote, with all that
stands in the string behind it. -/
def literalsAmong : List Reading → List Text
  | [] => []
  | r :: rs =>
    if r.opens then (r :: rs.takeWhile Reading.inString).map Reading.char :: literalsAmong rs
    else literalsAmong rs

/-- The strings of a text, closed or not, in order. -/
def literals (source : Text) : List Text := literalsAmong (commentScan source).readings

theorem isInfix_of_mem_literalsAmong {string : Text} (h : string ∈ literalsAmong rs) :
    string <:+: rs.map Reading.char := by
  induction rs with
  | nil => cases h
  | cons r rs ih =>
    have hrest : string ∈ literalsAmong rs → string <:+: (r :: rs).map Reading.char :=
      fun h => (ih h).trans (List.suffix_cons _ _).isInfix
    rw [literalsAmong] at h
    split at h
    · rcases List.mem_cons.mp h with rfl | h
      · have hbegins : r :: rs.takeWhile Reading.inString <+: r :: rs :=
          (List.prefix_cons_inj r).mpr (List.takeWhile_prefix _)
        exact (hbegins.map Reading.char).isInfix
      · exact hrest h
    · exact hrest h

/-- A string stands in the text in one piece. -/
theorem isInfix_of_mem_literals {source string : Text} (h : string ∈ literals source) :
    string <:+: source := by
  have hinfix := isInfix_of_mem_literalsAmong h
  rwa [(commentScan source).chars_eq] at hinfix

/-- Outside of a string a quote comes before the next one. -/
theorem Reads.takeWhile_eq_nil (h : Reads mode s rs left) (hmode : mode ≠ .string) :
    rs.takeWhile Reading.inString = [] := by
  cases h <;> simp_all

theorem Reads.takeWhile_filter_eq_nil (h : Reads mode s rs left) (hmode : mode ≠ .string) :
    (rs.filter Reading.kept).takeWhile Reading.inString = [] := by
  have hsettled : mode.settled ≠ .string := by cases mode <;> simp_all [CommentMode.settled]
  exact h.settle.takeWhile_eq_nil hsettled

/-- A string is left in one piece. -/
theorem Reads.takeWhile_filter (h : Reads mode s rs left) :
    (rs.filter Reading.kept).takeWhile Reading.inString = rs.takeWhile Reading.inString := by
  induction h with
  | nil | stringStart | code | lineEnd | blockBreak => rfl
  | escape _ _ ih | stringEnd _ ih | string _ _ _ ih => simpa using ih
  | lineStart h | blockStart h | line _ h | blockEnd h | block _ _ h =>
    simpa using h.takeWhile_filter_eq_nil (by decide)

theorem Reads.literalsAmong_filter (h : Reads mode s rs left) :
    literalsAmong (rs.filter Reading.kept) = literalsAmong rs := by
  induction h with
  | stringStart h ih => simpa [literalsAmong, Reading.opens, h.takeWhile_filter] using ih
  | _ => simp_all [literalsAmong, Reading.opens]

theorem literals_stripComments (source : Text) :
    literals (stripComments source) = literals source := by
  have hfilter := (reads .code source).literalsAmong_filter
  rwa [← readComments_stripComments] at hfilter

/-! ### The pass over trailing commas -/

/-- The mode behind a character. -/
def StringMode.next (mode : StringMode) (c : Char) : StringMode :=
  match mode with
  | .code => if c = '"' then .string else .code
  | .string => .behind c
  | .escape => .string

/-- The characters of a text, as they are read from a given mode on. -/
def readCommas : StringMode → Text → List Reading
  | _, [] => []
  | mode, c :: rest =>
    { char := c
      inString := mode ≠ .code
      kept := ¬(mode = .code ∧ c = ',' ∧ closesNext rest = true) } :: readCommas (mode.next c) rest

theorem map_char_readCommas (mode : StringMode) (s : Text) :
    (readCommas mode s).map Reading.char = s := by
  fun_induction readCommas mode s <;> simp_all

theorem left_readCommas (mode : StringMode) (s : Text) :
    ((readCommas mode s).filter Reading.kept).map Reading.char = dropCommasFrom mode s := by
  fun_induction dropCommasFrom mode s
  all_goals simp_all [readCommas, StringMode.next, StringMode.behind]

/-- What the pass over trailing commas does with each character. -/
def commaScan (source : Text) : Scan source (dropTrailingCommas source) where
  readings := readCommas .code source
  chars_eq := map_char_readCommas .code source
  left_eq := left_readCommas .code source

/-- The mode of this pass where the other is in a given mode. -/
def CommentMode.strings : CommentMode → StringMode
  | .string => .string
  | .code | .line | .block => .code

/-- **The same characters are taken to stand in strings**, whether the pass over comments comes to
them or, in what it has left, the pass over trailing commas does. -/
theorem Reads.marks_readCommas (h : Reads mode s rs left) :
    (readCommas mode.strings left).map Reading.mark =
      (rs.filter Reading.kept).map Reading.mark := by
  induction h with
  | @string c s rs left hquote hbackslash h ih =>
    by_cases hc : c = '\\'
    · obtain rfl := hbackslash hc
      cases h
      subst hc
      rfl
    · simp_all [readCommas, CommentMode.strings, StringMode.next, StringMode.behind, Reading.mark]
  | _ =>
    simp_all [readCommas, CommentMode.strings, StringMode.next, StringMode.behind, Reading.mark]

/-- **Both passes see the same strings**, in every text, well formed or not. A second pass over
comments changes nothing, and in what the first has left no comment begins outside of the strings
that the pass over trailing commas finds there. All strings of the text are left, each in one piece,
and no others come about. And the second pass takes those characters to stand in strings that stood
in strings when the first left them. -/
theorem strings_agree (source : Text) :
    let left := stripComments source
    stripComments left = left ∧
      ((commaScan left).marks.IsChain fun a b => ¬BeginsComment a b) ∧
      literals left = literals source ∧
      (∀ string ∈ literals source, string <:+: left) ∧
      (commaScan left).marks = (commentScan source).marksLeft := by
  intro left
  have hmarks : (commaScan left).marks = (commentScan source).marksLeft :=
    (reads .code source).marks_readCommas
  have hread : (commentScan source).marksLeft = (commentScan left).marks :=
    congrArg (List.map Reading.mark) (readComments_stripComments source).symm
  have hkept : ∀ r ∈ readComments .code left, r.kept = true := by
    rw [readComments_stripComments]
    exact fun r hr => (List.mem_filter.mp hr).2
  have hliterals : literals left = literals source := literals_stripComments source
  refine ⟨stripComments_stripComments source, ?_, hliterals, fun string hstring => ?_, hmarks⟩
  · rw [hmarks, hread]
    exact (reads .code left).isChain_of_forall_kept hkept
  · rw [← hliterals] at hstring
    exact isInfix_of_mem_literals hstring

example : literals "\"/*\"/*\"*/\"*/".toList = ["\"/*\"".toList, "\"*/".toList] := by decide

end Jsonc

end ImportAlias
