import ImportAlias.Json.Container
import ImportAlias.Proofs.Json.Strings
import Mathlib.Data.List.DropRight

/-!
# What typed places read

A reader for a typed place takes some trees and refuses the others; `Reads` says which it takes,
by a function that gives the meaning of a tree if the tree has one. The readers for containers are
treated here once for all readers of elements and members: an array means the list of what its
elements mean, and an object the result of taking up its members one after another.
-/

namespace ImportAlias

namespace Json

variable {α σ : Type} {s later rest : Text}

/-- The reader takes exactly the trees that mean something, and gives what they mean. -/
structure Reads (read : Text → Read α) (meaning : Tree → Option α) : Prop where
  sound : ∀ {s a rest}, read s = .ok (a, rest) →
    ∃ t : Tree, Spaced t.tokens s rest ∧ meaning t = some a
  complete : ∀ {t : Tree} {s a rest}, Spaced t.tokens s rest → Ends rest →
    meaning t = some a → read s = .ok (a, rest)

/-! ### The start of a value -/

theorem skipSpace_skipSpace (s : Text) : skipSpace (skipSpace s) = skipSpace s :=
  List.dropWhile_idempotent isSpace s

theorem spaced_skipSpace {t : Token} {ts : List Token} :
    Spaced (t :: ts) (skipSpace s) rest ↔ Spaced (t :: ts) s rest := by
  rw [spaced_cons, spaced_cons, skipSpace_skipSpace]

theorem spaced_tokens_skipSpace {t : Tree} :
    Spaced t.tokens (skipSpace s) rest ↔ Spaced t.tokens s rest := by
  cases t <;> simp only [Tree.tokens, spaced_skipSpace]

theorem spaced_scalar {a : Scalar} :
    Spaced (Tree.scalar a).tokens s rest ↔ skipSpace s = a.text ++ rest := by
  rw [Tree.tokens, spaced_cons]
  constructor
  · rintro ⟨later, hs, rfl⟩
    exact hs
  · exact fun hs => ⟨rest, hs, rfl⟩

theorem spaced_list {ts : List Tree} :
    Spaced (Tree.list ts).tokens s rest ↔
      ∃ later, skipSpace s = '[' :: later ∧ Spaced (elementTokens true ts) later rest := by
  rw [Tree.tokens, spaced_cons]
  rfl

theorem spaced_object {ms : List (List Glyph × Tree)} :
    Spaced (Tree.object ms).tokens s rest ↔
      ∃ later, skipSpace s = '\x7b' :: later ∧ Spaced (memberTokens true ms) later rest := by
  rw [Tree.tokens, spaced_cons]
  rfl

theorem spaced_mark {t : Token} {c : Char} (ht : t.text = [c]) :
    Spaced [t] s rest ↔ skipSpace s = c :: rest := by
  rw [spaced_cons, ht]
  constructor
  · rintro ⟨later, hs, rfl⟩
    exact hs
  · exact fun hs => ⟨rest, hs, rfl⟩

/-! ### Texts and null -/

/-- The text that a tree means. -/
def Tree.text? : Tree → Option Text
  | .scalar (.string glyphs) => decode glyphs
  | _ => none

theorem Tree.eq_string_of_text? {t : Tree} {a : Text} (h : t.text? = some a) :
    ∃ glyphs, t = .scalar (.string glyphs) ∧ decode glyphs = some a := by
  unfold text? at h
  split at h
  · exact ⟨_, rfl, h⟩
  · cases h

theorem reads_text : Reads readText Tree.text? where
  sound {s a rest} h := by
    unfold readText at h
    split at h
    · rename_i later hs
      obtain ⟨glyphs, rfl, ha⟩ := readString_eq_ok_iff.mp h
      exact ⟨.scalar (.string glyphs), spaced_scalar.mpr hs, ha⟩
    · cases h
  complete {t s a rest} h _ ha := by
    obtain ⟨glyphs, rfl, ha⟩ := Tree.eq_string_of_text? ha
    rw [readText, spaced_scalar.mp h]
    exact readString_eq_ok_iff.mpr ⟨glyphs, rfl, ha⟩

theorem readLetters_eq_ok_iff {letters : List Char} :
    readLetters letters s = .ok rest ↔ s = letters ++ rest := by
  induction letters generalizing s with
  | nil => simp [readLetters]
  | cons letter letters ih =>
    cases s with
    | nil => simp [readLetters]
    | cons c s =>
      by_cases hc : c = letter
      · simp [readLetters, hc, ih]
      · simp [readLetters, hc]

/-- The meaning of a place that takes null as well. -/
def Tree.nullable (meaning : Tree → Option α) : Tree → Option (Option α)
  | .scalar .null => some none
  | t => (meaning t).map some

theorem Tree.nullable_of_ne_null {meaning : Tree → Option α} {t : Tree} (h : t ≠ .scalar .null) :
    t.nullable meaning = (meaning t).map some := by
  unfold nullable
  split
  · exact absurd rfl h
  · rfl

/-- Only null begins with its first letter. -/
theorem eq_null_of_spaced {t : Tree} (h : Spaced t.tokens s rest)
    (hs : skipSpace s = 'n' :: later) : t = .scalar .null := by
  cases t with
  | list ts =>
    obtain ⟨later', hs', -⟩ := spaced_list.mp h
    exact absurd (List.cons.inj (hs.symm.trans hs')).1 (by decide)
  | object ms =>
    obtain ⟨later', hs', -⟩ := spaced_object.mp h
    exact absurd (List.cons.inj (hs.symm.trans hs')).1 (by decide)
  | scalar a =>
    have ha : 'n' :: later = a.text ++ rest := hs.symm.trans (spaced_scalar.mp h)
    match a with
    | .null => rfl
    | .boolean true => exact absurd (List.cons.inj ha).1 (by decide)
    | .boolean false => exact absurd (List.cons.inj ha).1 (by decide)
    | .string glyphs => exact absurd (List.cons.inj ha).1 (by decide)
    | .number n =>
      obtain ⟨c, text, hn, hc⟩ := n.exists_cons
      rw [Scalar.text, hn] at ha
      obtain rfl := (List.cons.inj ha).1
      exact absurd hc (by decide)

theorem reads_nullable {read : Text → Read α} {meaning : Tree → Option α}
    (hread : Reads read meaning) : Reads (readNullable read) (Tree.nullable meaning) where
  sound {s a rest} h := by
    unfold readNullable at h
    split at h
    · rename_i later hs
      split at h
      · rename_i later' hletters
        cases h
        have hnull : skipSpace s = Scalar.null.text ++ rest := by
          rw [hs, readLetters_eq_ok_iff.mp hletters]
          rfl
        exact ⟨.scalar .null, spaced_scalar.mpr hnull, rfl⟩
      · cases h
    · rename_i hn
      split at h
      · rename_i b later hb
        cases h
        obtain ⟨t, ht, hmeaning⟩ := hread.sound hb
        have hspaced := spaced_tokens_skipSpace.mp ht
        refine ⟨t, hspaced, ?_⟩
        have hnull : t ≠ .scalar .null := by
          rintro rfl
          exact hn _ (spaced_scalar.mp hspaced)
        rw [Tree.nullable_of_ne_null hnull, hmeaning, Option.map_some]
      · cases h
  complete {t s a rest} h hrest ha := by
    by_cases hnull : t = .scalar .null
    · subst hnull
      cases ha
      simp [readNullable, spaced_scalar.mp h, Scalar.text, readLetters]
    · rw [Tree.nullable_of_ne_null hnull, Option.map_eq_some_iff] at ha
      obtain ⟨b, hb, rfl⟩ := ha
      have hvalue := hread.complete (spaced_tokens_skipSpace.mpr h) hrest hb
      unfold readNullable
      split
      · rename_i later hs
        exact absurd (eq_null_of_spaced h hs) hnull
      · rw [hvalue]

/-! ### Arrays -/

/-- An array ends where its bracket stands. -/
theorem endArray_eq_ok_iff : endArray s = .ok rest ↔ Spaced [.closeList] s rest := by
  rw [spaced_mark (c := ']') rfl]
  unfold endArray
  split <;> simp_all
  split <;> simp

theorem nextElement_eq_none_iff {first : Bool} :
    nextElement first s = .ok none ↔ ∃ rest, Spaced [.closeList] s rest := by
  simp only [spaced_mark (t := .closeList) (c := ']') rfl]
  unfold nextElement
  split
  · simp_all
  · split_ifs <;> simp_all
    split <;> simp

theorem exists_separator_of_nextElement {first : Bool} {s' : Text}
    (h : nextElement first s = .ok (some s')) :
    ∃ later, Spaced (separator first) s later ∧ skipSpace later = s' := by
  unfold nextElement at h
  split at h
  · cases h
  · rename_i c later hs
    split_ifs at h with hclose hfirst hcomma
    · cases h
    · cases h
      exact ⟨s, hfirst ▸ rfl, hs⟩
    · rw [Bool.not_eq_true] at hfirst
      split at h
      · cases h
      · cases h
        exact ⟨later, hfirst ▸ (spaced_mark rfl).mpr (hcomma ▸ hs), rfl⟩

theorem nextElement_of_spaced {first : Bool} {t : Tree}
    (h : Spaced (separator first) s later) (ht : Spaced t.tokens later rest) :
    nextElement first s = .ok (some (skipSpace later)) := by
  obtain ⟨c, later', hs, hc⟩ := exists_cons_of_spaced ht
  have hclose := hc.notMark.2.1
  cases first with
  | true =>
    obtain rfl : s = later := h
    rw [nextElement, hs]
    simp [hclose]
  | false =>
    rw [nextElement, (spaced_mark rfl).mp h]
    simp [hs, hclose]

theorem lt_length_elementTokens (first : Bool) (ts : List Tree) :
    ts.length < (elementTokens first ts).length := by
  induction ts generalizing first with
  | nil => simp [elementTokens]
  | cons t ts ih =>
    have := ih false
    have := t.length_tokens_pos
    simp only [elementTokens, List.length_append, List.length_cons]
    omega

/-- The meaning of a place that takes arrays. -/
def Tree.elements? (meaning : Tree → Option α) : Tree → Option (List α)
  | .list ts => ts.mapM meaning
  | _ => none

theorem Tree.eq_list_of_elements? {meaning : Tree → Option α} {t : Tree} {as : List α}
    (h : t.elements? meaning = some as) : ∃ ts, t = .list ts ∧ ts.mapM meaning = some as := by
  unfold elements? at h
  split at h
  · exact ⟨_, rfl, h⟩
  · cases h

section Elements

variable {read : Text → Read α} {meaning : Tree → Option α}

theorem exists_of_readElements (hread : Reads read meaning) {bound : Nat} {first : Bool}
    {before as : List α} (h : readElements read bound first before s = .ok (as, rest)) :
    ∃ ts bs, Spaced (elementTokens first ts) s rest ∧ ts.mapM meaning = some bs ∧
      as = before.reverse ++ bs := by
  induction bound generalizing first before s with
  | zero => cases h
  | succ bound ih =>
    unfold readElements at h
    split at h
    · cases h
    · rename_i hnone
      split at h
      · rename_i hend
        cases h
        exact ⟨[], [], by simpa [elementTokens] using endArray_eq_ok_iff.mp hend, rfl, by simp⟩
      · cases h
    · rename_i s' hnext
      split at h
      · rename_i a later' ha
        obtain ⟨later, hseparator, rfl⟩ := exists_separator_of_nextElement hnext
        obtain ⟨t, ht, hmeaning⟩ := hread.sound ha
        obtain ⟨ts, bs, hts, hbs, rfl⟩ := ih h
        refine ⟨t :: ts, a :: bs, ?_, ?_, by simp⟩
        · rw [elementTokens]
          exact begins_append.mpr ⟨later, hseparator,
            begins_append.mpr ⟨later', spaced_tokens_skipSpace.mp ht, hts⟩⟩
        · simp [hmeaning, hbs]
      · cases h

theorem readElements_of_spaced (hread : Reads read meaning) {bound : Nat} {first : Bool}
    {before bs : List α} {ts : List Tree} (h : Spaced (elementTokens first ts) s rest)
    (hts : ts.mapM meaning = some bs) (hbound : ts.length < bound) :
    readElements read bound first before s = .ok (before.reverse ++ bs, rest) := by
  induction bound generalizing first before bs s ts with
  | zero => exact absurd hbound (Nat.not_lt_zero _)
  | succ bound ih =>
    cases ts with
    | nil =>
      simp only [List.mapM_nil, Option.pure_def, Option.some.injEq] at hts
      subst hts
      have hend : Spaced [.closeList] s rest := h
      simp only [readElements, nextElement_eq_none_iff.mpr ⟨rest, hend⟩,
        endArray_eq_ok_iff.mpr hend, List.append_nil]
    | cons t ts =>
      simp only [List.mapM_cons, Option.bind_eq_bind, Option.bind_eq_some_iff, Option.pure_def,
        Option.some.injEq] at hts
      obtain ⟨b, hb, bs, hbs, rfl⟩ := hts
      rw [elementTokens] at h
      obtain ⟨later, hseparator, hlater⟩ := begins_append.mp h
      obtain ⟨later', ht, hmore⟩ := begins_append.mp hlater
      have hvalue := hread.complete (spaced_tokens_skipSpace.mpr ht) (ends_elements hmore) hb
      simp only [readElements, nextElement_of_spaced hseparator ht, hvalue]
      rw [ih hmore hbs (Nat.lt_of_succ_lt_succ hbound), List.reverse_cons, List.append_assoc,
        List.singleton_append]

/-- **An array is read as the list of what its elements mean.** -/
theorem reads_elements (hread : Reads read meaning) :
    Reads (readArray read) (Tree.elements? meaning) where
  sound {s as rest} h := by
    unfold readArray at h
    split at h
    · rename_i later hs
      obtain ⟨ts, bs, hts, hbs, rfl⟩ := exists_of_readElements hread h
      exact ⟨.list ts, spaced_list.mpr ⟨later, hs, hts⟩, hbs⟩
    · cases h
  complete {t s as rest} h _ has := by
    obtain ⟨ts, rfl, hts⟩ := Tree.eq_list_of_elements? has
    obtain ⟨later, hs, hlater⟩ := spaced_list.mp h
    have hlength := length_add_le_of_begins hlater
    have hbound := lt_length_elementTokens true ts
    rw [readArray, hs]
    exact readElements_of_spaced hread hlater hts (by omega)

end Elements

/-! ### Objects -/

/-- A reader of members takes up exactly the members that a step is defined on. It reads from the
colon on, and takes what the members before it led to. -/
structure ReadsMember (member : σ → Text → Text → Read σ) (step : σ → Text → Tree → Option σ) :
    Prop where
  sound : ∀ {state key s state' rest}, member state key s = .ok (state', rest) →
    ∃ t : Tree, Spaced (.colon :: t.tokens) s rest ∧ step state key t = some state'
  complete : ∀ {state key s state' rest} {t : Tree}, Spaced (.colon :: t.tokens) s rest →
    Ends rest → step state key t = some state' → member state key s = .ok (state', rest)

/-- What the members of an object lead to, taken up one after another. -/
def foldMembers (step : σ → Text → Tree → Option σ) :
    σ → List (List Glyph × Tree) → Option σ
  | state, [] => some state
  | state, (glyphs, t) :: ms =>
    (decode glyphs).bind fun key =>
      (step state key t).bind fun state => foldMembers step state ms

theorem readColon_eq_ok_iff : readColon s = .ok rest ↔ Spaced [.colon] s rest := by
  rw [spaced_mark (c := ':') rfl]
  unfold readColon
  split <;> simp_all

theorem endObject_of_spaced (h : Spaced [.closeObject] s rest) : endObject s = rest := by
  simp [endObject, (spaced_mark (c := '\x7d') rfl).mp h]

theorem nextKey_of_end {first : Bool} (h : Spaced [.closeObject] s rest) :
    nextKey first s = .ok none := by
  simp [nextKey, (spaced_mark (c := '\x7d') rfl).mp h]

theorem end_of_nextKey {first : Bool} (h : nextKey first s = .ok none) :
    Spaced [.closeObject] s (endObject s) := by
  rw [spaced_mark (c := '\x7d') rfl, endObject]
  simp only [nextKey] at h
  split at h
  · cases h
  · rename_i c later hs
    split_ifs at h with hclose hfirst hquote hcomma
    · simp [hs, hclose]
    · split at h <;> cases h
    · split at h
      · split at h <;> cases h
      all_goals cases h

theorem nextKey_of_spaced {first : Bool} {glyphs : List Glyph} {key : Text}
    (h : Spaced (separator first) s later)
    (hkey : Spaced [.scalar (.string glyphs)] later rest) (hglyphs : decode glyphs = some key) :
    nextKey first s = .ok (some (key, rest)) := by
  obtain ⟨rest, hs, rfl⟩ := spaced_cons.mp hkey
  have hread : readString (closedText glyphs ++ rest) = .ok (key, rest) :=
    readString_eq_ok_iff.mpr ⟨glyphs, rfl, hglyphs⟩
  cases first with
  | true =>
    obtain rfl : s = later := h
    rw [nextKey, hs]
    simp [Token.text, Scalar.text, hread]
  | false =>
    rw [nextKey, (spaced_mark rfl).mp h]
    simp [Token.text, Scalar.text, hread, hs]

theorem exists_key_of_nextKey {first : Bool} {key : Text}
    (h : nextKey first s = .ok (some (key, rest))) :
    ∃ later glyphs, Spaced (separator first) s later ∧
      Spaced [.scalar (.string glyphs)] later rest ∧ decode glyphs = some key := by
  -- A key is read behind its quotation mark.
  have hstring : ∀ {later later'}, skipSpace later = '"' :: later' →
      readString later' = .ok (key, rest) →
      ∃ glyphs, Spaced [.scalar (.string glyphs)] later rest ∧ decode glyphs = some key := by
    intro later later' hs hread
    obtain ⟨glyphs, rfl, hglyphs⟩ := readString_eq_ok_iff.mp hread
    exact ⟨glyphs, spaced_cons.mpr ⟨rest, hs, rfl⟩, hglyphs⟩
  simp only [nextKey] at h
  split at h
  · cases h
  · rename_i c later hs
    split_ifs at h with hclose hfirst hquote hcomma
    · cases h
    · split at h
      · rename_i hread
        cases h
        obtain ⟨glyphs, hkey⟩ := hstring (hquote ▸ hs) hread
        exact ⟨s, glyphs, hfirst ▸ rfl, hkey⟩
      · cases h
    · rw [Bool.not_eq_true] at hfirst
      split at h
      · rename_i later' hs'
        split at h
        · rename_i hread
          cases h
          obtain ⟨glyphs, hkey⟩ := hstring hs' hread
          exact ⟨later, glyphs, hfirst ▸ (spaced_mark rfl).mpr (hcomma ▸ hs), hkey⟩
        · cases h
      all_goals cases h

section Members

variable {member : σ → Text → Text → Read σ} {step : σ → Text → Tree → Option σ}

/-- A member is its key, then a colon with the value behind it. -/
theorem spaced_member {key : List Glyph} {t : Tree} {us : List Token} :
    Spaced ([.scalar (.string key), .colon] ++ (t.tokens ++ us)) s rest ↔
      ∃ later later', Spaced [.scalar (.string key)] s later ∧
        Spaced (.colon :: t.tokens) later later' ∧ Spaced us later' rest := by
  have hkey : Spaced ([.scalar (.string key)] ++ ((.colon :: t.tokens) ++ us)) s rest ↔ _ :=
    begins_append
  refine hkey.trans (exists_congr fun later => ?_)
  rw [exists_and_left]
  exact and_congr_right fun _ => begins_append

theorem exists_of_readMembers (hmember : ReadsMember member step) {bound : Nat} {first : Bool}
    {state state' : σ} (h : readMembers member bound first state s = .ok (state', rest)) :
    ∃ ms, Spaced (memberTokens first ms) s rest ∧ foldMembers step state ms = some state' := by
  induction bound generalizing first state s with
  | zero => cases h
  | succ bound ih =>
    unfold readMembers at h
    split at h
    · cases h
    · rename_i hend
      cases h
      exact ⟨[], end_of_nextKey hend, rfl⟩
    · rename_i key later hnext
      obtain ⟨later', glyphs, hseparator, hkey, hglyphs⟩ := exists_key_of_nextKey hnext
      split at h
      · rename_i state'' later'' hvalue
        obtain ⟨t, ht, hstep⟩ := hmember.sound hvalue
        obtain ⟨ms, hms, hfold⟩ := ih h
        refine ⟨(glyphs, t) :: ms, ?_, by simp [foldMembers, hglyphs, hstep, hfold]⟩
        rw [memberTokens]
        have hmore := spaced_member.mpr ⟨later, later'', hkey, ht, hms⟩
        exact begins_append.mpr ⟨later', hseparator, hmore⟩
      · cases h

theorem lt_length_memberTokens (first : Bool) (ms : List (List Glyph × Tree)) :
    ms.length < (memberTokens first ms).length := by
  induction ms generalizing first with
  | nil => simp [memberTokens]
  | cons m ms ih =>
    have := ih false
    simp only [memberTokens, List.length_append, List.length_cons]
    omega

theorem readMembers_of_spaced (hmember : ReadsMember member step) {bound : Nat} {first : Bool}
    {state state' : σ} {ms : List (List Glyph × Tree)} (h : Spaced (memberTokens first ms) s rest)
    (hms : foldMembers step state ms = some state') (hbound : ms.length < bound) :
    readMembers member bound first state s = .ok (state', rest) := by
  induction bound generalizing first state s ms with
  | zero => exact absurd hbound (Nat.not_lt_zero _)
  | succ bound ih =>
    cases ms with
    | nil =>
      cases hms
      have hend : Spaced [.closeObject] s rest := h
      simp only [readMembers, nextKey_of_end hend, endObject_of_spaced hend]
    | cons m ms =>
      obtain ⟨glyphs, t⟩ := m
      obtain ⟨key, hglyphs, hstep⟩ := Option.bind_eq_some_iff.mp hms
      obtain ⟨next, hnext, hfold⟩ := Option.bind_eq_some_iff.mp hstep
      rw [memberTokens] at h
      obtain ⟨later, hseparator, hlater⟩ := begins_append.mp h
      obtain ⟨colon, later', hkey, ht, hmore⟩ := spaced_member.mp hlater
      have hvalue := hmember.complete ht (ends_members hmore) hnext
      simp only [readMembers, nextKey_of_spaced hseparator hkey hglyphs, hvalue]
      exact ih hmore hfold (Nat.lt_of_succ_lt_succ hbound)

/-- **An object is read as what its members lead to.** -/
theorem readObject_eq_ok_iff (hmember : ReadsMember member step) {start state : σ} :
    readObject member start s = .ok (state, rest) ↔
      ∃ ms, Spaced (memberTokens true ms) s rest ∧ foldMembers step start ms = some state := by
  constructor
  · exact exists_of_readMembers hmember
  · rintro ⟨ms, hms, hfold⟩
    have hlength := length_add_le_of_begins hms
    have hbound := lt_length_memberTokens true ms
    exact readMembers_of_spaced hmember hms hfold (by omega)

end Members

end Json

end ImportAlias
