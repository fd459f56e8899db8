import Mathlib.Data.List.Basic
import ImportAlias.Mapping

/-!
# What a key matches

A key `L₀*L₁*…*Lₙ` matches the specifiers of the form `L₀ c₁ L₁ c₂ … cₙ Lₙ` in which no capture
`cᵢ` is empty or has a line break. Where a specifier has this form in more than one way, the
captures that are reported are those that leave as much as possible to `c₁`, then to `c₂`, and so
on.

The matcher never tries a way and gives it up. It reads the specifier from its end and places the
last run first, each run as far to the right as it goes. That this finds a way whenever there is
one, and the preferred one, is one induction: whatever other way there is, the text in front of a
run that was placed begins with the text that the other way has in front of that run
(`exists_place_of_spread`). So no capture starts to lag behind the other way's before an earlier one
has got ahead.
-/

namespace ImportAlias

namespace Pattern

/-! ### Ways to read a specifier -/

/-- The text `L₀ c₁ L₁ … cₙ Lₙ` that captures make of a pattern. -/
def assemble (p : Pattern) (captures : List Text) : Text :=
  p.lead ++ (List.zipWith (· ++ ·) captures p.runs).flatten

/-- The captures, one for each wildcard and none of them empty, make the specifier. -/
structure Splits (p : Pattern) (id : Text) (captures : List Text) : Prop where
  length_eq : captures.length = p.runs.length
  nonempty : ∀ c ∈ captures, c ≠ []
  assemble_eq : p.assemble captures = id

/-- The captures make the specifier, and none of them has a line break. -/
structure Matches (p : Pattern) (id : Text) (captures : List Text) : Prop extends
    Splits p id captures where
  oneLine : ∀ c ∈ captures, '\n' ∉ c

/-- Captures are at least as greedy as others when the first is longer, or both are of one length
and the captures behind them are at least as greedy. -/
def Greedier : List Text → List Text → Prop
  | c :: captures, d :: others =>
    d.length < c.length ∨ d.length = c.length ∧ Greedier captures others
  | _, _ => True

@[refl]
theorem Greedier.refl (captures : List Text) : Greedier captures captures := by
  induction captures with
  | nil => trivial
  | cons _ _ ih => exact .inr ⟨rfl, ih⟩

/-- Captures that are each at least as greedy as the other are of the same lengths. -/
theorem Greedier.lengths_eq {captures others : List Text} (h : Greedier captures others)
    (h' : Greedier others captures) (hlength : captures.length = others.length) :
    captures.map List.length = others.map List.length := by
  induction captures generalizing others with
  | nil => rw [List.eq_nil_of_length_eq_zero hlength.symm]
  | cons c captures ih =>
    obtain ⟨d, others, rfl⟩ := List.exists_cons_of_length_eq_add_one hlength.symm
    rcases h with h | ⟨hcd, h⟩
    · rcases h' with h' | ⟨hdc, -⟩ <;> omega
    · rcases h' with h' | ⟨-, h'⟩
      · omega
      · rw [List.map_cons, List.map_cons, hcd, ih h h' (Nat.succ.inj hlength)]

/-- One more capture at the end decides only between captures of the same lengths. -/
theorem Greedier.concat {captures others : List Text} (h : Greedier captures others)
    (hlength : captures.length = others.length) {c d : Text}
    (hlast : captures.map List.length = others.map List.length → d.length ≤ c.length) :
    Greedier (captures ++ [c]) (others ++ [d]) := by
  induction captures generalizing others with
  | nil =>
    rw [List.eq_nil_of_length_eq_zero hlength.symm] at hlast ⊢
    rcases Nat.lt_or_eq_of_le (hlast rfl) with hlt | heq
    · exact .inl hlt
    · exact .inr ⟨heq, trivial⟩
  | cons a captures ih =>
    obtain ⟨b, others, rfl⟩ := List.exists_cons_of_length_eq_add_one hlength.symm
    rcases h with h | ⟨hab, h⟩
    · exact .inl h
    · refine .inr ⟨hab, ih h (Nat.succ.inj hlength) fun heq => hlast ?_⟩
      rw [List.map_cons, List.map_cons, hab, heq]

namespace Splits

variable {p : Pattern} {id : Text} {captures others : List Text}

/-- The lengths of the captures say which captures they are. -/
theorem eq_of_lengths_eq (h : p.Splits id captures) (h' : p.Splits id others)
    (hlengths : captures.map List.length = others.map List.length) : captures = others := by
  have key : ∀ (captures others runs : List Text), captures.length = runs.length →
      captures.map List.length = others.map List.length →
      (List.zipWith (· ++ ·) captures runs).flatten =
        (List.zipWith (· ++ ·) others runs).flatten → captures = others := by
    intro captures
    induction captures with
    | nil =>
      intro others _ _ hlengths _
      exact (List.map_eq_nil_iff.mp hlengths.symm).symm
    | cons c captures ih =>
      intro others runs hruns hlengths hflatten
      obtain ⟨run, runs, rfl⟩ := List.exists_cons_of_length_eq_add_one hruns.symm
      obtain ⟨d, others, rfl, hd, hrest⟩ := List.map_eq_cons_iff.mp hlengths.symm
      simp only [List.zipWith_cons_cons, List.flatten_cons, List.append_assoc] at hflatten
      obtain ⟨rfl, htail⟩ := List.append_inj hflatten hd.symm
      have hbehind := (List.append_right_inj run).mp htail
      rw [ih others runs (Nat.succ.inj hruns) hrest.symm hbehind]
  refine key captures others p.runs h.length_eq hlengths ?_
  exact (List.append_right_inj p.lead).mp (h.assemble_eq.trans h'.assemble_eq.symm)

/-- The line breaks of the specifier that are not in its captures are those of the pattern. -/
theorem count_eq (h : p.Splits id captures) (c : Char) :
    id.count c = p.lead.count c + (captures.flatten.count c + p.runs.flatten.count c) := by
  have key : ∀ captures runs : List Text, captures.length = runs.length →
      (List.zipWith (· ++ ·) captures runs).flatten.count c =
        captures.flatten.count c + runs.flatten.count c := by
    intro captures
    induction captures with
    | nil =>
      intro runs hruns
      rw [List.eq_nil_of_length_eq_zero hruns.symm]
      rfl
    | cons capture captures ih =>
      intro runs hruns
      obtain ⟨run, runs, rfl⟩ := List.exists_cons_of_length_eq_add_one hruns.symm
      simp only [List.zipWith_cons_cons, List.flatten_cons, List.count_append,
        ih runs (Nat.succ.inj hruns)]
      omega
  rw [← h.assemble_eq, assemble, List.count_append, key captures p.runs h.length_eq]

/-- **Where one way keeps to one line, every way does.** -/
theorem matches_of_matches (h : p.Splits id captures) (h' : p.Matches id others) :
    p.Matches id captures := by
  refine ⟨h, fun c hc hbreak => ?_⟩
  have hzero : others.flatten.count '\n' = 0 := by
    refine List.count_eq_zero.mpr fun hmem => ?_
    obtain ⟨d, hd, hbreak⟩ := List.mem_flatten.mp hmem
    exact h'.oneLine d hd hbreak
  have hpositive : 0 < captures.flatten.count '\n' :=
    List.count_pos_iff.mpr (List.mem_flatten_of_mem hc hbreak)
  have hcount := (h.count_eq '\n').symm.trans (h'.count_eq '\n')
  omega

end Splits

/-- A pattern without wildcards matches its lead only. -/
theorem matches_nil_iff {lead unread : Text} {captures : List Text} :
    Matches ⟨lead, []⟩ unread captures ↔ captures = [] ∧ unread = lead := by
  constructor
  · intro h
    obtain rfl : captures = [] := List.eq_nil_of_length_eq_zero h.length_eq
    exact ⟨rfl, by simpa [assemble] using h.assemble_eq.symm⟩
  · rintro ⟨rfl, rfl⟩
    exact ⟨⟨rfl, by simp, by simp [assemble]⟩, by simp⟩

/-- Behind the lead and the first capture another pattern matches. -/
theorem matches_cons_iff {lead run unread : Text} {runs captures : List Text} :
    Matches ⟨lead, run :: runs⟩ unread captures ↔
      ∃ taken behind others, captures = taken :: others ∧ taken ≠ [] ∧ '\n' ∉ taken ∧
        lead ++ (taken ++ behind) = unread ∧ Matches ⟨run, runs⟩ behind others := by
  constructor
  · intro h
    obtain ⟨taken, others, rfl⟩ := List.exists_cons_of_length_eq_add_one h.length_eq
    refine ⟨taken, _, others, rfl, h.nonempty _ List.mem_cons_self, h.oneLine _ List.mem_cons_self,
      ?_, ⟨⟨Nat.succ.inj h.length_eq, fun c hc => h.nonempty c (List.mem_cons_of_mem _ hc), rfl⟩,
        fun c hc => h.oneLine c (List.mem_cons_of_mem _ hc)⟩⟩
    rw [← h.assemble_eq]
    simp [assemble]
  · rintro ⟨taken, behind, others, rfl, hne, honeLine, rfl, h⟩
    refine ⟨⟨congrArg (· + 1) h.length_eq, ?_, ?_⟩, ?_⟩
    · simpa [hne] using h.nonempty
    · rw [← h.assemble_eq]
      simp [assemble]
    · simpa [honeLine] using h.oneLine

/-! ### Runs placed from the end -/

/-- The text is `lead`, captures, and runs between any two of them. Runs and captures are given
last first, as they are met. -/
inductive Spread (lead : Text) : List Text → List Text → Text → Prop
  | first {c : Text} (hc : c ≠ []) : Spread lead [] [c] (lead ++ c)
  | next {runs captures : List Text} {text run c : Text} (h : Spread lead runs captures text)
    (hc : c ≠ []) : Spread lead (run :: runs) (c :: captures) (text ++ run ++ c)

namespace Spread

variable {lead text : Text} {runs captures : List Text}

theorem length_captures (h : Spread lead runs captures text) :
    captures.length = runs.length + 1 := by
  induction h with
  | first => rfl
  | next _ _ ih => rw [List.length_cons, List.length_cons, ih]

theorem length_text (h : Spread lead runs captures text) :
    text.length = lead.length + (captures.flatten.length + runs.flatten.length) := by
  induction h with
  | first => simp
  | next _ _ ih =>
    simp only [List.length_append, List.flatten_cons, ih]
    omega

end Spread

/-- **The specifier without its last run** is spread over the captures and the runs before it. -/
theorem splits_iff_spread {lead last id : Text} {runs captures : List Text} :
    Splits ⟨lead, runs.reverse ++ [last]⟩ id captures ↔
      ∃ text, id = text ++ last ∧ Spread lead runs captures.reverse text := by
  constructor
  · intro h
    induction runs generalizing last id captures with
    | nil =>
      obtain ⟨c, rfl⟩ := List.length_eq_one_iff.mp h.length_eq
      refine ⟨lead ++ c, ?_, .first (h.nonempty c List.mem_cons_self)⟩
      rw [← h.assemble_eq]
      simp [assemble]
    | cons run runs ih =>
      have hlength := h.length_eq
      have hne : captures ≠ [] := by
        rintro rfl
        simp at hlength
      obtain ⟨captures, c, rfl⟩ := (List.eq_nil_or_concat captures).resolve_left hne
      rw [List.concat_eq_append] at h hlength ⊢
      have hlength' : captures.length = (runs.reverse ++ [run]).length := by simpa using hlength
      have hbefore : Splits ⟨lead, runs.reverse ++ [run]⟩ _ captures :=
        ⟨hlength', fun d hd => h.nonempty d (List.mem_append_left _ hd), rfl⟩
      obtain ⟨text, htext, hspread⟩ := ih hbefore
      refine ⟨text ++ run ++ c, ?_, ?_⟩
      · rw [← h.assemble_eq, ← htext]
        simp only [assemble, List.reverse_cons]
        rw [List.zipWith_append hlength']
        simp
      · rw [List.reverse_concat]
        exact .next hspread (h.nonempty c (by simp))
  · rintro ⟨text, rfl, h⟩
    obtain ⟨reversed, rfl⟩ : ∃ reversed, captures = reversed.reverse :=
      ⟨captures.reverse, captures.reverse_reverse.symm⟩
    rw [List.reverse_reverse] at h
    induction h generalizing last with
    | first hc => exact ⟨rfl, by simpa using hc, by simp [assemble]⟩
    | @next runs captures text run c hspread hc ih =>
      have hbefore : Splits ⟨lead, runs.reverse ++ [run]⟩ (text ++ run) captures.reverse := ih
      obtain ⟨hlength, hnonempty, hassemble⟩ := hbefore
      refine ⟨by simpa using hlength, ?_, ?_⟩
      · simpa [hc, or_imp, forall_and] using hnonempty
      · simp only [assemble, List.reverse_cons] at hassemble ⊢
        rw [List.zipWith_append hlength, List.flatten_append, ← List.append_assoc, hassemble]
        simp

/-! ### The matcher -/

section TakeGap

variable {run unread : Text}

/-- What is taken is a run with a gap in front of it. -/
theorem exists_of_takeGap {gap gap' rest : Text} (h : takeGap run gap unread = some (gap', rest)) :
    ∃ passed, passed ≠ [] ∧ gap' = passed.reverse ++ gap ∧ unread = passed ++ run ++ rest := by
  induction unread generalizing gap with
  | nil => cases h
  | cons c unread ih =>
    rw [takeGap] at h
    split at h
    · rename_i rest' hrest
      cases h
      rw [List.isPrefixOf?_eq_some_iff_append_eq] at hrest
      exact ⟨[c], by simp, rfl, by simp [hrest]⟩
    · obtain ⟨passed, -, rfl, rfl⟩ := ih h
      exact ⟨c :: passed, by simp, by simp, rfl⟩

/-- The gap is the shortest that a run comes after. -/
theorem exists_takeGap {passed rest : Text} (hpassed : passed ≠ []) (gap : Text)
    (h : unread = passed ++ run ++ rest) :
    ∃ gap' rest', takeGap run gap unread = some (gap', rest') ∧
      gap'.length ≤ passed.length + gap.length := by
  induction unread generalizing passed gap with
  | nil =>
    have happend := (List.append_eq_nil_iff.mp h.symm).1
    exact absurd (List.append_eq_nil_iff.mp happend).1 hpassed
  | cons c unread ih =>
    obtain ⟨d, passed, rfl⟩ := List.exists_cons_of_ne_nil hpassed
    obtain ⟨rfl, hunread⟩ : c = d ∧ unread = passed ++ run ++ rest := by simpa using h
    rw [takeGap]
    split
    · exact ⟨_, _, rfl, by simp only [List.length_cons]; omega⟩
    · rename_i hnone
      have hne : passed ≠ [] := by
        rintro rfl
        have hsome := List.isPrefixOf?_eq_some_iff_append_eq.mpr hunread.symm
        rw [List.nil_append, hnone] at hsome
        cases hsome
      obtain ⟨gap', rest', htake, hle⟩ := ih hne (c :: gap) hunread
      exact ⟨gap', rest', htake, by simp only [List.length_cons] at hle ⊢; omega⟩

/-- In reading order: the text ends in the run and a gap that is not empty. -/
theorem exists_of_takeGap_reverse {text gap rest : Text}
    (h : takeGap run.reverse [] text.reverse = some (gap, rest)) :
    ∃ front, rest = front.reverse ∧ gap ≠ [] ∧ text = front ++ run ++ gap := by
  obtain ⟨passed, hpassed, rfl, hunread⟩ := exists_of_takeGap h
  refine ⟨rest.reverse, rest.reverse_reverse.symm, by simpa using hpassed, ?_⟩
  rw [← List.reverse_inj, hunread]
  simp

/-- A run that stands somewhere before something is taken there or further to the right. -/
theorem exists_takeGap_reverse {start behind : Text} (hbehind : behind ≠ []) :
    ∃ gap front, takeGap run.reverse [] (start ++ run ++ behind).reverse =
        some (gap, front.reverse) ∧
      gap ≠ [] ∧ start ++ run ++ behind = front ++ run ++ gap ∧ start <+: front := by
  have hunread : (start ++ run ++ behind).reverse =
      behind.reverse ++ run.reverse ++ start.reverse := by simp
  obtain ⟨gap, rest, htake, hgap⟩ := exists_takeGap (by simpa using hbehind) [] hunread
  obtain ⟨front, rfl, hne, htext⟩ := exists_of_takeGap_reverse htake
  have hlength := congrArg List.length htext
  simp only [List.length_append] at hlength
  refine ⟨gap, front, htake, hne, htext, ?_⟩
  have hstart : start <+: start ++ run ++ behind := ⟨run ++ behind, by simp⟩
  have hfront : front <+: start ++ run ++ behind := ⟨run ++ gap, by rw [htext, List.append_assoc]⟩
  refine List.prefix_of_prefix_length_le hstart hfront ?_
  simp only [List.length_reverse, List.length_nil] at hgap
  omega

end TakeGap

section Place

variable {lead text : Text} {runs found : List Text}

/-- The runs are placed so that what is left to the captures is not empty. -/
theorem exists_spread_of_place {all : List Text}
    (h : place lead (runs.map List.reverse) found text.reverse = some all) :
    ∃ captures, Spread lead runs captures text ∧ all = captures.reverse ++ found := by
  induction runs generalizing text found with
  | nil =>
    rw [List.map_nil, place, List.reverse_reverse] at h
    split at h
    · rename_i c gap hrest
      cases h
      rw [List.isPrefixOf?_eq_some_iff_append_eq] at hrest
      exact ⟨[c :: gap], hrest ▸ .first (by simp), rfl⟩
    · cases h
  | cons run runs ih =>
    rw [List.map_cons, place] at h
    split at h
    · rename_i gap rest htake
      obtain ⟨front, rfl, hgap, rfl⟩ := exists_of_takeGap_reverse htake
      obtain ⟨captures, hspread, rfl⟩ := ih h
      exact ⟨gap :: captures, .next hspread hgap, by simp⟩
    · cases h

/-- **Whatever way there is, the runs are placed**, and the captures are at least as greedy. The
other way may end early: all that counts is that the text begins with what it spreads over. -/
theorem exists_place_of_spread {others : List Text} {start : Text}
    (h : Spread lead runs others start) (found : List Text) (hstart : start <+: text) :
    ∃ captures, place lead (runs.map List.reverse) found text.reverse =
        some (captures.reverse ++ found) ∧
      Spread lead runs captures text ∧ Greedier captures.reverse others.reverse := by
  induction h generalizing text found with
  | @first d hd =>
    obtain ⟨more, rfl⟩ := hstart
    have hprefix : lead.isPrefixOf? (lead ++ d ++ more) = some (d ++ more) :=
      List.isPrefixOf?_eq_some_iff_append_eq.mpr (List.append_assoc ..).symm
    obtain ⟨c, d, rfl⟩ := List.exists_cons_of_ne_nil hd
    refine ⟨[c :: d ++ more], ?_, ?_, ?_⟩
    · rw [List.map_nil, place, List.reverse_reverse, hprefix]
      rfl
    · rw [List.append_assoc]
      exact .first (by simp)
    · simp only [List.reverse_singleton, Greedier, List.length_append, and_true]
      omega
  | @next runs others start run d hspread hd ih =>
    obtain ⟨more, rfl⟩ := hstart
    rw [List.append_assoc _ d]
    have hbehind : d ++ more ≠ [] := by simp [hd]
    obtain ⟨gap, front, htake, hgap, htext, hbegin⟩ := exists_takeGap_reverse hbehind
    obtain ⟨captures, hplace, hspread', hgreedier⟩ := ih (gap :: found) hbegin
    refine ⟨gap :: captures, ?_, htext ▸ .next hspread' hgap, ?_⟩
    · rw [List.map_cons, place, htake]
      simpa using hplace
    · -- With earlier captures of the same lengths both ways have the run in the same place.
      rw [List.reverse_cons, List.reverse_cons]
      refine hgreedier.concat ?_ fun hlengths => ?_
      · rw [List.length_reverse, List.length_reverse, hspread'.length_captures,
          hspread.length_captures]
      · have htotal : captures.flatten.length = others.flatten.length := by
          rw [List.map_reverse, List.map_reverse, List.reverse_inj] at hlengths
          rw [List.length_flatten, List.length_flatten, hlengths]
        have hlength := congrArg List.length htext
        simp only [List.length_append, hspread'.length_text, hspread.length_text, htotal]
          at hlength
        omega

end Place

variable {p : Pattern} {id : Text} {captures : List Text}

/-- A pattern without wildcards. -/
theorem split?_of_nil (lead id : Text) :
    split? ⟨lead, []⟩ id = if id = lead then some [] else none := rfl

/-- A pattern whose last run is known. -/
theorem split?_of_concat {lead last : Text} {runs : List Text} (id : Text) :
    split? ⟨lead, runs.reverse ++ [last]⟩ id =
      match last.reverse.isPrefixOf? id.reverse with
      | some unread => place lead (runs.map List.reverse) [] unread
      | none => none := by
  have hruns : ((runs.reverse ++ [last]).map List.reverse).reverse =
      last.reverse :: runs.map List.reverse := by simp
  cases hlast : last.reverse.isPrefixOf? id.reverse <;> simp only [split?, hruns, hlast]

/-- **What is found is a way to read the specifier.** -/
theorem splits_of_split? (h : p.split? id = some captures) : p.Splits id captures := by
  obtain ⟨lead, runs⟩ := p
  rcases List.eq_nil_or_concat runs with rfl | ⟨before, last, rfl⟩
  · rw [split?_of_nil] at h
    split at h
    · rename_i hid
      cases h
      exact ⟨rfl, by simp, by simpa [assemble] using hid.symm⟩
    · cases h
  · obtain ⟨runs, rfl⟩ : ∃ runs : List Text, before = runs.reverse := ⟨_, before.reverse_reverse.symm⟩
    rw [List.concat_eq_append] at h ⊢
    rw [split?_of_concat] at h
    split at h
    · rename_i unread hunread
      rw [List.isPrefixOf?_eq_some_iff_append_eq] at hunread
      obtain ⟨text, rfl⟩ : ∃ text : Text, unread = text.reverse := ⟨_, unread.reverse_reverse.symm⟩
      obtain ⟨found, hspread, rfl⟩ := exists_spread_of_place h
      refine splits_iff_spread.mpr ⟨text, ?_, by simpa using hspread⟩
      rw [← List.reverse_inj, List.reverse_append, hunread]
    · cases h

/-- **Where there is a way to read the specifier one is found**, and it is at least as greedy. -/
theorem exists_split?_of_splits {others : List Text} (h : p.Splits id others) :
    ∃ captures, p.split? id = some captures ∧ Greedier captures others := by
  obtain ⟨lead, runs⟩ := p
  rcases List.eq_nil_or_concat runs with rfl | ⟨before, last, rfl⟩
  · have hid : id = lead := by simpa [assemble] using h.assemble_eq.symm
    exact ⟨[], by rw [split?_of_nil, if_pos hid], trivial⟩
  · obtain ⟨runs, rfl⟩ : ∃ runs : List Text, before = runs.reverse := ⟨_, before.reverse_reverse.symm⟩
    rw [List.concat_eq_append] at h ⊢
    obtain ⟨text, rfl, hspread⟩ := splits_iff_spread.mp h
    obtain ⟨captures, hplace, -, hgreedier⟩ :=
      exists_place_of_spread hspread [] (List.prefix_refl text)
    have hlast : last.reverse.isPrefixOf? (text ++ last).reverse = some text.reverse :=
      List.isPrefixOf?_eq_some_iff_append_eq.mpr List.reverse_append.symm
    refine ⟨captures.reverse, ?_, by simpa using hgreedier⟩
    rw [split?_of_concat, hlast]
    simpa using hplace

/-- Of two ways that are each at least as greedy as the other there is only one. -/
theorem Splits.eq_of_greedier {others : List Text} (h : p.Splits id captures)
    (h' : p.Splits id others) (hgreedier : Greedier captures others)
    (hgreedier' : Greedier others captures) : captures = others :=
  h.eq_of_lengths_eq h'
    (hgreedier.lengths_eq hgreedier' (h.length_eq.trans h'.length_eq.symm))

/-- Captures are found when the runs can be placed with no line break between them. -/
theorem captures?_eq_some_iff_split? :
    p.captures? id = some captures ↔ p.split? id = some captures ∧ ∀ c ∈ captures, '\n' ∉ c := by
  simp [captures?, Option.filter_eq_some_iff]

/-- What is found matches. -/
theorem matches_of_captures? (h : p.captures? id = some captures) : p.Matches id captures := by
  rw [captures?_eq_some_iff_split?] at h
  exact ⟨splits_of_split? h.1, h.2⟩

/-- **Where captures match, some are found**, and they are at least as greedy. -/
theorem exists_captures?_of_matches {others : List Text} (h : p.Matches id others) :
    ∃ captures, p.captures? id = some captures ∧ Greedier captures others := by
  obtain ⟨captures, hsplit, hgreedier⟩ := exists_split?_of_splits h.toSplits
  have honeLine := ((splits_of_split? hsplit).matches_of_matches h).oneLine
  refine ⟨captures, ?_, hgreedier⟩
  rw [captures?_eq_some_iff_split?]
  exact ⟨hsplit, honeLine⟩

/-- **The captures of a specifier** are the greediest of those that match it. -/
theorem captures?_eq_some_iff :
    p.captures? id = some captures ↔
      p.Matches id captures ∧ ∀ others, p.Matches id others → Greedier captures others := by
  constructor
  · refine fun h => ⟨matches_of_captures? h, fun others hothers => ?_⟩
    obtain ⟨found, hfound, hgreedier⟩ := exists_captures?_of_matches hothers
    cases hfound.symm.trans h
    exact hgreedier
  · rintro ⟨h, hgreediest⟩
    obtain ⟨found, hfound, hgreedier⟩ := exists_captures?_of_matches h
    have hmatches := matches_of_captures? hfound
    obtain rfl := hmatches.toSplits.eq_of_greedier h.toSplits hgreedier (hgreediest found hmatches)
    exact hfound

/-- A specifier has captures exactly when some captures match it. -/
theorem captures?_isSome_iff : (p.captures? id).isSome ↔ ∃ captures, p.Matches id captures := by
  rw [Option.isSome_iff_exists]
  constructor
  · rintro ⟨captures, h⟩
    exact ⟨captures, matches_of_captures? h⟩
  · rintro ⟨others, h⟩
    obtain ⟨captures, hcaptures, -⟩ := exists_captures?_of_matches h
    exact ⟨captures, hcaptures⟩

end Pattern

end ImportAlias
