import ImportAlias.Config.Reader
import ImportAlias.Proofs.Json.Faults
import ImportAlias.Proofs.Jsonc.Lines

/-!
# Where a configuration is at fault

A configuration is read without its comments and trailing commas, and the place of a fault is a
place in what is left. Its line is a line of the configuration as it was written: that of the
character on which the place lies, wherever that character stands there (`cleaned_keeps_lines`).
-/

namespace ImportAlias

namespace Config

open Json Jsonc

variable {α σ : Type}

/-! ### The readers of a configuration -/

theorem within_readTemplates (s : Text) : Within Prod.snd s (readTemplates s) :=
  within_readArray within_readText s

theorem within_pathsMember (table : PathsTable) (key s : Text) :
    Within Prod.snd s (pathsMember table key s) := by
  unfold pathsMember
  refine (within_readColon s).elim (fun rest hrest => .mono ?_ hrest) (fun _ h => .error h)
  dsimp only
  exact (within_readTemplates rest).elim (fun _ h => .ok h) (fun _ h => .error h)

theorem within_readPaths (s : Text) : Within Prod.snd s (readPaths s) := by
  refine Within.mono ?_ (skipSpace_suffix s)
  unfold readPaths
  split
  · rename_i hs
    rw [hs]
    exact (within_readObject within_pathsMember _ _).cons _
  · exact .error (mistyped_suffix _ _)

theorem within_skipMember (state : σ) (s : Text) : Within Prod.snd s (skipMember state s) := by
  unfold skipMember
  refine (within_readColon s).elim (fun rest hrest => .mono ?_ hrest) (fun _ h => .error h)
  dsimp only
  exact (within_skipValue rest).elim (fun _ h => .ok h) (fun _ h => .error h)

theorem within_readOnce {read : Text → Read α} (hread : ∀ s, Within Prod.snd s (read s))
    (seen : Option α) (key s : Text) : Within Prod.snd s (readOnce read seen key s) := by
  unfold readOnce
  split
  · exact .error (endObject_suffix s)
  refine (within_readColon s).elim (fun rest hrest => .mono ?_ hrest) (fun _ h => .error h)
  dsimp only
  exact (hread rest).elim (fun _ h => .ok h) (fun _ h => .error h)

theorem within_optionsMember (d : Declared) (key s : Text) :
    Within Prod.snd s (optionsMember d key s) := by
  unfold optionsMember
  split
  · exact (within_readOnce (within_readNullable within_readText) _ _ s).elim
      (fun _ h => .ok h) (fun _ h => .error h)
  split
  · exact (within_readOnce (within_readNullable within_readPaths) _ _ s).elim
      (fun _ h => .ok h) (fun _ h => .error h)
  · exact within_skipMember d s

theorem within_readPositional {read : Text → Read α} (hread : ∀ s, Within Prod.snd s (read s))
    (first : Bool) (s : Text) : Within Prod.snd s (readPositional read first s) := by
  unfold readPositional
  refine (within_nextElement first s).elim (fun next hnext => ?_) (fun _ h => .error h)
  cases next <;> dsimp only
  case none => exact .ok (List.suffix_refl s)
  case some later =>
    refine Within.mono ?_ hnext
    exact (hread later).elim (fun _ h => .ok h) (fun _ h => .error h)

theorem within_readOptionsArray (s : Text) : Within Prod.snd s (readOptionsArray s) := by
  unfold readOptionsArray
  refine (within_readPositional (within_readNullable within_readText) true s).elim
    (fun baseUrl hbaseUrl => .mono ?_ hbaseUrl) (fun _ h => .error h)
  dsimp only
  refine (within_readPositional (within_readNullable within_readPaths) _ _).elim
    (fun paths hpaths => .mono ?_ hpaths) (fun _ h => .error h)
  dsimp only
  exact (within_endArray paths.2).elim (fun _ h => .ok h) (fun _ h => .error h)

theorem within_readOptions (s : Text) : Within Prod.snd s (readOptions s) := by
  refine Within.mono ?_ (skipSpace_suffix s)
  unfold readOptions
  split
  · rename_i rest hs
    rw [hs]
    refine Within.cons ?_ _
    exact (within_readObject within_optionsMember {} rest).elim
      (fun _ h => .ok h) (fun _ h => .error h)
  · rename_i hs
    rw [hs]
    exact (within_readOptionsArray _).cons _
  · exact .error (mistyped_suffix _ _)

theorem within_fileMember (seen : Option PathOptions) (key s : Text) :
    Within Prod.snd s (fileMember seen key s) := by
  unfold fileMember
  split
  · exact within_readOnce within_readOptions seen key s
  · exact within_skipMember seen s

theorem within_readFile (s : Text) : Within Prod.snd s (readFile s) := by
  refine Within.mono ?_ (skipSpace_suffix s)
  unfold readFile
  split
  · rename_i rest hs
    rw [hs]
    refine Within.cons ?_ _
    exact (within_readObject within_fileMember none rest).elim
      (fun _ h => .ok h) (fun _ h => .error h)
  · rename_i rest hs
    rw [hs]
    refine Within.cons ?_ _
    refine (within_readPositional within_readOptions true rest).elim
      (fun options hoptions => .mono ?_ hoptions) (fun _ h => .error h)
    dsimp only
    exact (within_endArray options.2).elim (fun _ h => .ok h) (fun _ h => .error h)
  · exact .error (mistyped_suffix _ _)

/-! ### The line of a fault -/

/-- What is wrong with a document is reported at a character of it, or at its end. -/
theorem exists_liesOn_of_readDocument {read : Text → Read α}
    (hread : ∀ s, Within Prod.snd s (read s)) {s : Text} {e : SyntaxError} :
    readDocument read s = .error e → ∃ k ≤ s.length, e.position.LiesOn s k := by
  unfold readDocument
  refine (hread s).elim (fun result hresult h => ?_) (fun fault hfault h => ?_)
  · dsimp only at h
    split at h
    · cases h
    · obtain rfl := Except.error.inj h
      exact exists_liesOn_locate ((skipSpace_suffix _).trans hresult)
  · obtain rfl := Except.error.inj h
    exact exists_liesOn_locate hfault

/-- **Cleaning keeps lines.** What is left of a text without its comments and trailing commas has
its characters in the text, in the same order. However they are placed there, every line break of
the text is the place of one, and every character has as many line breaks before it as there are
before its place. So the lines are those of the text, with characters taken out of them.

What is wrong with a configuration is therefore reported with a line of its own text: that of the
character on which the place lies, or the last one if what is left of the text ends too early. -/
theorem cleaned_keeps_lines (source : Text) :
    let left : Text := dropTrailingCommas (stripComments source)
    (Nonempty (Placement left source) ∧
      (∀ p : Placement left source,
        (∀ j, source.get j = '\n' → ∃ i, p.place i = j) ∧
        ∀ i : Fin left.length,
          (left.take i).count '\n' = (source.take (p.place i)).count '\n') ∧
      List.Forall₂ List.Sublist (left.splitOn '\n') (source.splitOn '\n')) ∧
    ∀ e, parse source = .error e →
      (∃ i : Fin left.length, e.position.LiesOn left i ∧
        ∀ p : Placement left source,
          e.position.line = 1 + (source.take (p.place i)).count '\n') ∨
      (e.position = .before left left.length ∧ e.position.line = 1 + source.count '\n') := by
  intro left
  have h : KeepsLines left source := keepsLines_cleaned source
  refine ⟨⟨Placement.nonempty_iff.mpr h.sublist, fun p => ⟨?_, p.count_take h⟩,
    h.forall₂_splitOn⟩, fun e he => ?_⟩
  · exact fun j hj => p.exists_place_of_break h hj
  · obtain ⟨k, hk, hlies⟩ := exists_liesOn_of_readDocument within_readFile he
    rcases hk.lt_or_eq with hk | rfl
    · refine .inl ⟨⟨k, hk⟩, hlies, fun p => ?_⟩
      rw [← p.count_take h]
      exact hlies.line_eq
    · refine .inr ⟨hlies.eq_before, ?_⟩
      rw [hlies.line_eq, List.take_length, h.count_eq]

/-- The line of a comma without a value before it is the second, although the comment that begins
on the first is taken out. -/
example : (parse "/* a\n   b */ \x7b,]".toList).mapError (·.position.line) = .error 2 := by cbv

end Config

end ImportAlias
