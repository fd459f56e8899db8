import ImportAlias.Config.Reader
import ImportAlias.Proofs.Json.Typed

/-!
# What a configuration means

The options that a document declares are a function of its tree (`Config.meaning`), defined here
without a reader: which members count, what null and absence mean, that neither option and no set
of options may be declared twice, and that objects may be given by the list of their values.

The main statement, `Config.parseStrict_eq_ok_iff`, is that strict parsing finds exactly this. As a
text is at most one document, the layout of the text has no part in the answer.
-/

namespace ImportAlias

namespace Config

open Json

variable {α σ : Type}

/-! ### The meaning of a tree -/

/-- The templates that a tree means. -/
def templates? : Tree → Option (List Text) := Tree.elements? Tree.text?

/-- Take up one entry of a `paths` table. -/
def pathsStep (table : PathsTable) (key : Text) (t : Tree) : Option PathsTable :=
  (templates? t).map (table.insert key)

/-- The `paths` table that a tree means. -/
def paths? : Tree → Option PathsTable
  | .object ms => foldMembers pathsStep .empty ms
  | _ => none

/-- The meaning of a member that may come only once, of which `seen` was met so far. -/
def once (meaning : Tree → Option α) (seen : Option α) (t : Tree) : Option (Option α) :=
  if seen.isSome then none else (meaning t).map some

/-- Take up one member of the options. -/
def optionsStep (d : Declared) (key : Text) (t : Tree) : Option Declared :=
  if key = "baseUrl".toList then
    (once (Tree.nullable Tree.text?) d.baseUrl t).map fun baseUrl => { d with baseUrl }
  else if key = "paths".toList then
    (once (Tree.nullable paths?) d.paths t).map fun paths => { d with paths }
  else some d

/-- What options declare that are given by the list of their values. -/
def listed? : List Tree → Option Declared
  | [] => some {}
  | [t] => (Tree.nullable Tree.text? t).map fun baseUrl => ⟨some baseUrl, none⟩
  | [t, u] =>
    (Tree.nullable Tree.text? t).bind fun baseUrl =>
      (Tree.nullable paths? u).map fun paths => ⟨some baseUrl, some paths⟩
  | _ => none

/-- The options that a tree means. -/
def options? : Tree → Option PathOptions
  | .object ms => (foldMembers optionsStep {} ms).map Declared.options
  | .list ts => (listed? ts).map Declared.options
  | .scalar _ => none

/-- Take up one member of a configuration. -/
def fileStep (seen : Option PathOptions) (key : Text) (t : Tree) : Option (Option PathOptions) :=
  if key = "compilerOptions".toList then once options? seen t else some seen

/-- The options that a whole configuration means. -/
def meaning : Tree → Option PathOptions
  | .object ms => (foldMembers fileStep none ms).map (·.getD {})
  | .list [] => some {}
  | .list [t] => options? t
  | _ => none

/-! ### Members -/

variable {s rest : Text}

theorem spaced_colon {t : Tree} :
    Spaced (.colon :: t.tokens) s rest ↔
      ∃ later, readColon s = .ok later ∧ Spaced t.tokens later rest := by
  simp only [readColon_eq_ok_iff]
  exact (begins_append : Spaced ([.colon] ++ t.tokens) s rest ↔ _)

theorem readsMember_paths : ReadsMember pathsMember pathsStep where
  sound {table key s table' rest} h := by
    unfold pathsMember at h
    split at h
    · cases h
    · rename_i later hcolon
      split at h
      · rename_i templates later' htemplates
        cases h
        obtain ⟨t, ht, hmeaning⟩ := (reads_elements reads_text).sound htemplates
        exact ⟨t, spaced_colon.mpr ⟨later, hcolon, ht⟩, by simp [pathsStep, templates?, hmeaning]⟩
      · cases h
  complete {table key s table' rest t} h hrest hstep := by
    obtain ⟨later, hcolon, ht⟩ := spaced_colon.mp h
    obtain ⟨templates, htemplates, rfl⟩ := Option.map_eq_some_iff.mp hstep
    have hread := (reads_elements reads_text).complete ht hrest htemplates
    simp only [pathsMember, hcolon, readTemplates, hread]

theorem reads_paths : Reads readPaths paths? where
  sound {s a rest} h := by
    unfold readPaths at h
    split at h
    · rename_i later hs
      obtain ⟨ms, hms, hfold⟩ := (readObject_eq_ok_iff readsMember_paths).mp h
      exact ⟨.object ms, spaced_object.mpr ⟨later, hs, hms⟩, hfold⟩
    · cases h
  complete {t s a rest} h _ ha := by
    unfold paths? at ha
    split at ha
    · obtain ⟨later, hs, hms⟩ := spaced_object.mp h
      rw [readPaths, hs]
      exact (readObject_eq_ok_iff readsMember_paths).mpr ⟨_, hms, ha⟩
    · cases ha

theorem exists_of_skipMember {state state' : σ} (h : skipMember state s = .ok (state', rest)) :
    state' = state ∧ ∃ t : Tree, Spaced (.colon :: t.tokens) s rest := by
  unfold skipMember at h
  split at h
  · cases h
  · rename_i later hcolon
    split at h
    · rename_i hskip
      cases h
      obtain ⟨t, ht⟩ := exists_tree_of_skipValue hskip
      exact ⟨rfl, t, spaced_colon.mpr ⟨later, hcolon, ht⟩⟩
    · cases h

theorem skipMember_of_spaced {t : Tree} (state : σ) (h : Spaced (.colon :: t.tokens) s rest)
    (hrest : Ends rest) : skipMember state s = .ok (state, rest) := by
  obtain ⟨later, hcolon, ht⟩ := spaced_colon.mp h
  simp only [skipMember, hcolon, skipValue_of_spaced ht hrest]

section Once

variable {read : Text → Read α} {meaning : Tree → Option α} {seen : Option α} {key : Text}

theorem exists_of_readOnce (hread : Reads read meaning) {a : Option α}
    (h : readOnce read seen key s = .ok (a, rest)) :
    ∃ t : Tree, Spaced (.colon :: t.tokens) s rest ∧ once meaning seen t = some a := by
  unfold readOnce at h
  split_ifs at h with hseen
  split at h
  · cases h
  · rename_i later hcolon
    split at h
    · rename_i b later' hb
      cases h
      obtain ⟨t, ht, hmeaning⟩ := hread.sound hb
      exact ⟨t, spaced_colon.mpr ⟨later, hcolon, ht⟩, by simp [once, hseen, hmeaning]⟩
    · cases h

theorem readOnce_of_spaced (hread : Reads read meaning) {a : Option α} {t : Tree}
    (h : Spaced (.colon :: t.tokens) s rest) (hrest : Ends rest)
    (ha : once meaning seen t = some a) : readOnce read seen key s = .ok (a, rest) := by
  obtain ⟨later, hcolon, ht⟩ := spaced_colon.mp h
  unfold once at ha
  split_ifs at ha with hseen
  obtain ⟨b, hb, rfl⟩ := Option.map_eq_some_iff.mp ha
  simp only [readOnce, if_neg hseen, hcolon, hread.complete ht hrest hb]

end Once

theorem readsMember_options : ReadsMember optionsMember optionsStep where
  sound {d key s d' rest} h := by
    unfold optionsMember at h
    unfold optionsStep
    split_ifs at h ⊢ with hbaseUrl hpaths
    · split at h
      · rename_i hread
        cases h
        obtain ⟨t, ht, ha⟩ := exists_of_readOnce (reads_nullable reads_text) hread
        exact ⟨t, ht, by rw [ha]; rfl⟩
      · cases h
    · split at h
      · rename_i hread
        cases h
        obtain ⟨t, ht, ha⟩ := exists_of_readOnce (reads_nullable reads_paths) hread
        exact ⟨t, ht, by rw [ha]; rfl⟩
      · cases h
    · obtain ⟨rfl, t, ht⟩ := exists_of_skipMember h
      exact ⟨t, ht, rfl⟩
  complete {d key s d' rest t} h hrest hstep := by
    unfold optionsStep at hstep
    unfold optionsMember
    split_ifs at hstep ⊢ with hbaseUrl hpaths
    · obtain ⟨baseUrl, ha, rfl⟩ := Option.map_eq_some_iff.mp hstep
      rw [readOnce_of_spaced (reads_nullable reads_text) h hrest ha]
    · obtain ⟨paths, ha, rfl⟩ := Option.map_eq_some_iff.mp hstep
      rw [readOnce_of_spaced (reads_nullable reads_paths) h hrest ha]
    · cases hstep
      exact skipMember_of_spaced d h hrest

/-! ### Lists of values -/

section Positional

variable {read : Text → Read α} {meaning : Tree → Option α} {first : Bool}

/-- A list that ends has no next value. -/
theorem readPositional_of_end (h : Spaced [.closeList] s rest) :
    readPositional read first s = .ok (none, s) := by
  simp only [readPositional, nextElement_eq_none_iff.mpr ⟨rest, h⟩]

theorem readPositional_of_spaced (hread : Reads read meaning) {t : Tree} {a : α} {later : Text}
    (h : Spaced (separator first) s later) (ht : Spaced t.tokens later rest) (hrest : Ends rest)
    (ha : meaning t = some a) : readPositional read first s = .ok (some a, rest) := by
  simp only [readPositional, nextElement_of_spaced h ht,
    hread.complete (spaced_tokens_skipSpace.mpr ht) hrest ha]

/-- The next value of a list was read, or the list ends. -/
theorem cases_of_readPositional (hread : Reads read meaning) {a : Option α}
    (h : readPositional read first s = .ok (a, rest)) :
    (a = none ∧ rest = s ∧ ∃ last, Spaced [.closeList] s last) ∨
      ∃ b t later, a = some b ∧ Spaced (separator first) s later ∧
        Spaced (Tree.tokens t) later rest ∧ meaning t = some b := by
  unfold readPositional at h
  split at h
  · cases h
  · rename_i hnone
    cases h
    exact .inl ⟨rfl, rfl, nextElement_eq_none_iff.mp hnone⟩
  · rename_i s' hnext
    split at h
    · rename_i b later' hb
      cases h
      obtain ⟨later, hseparator, rfl⟩ := exists_separator_of_nextElement hnext
      obtain ⟨t, ht, hmeaning⟩ := hread.sound hb
      exact .inr ⟨b, t, later, rfl, hseparator, spaced_tokens_skipSpace.mp ht, hmeaning⟩
    · cases h

end Positional

/-- **Options are read from the list of their values** as that list means. -/
theorem readOptionsArray_eq_ok_iff {o : PathOptions} :
    readOptionsArray s = .ok (o, rest) ↔
      ∃ ts, Spaced (elementTokens true ts) s rest ∧ (listed? ts).map Declared.options = some o := by
  have hbaseUrls := reads_nullable reads_text
  have hpaths := reads_nullable reads_paths
  constructor
  · intro h
    unfold readOptionsArray at h
    split at h
    · cases h
    rename_i baseUrl s₁ h₁
    split at h
    · cases h
    rename_i paths s₂ h₂
    split at h
    swap
    · cases h
    rename_i hend
    cases h
    have hclose := endArray_eq_ok_iff.mp hend
    obtain ⟨rfl, rfl, last, hlast⟩ | ⟨baseUrl, t, later, rfl, hfirst, ht, hmeaning⟩ :=
      cases_of_readPositional hbaseUrls h₁
    · rw [readPositional_of_end hlast] at h₂
      cases h₂
      exact ⟨[], hclose, rfl⟩
    obtain ⟨rfl, rfl, -⟩ | ⟨paths, u, later', rfl, hcomma, hu, hmeaning'⟩ :=
      cases_of_readPositional hpaths h₂
    · exact ⟨[t], begins_append.mpr ⟨later, hfirst, begins_append.mpr ⟨s₂, ht, hclose⟩⟩,
        by simp [listed?, hmeaning]⟩
    · exact ⟨[t, u], begins_append.mpr ⟨later, hfirst, begins_append.mpr ⟨s₁, ht,
        begins_append.mpr ⟨later', hcomma, begins_append.mpr ⟨s₂, hu, hclose⟩⟩⟩⟩,
        by simp [listed?, hmeaning, hmeaning']⟩
  · rintro ⟨ts, hts, h⟩
    obtain ⟨d, hd, rfl⟩ := Option.map_eq_some_iff.mp h
    match ts with
    | [] =>
      cases hd
      have hclose : Spaced [.closeList] s rest := hts
      simp only [readOptionsArray, readPositional_of_end hclose, endArray_eq_ok_iff.mpr hclose]
    | [t] =>
      obtain ⟨baseUrl, hmeaning, rfl⟩ := Option.map_eq_some_iff.mp hd
      obtain ⟨later, hfirst, hlater⟩ := begins_append.mp hts
      obtain ⟨s₁, ht, hclose⟩ := begins_append.mp hlater
      have hends := ends_of_spaced (by simp) hclose
      have h₁ := readPositional_of_spaced hbaseUrls hfirst ht hends hmeaning
      simp only [readOptionsArray, h₁, readPositional_of_end hclose, endArray_eq_ok_iff.mpr hclose]
    | [t, u] =>
      obtain ⟨baseUrl, hmeaning, hd⟩ := Option.bind_eq_some_iff.mp hd
      obtain ⟨paths, hmeaning', rfl⟩ := Option.map_eq_some_iff.mp hd
      obtain ⟨later, hfirst, hlater⟩ := begins_append.mp hts
      obtain ⟨s₁, ht, hmore⟩ := begins_append.mp hlater
      have hends := ends_elements hmore
      obtain ⟨later', hcomma, hlater'⟩ := begins_append.mp hmore
      obtain ⟨s₂, hu, hclose⟩ := begins_append.mp hlater'
      have hends' := ends_of_spaced (by simp) hclose
      have h₁ := readPositional_of_spaced hbaseUrls hfirst ht hends hmeaning
      have h₂ := readPositional_of_spaced hpaths hcomma hu hends' hmeaning'
      simp only [readOptionsArray, h₁, Option.isNone_some, h₂, endArray_eq_ok_iff.mpr hclose]
    | _ :: _ :: _ :: _ => cases hd

/-! ### Options and configurations -/

theorem reads_options : Reads readOptions options? where
  sound {s o rest} h := by
    unfold readOptions at h
    split at h
    · rename_i later hs
      split at h
      · rename_i d rest' hread
        cases h
        obtain ⟨ms, hms, hfold⟩ := (readObject_eq_ok_iff readsMember_options).mp hread
        exact ⟨.object ms, spaced_object.mpr ⟨later, hs, hms⟩, by rw [options?, hfold]; rfl⟩
      · cases h
    · rename_i later hs
      obtain ⟨ts, hts, hlisted⟩ := readOptionsArray_eq_ok_iff.mp h
      exact ⟨.list ts, spaced_list.mpr ⟨later, hs, hts⟩, hlisted⟩
    · cases h
  complete {t s o rest} h _ ho := by
    cases t with
    | scalar a => cases ho
    | list ts =>
      obtain ⟨later, hs, hts⟩ := spaced_list.mp h
      rw [readOptions, hs]
      exact readOptionsArray_eq_ok_iff.mpr ⟨ts, hts, ho⟩
    | object ms =>
      obtain ⟨later, hs, hms⟩ := spaced_object.mp h
      obtain ⟨d, hfold, rfl⟩ := Option.map_eq_some_iff.mp ho
      have hread := (readObject_eq_ok_iff readsMember_options).mpr ⟨ms, hms, hfold⟩
      rw [readOptions, hs]
      simp [hread]

theorem readsMember_file : ReadsMember fileMember fileStep where
  sound {seen key s seen' rest} h := by
    unfold fileMember at h
    unfold fileStep
    split_ifs at h ⊢
    · exact exists_of_readOnce reads_options h
    · obtain ⟨rfl, t, ht⟩ := exists_of_skipMember h
      exact ⟨t, ht, rfl⟩
  complete {seen key s seen' rest t} h hrest hstep := by
    unfold fileStep at hstep
    unfold fileMember
    split_ifs at hstep ⊢
    · exact readOnce_of_spaced reads_options h hrest hstep
    · cases hstep
      exact skipMember_of_spaced seen h hrest

theorem reads_file : Reads readFile meaning where
  sound {s o rest} h := by
    unfold readFile at h
    split at h
    · rename_i later hs
      split at h
      · rename_i seen rest' hread
        cases h
        obtain ⟨ms, hms, hfold⟩ := (readObject_eq_ok_iff readsMember_file).mp hread
        exact ⟨.object ms, spaced_object.mpr ⟨later, hs, hms⟩, by rw [meaning, hfold]; rfl⟩
      · cases h
    · rename_i later hs
      split at h
      · cases h
      rename_i seen s₁ hread
      split at h
      swap
      · cases h
      rename_i hend
      cases h
      have hclose := endArray_eq_ok_iff.mp hend
      obtain ⟨rfl, rfl, -⟩ | ⟨o, t, later', rfl, hfirst, ht, hmeaning⟩ :=
        cases_of_readPositional reads_options hread
      · exact ⟨.list [], spaced_list.mpr ⟨s₁, hs, hclose⟩, rfl⟩
      · refine ⟨.list [t], spaced_list.mpr ⟨later, hs, ?_⟩, hmeaning⟩
        exact begins_append.mpr ⟨later', hfirst, begins_append.mpr ⟨s₁, ht, hclose⟩⟩
    · cases h
  complete {t s o rest} h _ ho := by
    match t with
    | .object ms =>
      obtain ⟨later, hs, hms⟩ := spaced_object.mp h
      obtain ⟨seen, hfold, rfl⟩ := Option.map_eq_some_iff.mp ho
      have hread := (readObject_eq_ok_iff readsMember_file).mpr ⟨ms, hms, hfold⟩
      rw [readFile, hs]
      simp [hread]
    | .list [] =>
      cases ho
      obtain ⟨later, hs, hclose⟩ := spaced_list.mp h
      have hclose : Spaced [.closeList] later rest := hclose
      rw [readFile, hs]
      simp [readPositional_of_end hclose, endArray_eq_ok_iff.mpr hclose]
    | .list [t] =>
      obtain ⟨later, hs, hts⟩ := spaced_list.mp h
      obtain ⟨later', hfirst, hlater⟩ := begins_append.mp hts
      obtain ⟨s₁, ht, hclose⟩ := begins_append.mp hlater
      have hends := ends_of_spaced (by simp) hclose
      have hread := readPositional_of_spaced reads_options hfirst ht hends ho
      rw [readFile, hs]
      simp [hread, endArray_eq_ok_iff.mpr hclose]
    | .list (_ :: _ :: _) => cases ho
    | .scalar _ => cases ho

/-- **Strict parsing finds what the document means**, and fails on every other text. -/
theorem parseStrict_eq_ok_iff {source : Text} {o : PathOptions} :
    parseStrict source = .ok o ↔ ∃ t, IsDocument t source ∧ meaning t = some o := by
  constructor
  · intro h
    unfold parseStrict readDocument at h
    split at h
    · cases h
    rename_i a rest hread
    split at h
    · rename_i hend
      cases h
      obtain ⟨t, ht, hmeaning⟩ := reads_file.sound hread
      exact ⟨t, ⟨rest, ht, spaces_iff.mpr hend⟩, hmeaning⟩
    · cases h
  · rintro ⟨t, ⟨rest, ht, hrest⟩, hmeaning⟩
    have hread := reads_file.complete ht (ends_of_spaces hrest) hmeaning
    simp only [parseStrict, readDocument, hread, spaces_iff.mp hrest]

/-- What a document means is what strict parsing finds in it. -/
theorem toOption_parseStrict {t : Tree} {source : Text} (h : IsDocument t source) :
    (parseStrict source).toOption = meaning t := by
  cases hparse : parseStrict source with
  | ok o =>
    obtain ⟨t', ht', hmeaning⟩ := parseStrict_eq_ok_iff.mp hparse
    rw [h.unique ht'] at hmeaning
    exact hmeaning.symm
  | error e =>
    cases hmeaning : meaning t with
    | none => rfl
    | some o =>
      rw [parseStrict_eq_ok_iff.mpr ⟨t, h, hmeaning⟩] at hparse
      cases hparse

end Config

end ImportAlias
