import ImportAlias.Proofs.Config.Layout
import ImportAlias.Proofs.Json.Pairing

/-!
# What a configuration declares

The options that a configuration declares are looked up in it here, by key: `valuesAt` lists the
values that an object has for a key, of which there may be one (`AtMostOne`), and the options are
what these values say (`declared`). Nothing is taken up one after another but the entries of the
`paths` table.

This is what is read (`parse_eq_ok_iff_declared`): a member is taken up or skipped by its key alone,
so what comes of an object is found at the keys that are taken up (`foldMembers_options`,
`foldMembers_file`), and other members make no difference (`meaning_congr`).
-/

namespace ImportAlias

namespace Config

open Json

/-! ### Looking up a configuration -/

/-- The values of the members with a key, in order. -/
def valuesAt (key : Text) (ms : List (List Glyph × Tree)) : List Tree :=
  (ms.filter fun m => decode m.1 = some key).map Prod.snd

/-- There is no value, or one that is as wanted. -/
def AtMostOne (Wanted : Tree → Prop) : List Tree → Prop
  | [] => True
  | [t] => Wanted t
  | _ => False

/-- The tree is null. -/
def IsNull (t : Tree) : Prop := t = .scalar .null

/-- The tree is a string. -/
def IsText (t : Tree) : Prop := ∃ glyphs, t = .scalar (.string glyphs)

/-- The tree is an array of strings. -/
def IsTexts (t : Tree) : Prop := ∃ ts, t = .list ts ∧ ∀ u ∈ ts, IsText u

/-- The tree is an object whose values are arrays of strings. -/
def IsTable (t : Tree) : Prop := ∃ ms, t = .object ms ∧ ∀ m ∈ ms, IsTexts m.2

/-- The tree is an object that has each of the options at most once, as a value of its type. -/
def IsOptions (t : Tree) : Prop :=
  ∃ ms, t = .object ms ∧
    AtMostOne (fun u => IsNull u ∨ IsText u) (valuesAt "baseUrl".toList ms) ∧
    AtMostOne (fun u => IsNull u ∨ IsTable u) (valuesAt "paths".toList ms)

/-- The members of a configuration that has options at most once. -/
def IsReadable (ms : List (List Glyph × Tree)) : Prop :=
  AtMostOne IsOptions (valuesAt "compilerOptions".toList ms)

/-- The entries that the members of a table write, in order and with repeated keys. -/
def tableEntries (ms : List (List Glyph × Tree)) : List (Text × List Text) :=
  ms.map fun m => ((decode m.1).getD [], (templates? m.2).getD [])

/-- The table that comes of setting one entry after another. Without entries it is empty. -/
def declaredTable (ms : List (List Glyph × Tree)) : PathsTable :=
  let options : PathOptions :=
    (tableEntries ms).foldl (fun o entry => o.withPath entry.1 entry.2) {}
  options.paths.getD .empty

/-- The table that a tree declares. -/
def table? : Tree → Option PathsTable
  | .object ms => some (declaredTable ms)
  | _ => none

/-- The options that an object declares. -/
def declaredOptions : Tree → PathOptions
  | .object ms =>
    { baseUrl := (valuesAt "baseUrl".toList ms).head?.bind Tree.text?
      paths := (valuesAt "paths".toList ms).head?.bind table? }
  | _ => {}

/-- The options that a configuration declares. -/
def declared (ms : List (List Glyph × Tree)) : PathOptions :=
  ((valuesAt "compilerOptions".toList ms).head?.map declaredOptions).getD {}

/-! ### Values at a key -/

section Values

variable {α : Type} {key : Text} {glyphs : List Glyph} {t : Tree} {ms : List (List Glyph × Tree)}

theorem valuesAt_cons (hglyphs : decode glyphs = some key) (other : Text) :
    valuesAt other ((glyphs, t) :: ms) =
      if key = other then t :: valuesAt other ms else valuesAt other ms := by
  by_cases h : key = other <;> simp [valuesAt, hglyphs, h]

theorem mem_valuesAt {other : Text} (h : t ∈ valuesAt other ms) :
    ∃ m ∈ ms, m.2 = t := by
  obtain ⟨m, hm, rfl⟩ := List.mem_map.mp h
  exact ⟨m, (List.mem_filter.mp hm).1, rfl⟩

/-- What values lead to of which there may be one. -/
def single (meaning : Tree → Option α) (ts : List Tree) : Option (Option α) :=
  ts.foldlM (once meaning) none

theorem single_eq_some_iff {meaning : Tree → Option α} {Wanted : Tree → Prop} {value : Tree → α}
    {ts : List Tree} (h : ∀ t ∈ ts, ∀ a, meaning t = some a ↔ Wanted t ∧ a = value t)
    {a : Option α} :
    single meaning ts = some a ↔ AtMostOne Wanted ts ∧ a = ts.head?.map value := by
  match ts with
  | [] => simp [single, AtMostOne, eq_comm]
  | [t] =>
    have hsingle : single meaning [t] = (meaning t).map some := by simp [single, once]
    rw [hsingle, Option.map_eq_some_iff]
    simp only [h t List.mem_cons_self, AtMostOne, List.head?_cons, Option.map_some]
    grind
  | t :: u :: ts => cases ht : meaning t <;> simp [single, AtMostOne, once, ht]

end Values

/-! ### Members that are taken up -/

section Members

variable {ms : List (List Glyph × Tree)} (hkeys : ∀ m ∈ ms, (decode m.1).isSome)

include hkeys

/-- What comes of the members of a configuration is found at its one key. -/
theorem foldMembers_file (seen : Option PathOptions) :
    foldMembers fileStep seen ms =
      (valuesAt "compilerOptions".toList ms).foldlM (once options?) seen := by
  induction ms generalizing seen with
  | nil => rfl
  | cons m ms ih =>
    obtain ⟨glyphs, t⟩ := m
    obtain ⟨key, hglyphs⟩ := Option.isSome_iff_exists.mp (hkeys _ List.mem_cons_self)
    have hms := fun seen => ih (fun m hm => hkeys m (List.mem_cons_of_mem _ hm)) seen
    rw [foldMembers, hglyphs, Option.bind_some, valuesAt_cons hglyphs, fileStep]
    by_cases hkey : key = "compilerOptions".toList
    · rw [if_pos hkey, if_pos hkey, List.foldlM_cons]
      exact Option.bind_congr fun _ _ => hms _
    · rw [if_neg hkey, if_neg hkey, Option.bind_some, hms]

/-- What comes of the members of the options is found at their two keys. -/
theorem foldMembers_options (d : Declared) :
    foldMembers optionsStep d ms =
      ((valuesAt "baseUrl".toList ms).foldlM (once (Tree.nullable Tree.text?)) d.baseUrl).bind
        fun baseUrl =>
          ((valuesAt "paths".toList ms).foldlM (once (Tree.nullable paths?)) d.paths).map
            fun paths => { baseUrl, paths } := by
  induction ms generalizing d with
  | nil => rfl
  | cons m ms ih =>
    obtain ⟨glyphs, t⟩ := m
    obtain ⟨key, hglyphs⟩ := Option.isSome_iff_exists.mp (hkeys _ List.mem_cons_self)
    have hms := fun d => ih (fun m hm => hkeys m (List.mem_cons_of_mem _ hm)) d
    rw [foldMembers, hglyphs, Option.bind_some, valuesAt_cons hglyphs, valuesAt_cons hglyphs,
      optionsStep]
    -- A key is one of the two at most, so a member leaves at least one of the two searches alone.
    by_cases hbaseUrl : key = "baseUrl".toList
    · have hpaths : key ≠ "paths".toList := by rw [hbaseUrl]; decide
      rw [if_pos hbaseUrl, if_pos hbaseUrl, if_neg hpaths, List.foldlM_cons]
      cases once (Tree.nullable Tree.text?) d.baseUrl t with
      | none => rfl
      | some baseUrl => exact hms _
    rw [if_neg hbaseUrl, if_neg hbaseUrl]
    by_cases hpaths : key = "paths".toList
    · rw [if_pos hpaths, if_pos hpaths, List.foldlM_cons]
      cases once (Tree.nullable paths?) d.paths t with
      | none => exact (Option.bind_fun_none _).symm
      | some paths => exact hms _
    · rw [if_neg hpaths, if_neg hpaths, Option.bind_some, hms]

/-- What comes of the members of a table is the table of their entries, if all have templates. -/
theorem foldMembers_paths {table table' : PathsTable} :
    foldMembers pathsStep table ms = some table' ↔
      (∀ m ∈ ms, (templates? m.2).isSome) ∧
        table' =
          (tableEntries ms).foldl (fun table entry => table.insert entry.1 entry.2) table := by
  induction ms generalizing table with
  | nil =>
    rw [foldMembers, Option.some.injEq, eq_comm, and_iff_right (List.forall_mem_nil _)]
    rfl
  | cons m ms ih =>
    obtain ⟨glyphs, t⟩ := m
    obtain ⟨key, hglyphs⟩ := Option.isSome_iff_exists.mp (hkeys _ List.mem_cons_self)
    have hms := fun {table} => @ih (fun m hm => hkeys m (List.mem_cons_of_mem _ hm)) table
    rw [foldMembers, hglyphs, Option.bind_some, pathsStep]
    cases ht : templates? t with
    | none => simp [ht]
    | some templates => simp [ht, hms, tableEntries, hglyphs]

end Members

/-- Setting entries of the options is setting entries of their table. -/
theorem paths_foldl_withPath (entries : List (Text × List Text)) (o : PathOptions) :
    (entries.foldl (fun o entry => o.withPath entry.1 entry.2) o).paths.getD .empty =
      entries.foldl (fun table entry => table.insert entry.1 entry.2) (o.paths.getD .empty) := by
  induction entries generalizing o with
  | nil => rfl
  | cons entry entries ih =>
    rw [List.foldl_cons, ih]
    rfl

theorem declaredTable_eq (ms : List (List Glyph × Tree)) :
    declaredTable ms = .ofList (tableEntries ms) := paths_foldl_withPath _ _

/-! ### Trees that are declarations -/

section Trees

variable {α : Type} {t : Tree} {ms : List (List Glyph × Tree)}

theorem text?_eq_some_iff {text : Text} : t.text? = some text ↔ IsText t ∧ t.text? = some text := by
  refine (and_iff_right_of_imp fun h => ?_).symm
  obtain ⟨glyphs, rfl, -⟩ := Tree.eq_string_of_text? h
  exact ⟨glyphs, rfl⟩

theorem isSome_text? (h : t.IsPaired) (htext : IsText t) : t.text?.isSome := by
  obtain ⟨glyphs, rfl⟩ := htext
  exact h.text

/-- A list of values means something when each of them does. -/
theorem isSome_mapM {meaning : Tree → Option α} {ts : List Tree} :
    (ts.mapM meaning).isSome ↔ ∀ t ∈ ts, (meaning t).isSome := by
  induction ts with
  | nil => simp
  | cons t ts ih =>
    rw [List.forall_mem_cons, ← ih, List.mapM_cons]
    cases meaning t <;> cases ts.mapM meaning <;> simp

theorem isSome_templates? (h : t.IsPaired) : (templates? t).isSome ↔ IsTexts t := by
  cases t with
  | scalar s => simp [templates?, Tree.elements?, IsTexts]
  | object ms => simp [templates?, Tree.elements?, IsTexts]
  | list ts =>
    rw [templates?, Tree.elements?, isSome_mapM]
    constructor
    · intro hts
      refine ⟨ts, rfl, fun u hu => ?_⟩
      obtain ⟨text, htext⟩ := Option.isSome_iff_exists.mp (hts u hu)
      exact (text?_eq_some_iff.mp htext).1
    · rintro ⟨_, ⟨⟩, hts⟩ u hu
      exact isSome_text? (h.element hu) (hts u hu)

theorem paths?_eq_some_iff (h : t.IsPaired) {table : PathsTable} :
    paths? t = some table ↔ IsTable t ∧ table? t = some table := by
  match t with
  | .scalar _ => exact iff_of_false nofun nofun
  | .list _ => exact iff_of_false nofun nofun
  | .object ms =>
    have htexts : IsTable (.object ms) ↔ ∀ m ∈ ms, (templates? m.2).isSome := by
      constructor
      · rintro ⟨_, ⟨⟩, hms⟩ m hm
        exact (isSome_templates? (h.value hm)).mpr (hms m hm)
      · exact fun hms => ⟨ms, rfl, fun m hm => (isSome_templates? (h.value hm)).mp (hms m hm)⟩
    rw [paths?, foldMembers_paths fun m hm => h.key hm, htexts, table?, declaredTable_eq,
      Option.some.injEq, eq_comm]
    rfl

theorem isSome_table? (h : IsTable t) : (table? t).isSome := by
  obtain ⟨ms, rfl, -⟩ := h
  rfl

/-- What a place means that takes null as well, which declares nothing. -/
theorem nullable_eq_some_iff {meaning lookup : Tree → Option α} {Wanted : Tree → Prop}
    (h : ∀ a, meaning t = some a ↔ Wanted t ∧ lookup t = some a)
    (hwanted : Wanted t → (lookup t).isSome) (hnull : lookup (.scalar .null) = none)
    {a : Option α} :
    Tree.nullable meaning t = some a ↔ (IsNull t ∨ Wanted t) ∧ a = lookup t := by
  by_cases ht : t = .scalar .null
  · subst ht
    rw [hnull, and_iff_right (.inl rfl), eq_comm]
    exact Option.some_inj
  · have hnot : ¬IsNull t := ht
    rw [Tree.nullable_of_ne_null ht, or_iff_right hnot, Option.map_eq_some_iff]
    constructor
    · rintro ⟨b, hb, rfl⟩
      obtain ⟨hw, hlookup⟩ := (h b).mp hb
      exact ⟨hw, hlookup.symm⟩
    · rintro ⟨hw, rfl⟩
      obtain ⟨b, hb⟩ := Option.isSome_iff_exists.mp (hwanted hw)
      exact ⟨b, (h b).mpr ⟨hw, hb⟩, hb.symm⟩

theorem getD_map_none {β : Type} (f : β → Option α) (o : Option β) :
    (o.map f).getD none = o.bind f := by
  cases o <;> rfl

/-- **Options mean what they declare** if each of the two is declared once and well, and nothing
otherwise. -/
theorem options?_eq_some_iff (h : t.IsPaired) (hlist : ∀ ts, t ≠ .list ts) {o : PathOptions} :
    options? t = some o ↔ IsOptions t ∧ o = declaredOptions t := by
  match t with
  | .scalar _ => exact iff_of_false nofun nofun
  | .list ts => exact absurd rfl (hlist ts)
  | .object ms =>
    have hpaired : ∀ {key : Text}, ∀ u ∈ valuesAt key ms, u.IsPaired := by
      intro key u hu
      obtain ⟨m, hm, rfl⟩ := mem_valuesAt hu
      exact h.value hm
    have hbaseUrl : ∀ {b},
        single (Tree.nullable Tree.text?) (valuesAt "baseUrl".toList ms) = some b ↔
          AtMostOne (fun u => IsNull u ∨ IsText u) (valuesAt "baseUrl".toList ms) ∧
            b = (valuesAt "baseUrl".toList ms).head?.map Tree.text? :=
      single_eq_some_iff fun u hu _ =>
        nullable_eq_some_iff (fun _ => text?_eq_some_iff) (isSome_text? (hpaired u hu)) rfl
    have hpaths : ∀ {p}, single (Tree.nullable paths?) (valuesAt "paths".toList ms) = some p ↔
        AtMostOne (fun u => IsNull u ∨ IsTable u) (valuesAt "paths".toList ms) ∧
          p = (valuesAt "paths".toList ms).head?.map table? :=
      single_eq_some_iff fun u hu _ =>
        nullable_eq_some_iff (fun _ => paths?_eq_some_iff (hpaired u hu)) isSome_table? rfl
    -- Each option is looked up by itself, so the order of the two has no part in the answer.
    have hfold : foldMembers optionsStep {} ms =
        (single (Tree.nullable Tree.text?) (valuesAt "baseUrl".toList ms)).bind fun baseUrl =>
          (single (Tree.nullable paths?) (valuesAt "paths".toList ms)).map fun paths =>
            { baseUrl, paths } := foldMembers_options (fun m hm => h.key hm) {}
    have hdeclared : Declared.options ⟨(valuesAt "baseUrl".toList ms).head?.map Tree.text?,
        (valuesAt "paths".toList ms).head?.map table?⟩ = declaredOptions (.object ms) := by
      rw [Declared.options, getD_map_none, getD_map_none, declaredOptions]
    rw [options?, hfold, Option.map_eq_some_iff]
    simp only [Option.bind_eq_some_iff, Option.map_eq_some_iff, hbaseUrl, hpaths]
    constructor
    · rintro ⟨_, ⟨_, ⟨hb, rfl⟩, _, ⟨hp, rfl⟩, rfl⟩, rfl⟩
      exact ⟨⟨ms, rfl, hb, hp⟩, hdeclared⟩
    · rintro ⟨⟨_, ⟨⟩, hb, hp⟩, rfl⟩
      exact ⟨_, ⟨_, ⟨hb, rfl⟩, _, ⟨hp, rfl⟩, rfl⟩, hdeclared⟩

/-- **A configuration means what it declares** if it has readable options at most once, and nothing
otherwise. -/
theorem meaning_object_eq_some_iff (h : (Tree.object ms).IsPaired)
    (hlist : ∀ t ∈ valuesAt "compilerOptions".toList ms, ∀ ts, t ≠ .list ts) {o : PathOptions} :
    meaning (.object ms) = some o ↔ IsReadable ms ∧ o = declared ms := by
  have hfile : ∀ {seen}, single options? (valuesAt "compilerOptions".toList ms) = some seen ↔
      IsReadable ms ∧ seen = (valuesAt "compilerOptions".toList ms).head?.map declaredOptions := by
    refine single_eq_some_iff fun t ht _ => options?_eq_some_iff ?_ (hlist t ht)
    obtain ⟨m, hm, rfl⟩ := mem_valuesAt ht
    exact h.value hm
  have hfold : foldMembers fileStep none ms =
      single options? (valuesAt "compilerOptions".toList ms) :=
    foldMembers_file (fun m hm => h.key hm) none
  rw [meaning, hfold, Option.map_eq_some_iff]
  constructor
  · rintro ⟨seen, hseen, rfl⟩
    obtain ⟨hreadable, rfl⟩ := hfile.mp hseen
    exact ⟨hreadable, rfl⟩
  · rintro ⟨hreadable, rfl⟩
    exact ⟨_, hfile.mpr ⟨hreadable, rfl⟩, rfl⟩

end Trees

/-! ### Members that make no difference -/

/-- Every key that has to be told from the others stands for a text: those of the configuration and
those of the options. -/
def KeysPaired (ms : List (List Glyph × Tree)) : Prop :=
  (∀ m ∈ ms, arePaired m.1) ∧
    ∀ ms', .object ms' ∈ valuesAt "compilerOptions".toList ms → ∀ m ∈ ms', arePaired m.1

/-- The trees are the same, or objects that have the same values for each option, whatever other
members stand before, between and behind these. -/
inductive SameOptions : Tree → Tree → Prop where
  | refl (t : Tree) : SameOptions t t
  | object {ms ms' : List (List Glyph × Tree)}
      (hbaseUrl : valuesAt "baseUrl".toList ms = valuesAt "baseUrl".toList ms')
      (hpaths : valuesAt "paths".toList ms = valuesAt "paths".toList ms') :
      SameOptions (.object ms) (.object ms')

/-- The configurations have the same options, whatever other members stand before, between and
behind these. -/
def SameDeclarations (ms ms' : List (List Glyph × Tree)) : Prop :=
  List.Forall₂ SameOptions (valuesAt "compilerOptions".toList ms)
    (valuesAt "compilerOptions".toList ms')

section Congruence

variable {α : Type} {t t' : Tree} {ts ts' : List Tree} {ms ms' : List (List Glyph × Tree)}

theorem keysPaired_of_isPaired (h : (Tree.object ms).IsPaired) : KeysPaired ms := by
  refine ⟨fun m hm => isSome_decode m.1 ▸ h.key hm, fun ms' hms' m hm => ?_⟩
  obtain ⟨m', hm', hvalue⟩ := mem_valuesAt hms'
  have hpaired : (Tree.object ms').IsPaired := hvalue ▸ h.value hm'
  exact isSome_decode m.1 ▸ hpaired.key hm

/-- Values that are related and mean the same lead to the same. -/
theorem single_congr {meaning : Tree → Option α} {R : Tree → Tree → Prop}
    (h : List.Forall₂ R ts ts')
    (hmeaning : ∀ t ∈ ts, ∀ t' ∈ ts', R t t' → meaning t = meaning t') :
    single meaning ts = single meaning ts' := by
  -- Behind the first value something was met already, hence the induction from anything met.
  have key : ∀ seen, ts.foldlM (once meaning) seen = ts'.foldlM (once meaning) seen := by
    induction h with
    | nil => exact fun _ => rfl
    | cons hhead _ ih =>
      intro seen
      have hrest := ih fun t ht t' ht' =>
        hmeaning t (List.mem_cons_of_mem _ ht) t' (List.mem_cons_of_mem _ ht')
      rw [List.foldlM_cons, List.foldlM_cons, once, once,
        hmeaning _ List.mem_cons_self _ List.mem_cons_self hhead]
      exact Option.bind_congr fun _ _ => hrest _
  exact key none

theorem options?_congr (h : SameOptions t t')
    (hkeys : ∀ ms, t = .object ms → ∀ m ∈ ms, arePaired m.1)
    (hkeys' : ∀ ms, t' = .object ms → ∀ m ∈ ms, arePaired m.1) : options? t = options? t' := by
  cases h with
  | refl => rfl
  | @object ms ms' hbaseUrl hpaths =>
    rw [options?, options?, foldMembers_options fun m hm => isSome_decode m.1 ▸ hkeys ms rfl m hm,
      foldMembers_options fun m hm => isSome_decode m.1 ▸ hkeys' ms' rfl m hm, hbaseUrl, hpaths]

/-- **What is no declaration makes no difference** to what a configuration means. -/
theorem meaning_congr (h : SameDeclarations ms ms') (hkeys : KeysPaired ms)
    (hkeys' : KeysPaired ms') : meaning (.object ms) = meaning (.object ms') := by
  have hoptions : single options? (valuesAt "compilerOptions".toList ms) =
      single options? (valuesAt "compilerOptions".toList ms') :=
    single_congr h fun t ht t' ht' hsame =>
      options?_congr hsame (fun ms₁ h₁ => hkeys.2 ms₁ (h₁ ▸ ht))
        (fun ms₁ h₁ => hkeys'.2 ms₁ (h₁ ▸ ht'))
  rw [meaning, meaning, foldMembers_file fun m hm => isSome_decode m.1 ▸ hkeys.1 m hm,
    foldMembers_file fun m hm => isSome_decode m.1 ▸ hkeys'.1 m hm]
  exact congrArg _ hoptions

end Congruence

/-! ### What is read -/

section Reading

variable {ms : List (List Glyph × Tree)} {source : Text}

/-- What is read of strict JSON is what its tree means. -/
theorem toOption_parse {t : Tree} (h : IsDocument t source) : (parse source).toOption = meaning t :=
  toOption_parseStrict (isDocument_of_isCommented (isCommented_of_strict h))

theorem parse_eq_ok_iff {t : Tree} (h : IsDocument t source) {o : PathOptions} :
    parse source = .ok o ↔ meaning t = some o := by
  rw [← toOption_parse h]
  cases parse source <;> simp [Except.toOption]

/-- **What a configuration declares is what is read.** A configuration is accepted exactly when it
declares options at most once, and these each option at most once and as a value of its type, and
what is read is what it declares. The keys of the table stand where they first come, with the
templates that come last. No other members make a difference, neither to what is read nor to whether
anything is. -/
theorem parse_eq_ok_iff_declared (h : IsDocument (.object ms) source)
    (hpaired : (Tree.object ms).IsPaired)
    (hlist : ∀ t ∈ valuesAt "compilerOptions".toList ms, ∀ ts, t ≠ .list ts) :
    (∀ o, parse source = .ok o ↔ IsReadable ms ∧ o = declared ms) ∧
      (∀ entries, (declaredTable entries).keys =
          ((tableEntries entries).map Prod.fst).eraseDups ∧
        ∀ key, (declaredTable entries).get? key =
          ((tableEntries entries).filter fun entry => entry.1 = key).getLast?.map Prod.snd) ∧
      ∀ ms' source', IsDocument (.object ms') source' → KeysPaired ms' → SameDeclarations ms ms' →
        (parse source').toOption = (parse source).toOption := by
  have hmeaning := toOption_parse h
  refine ⟨fun o => ?_, fun entries => ?_, fun ms' source' h' hkeys' hsame => ?_⟩
  · rw [parse_eq_ok_iff h, meaning_object_eq_some_iff hpaired hlist]
  · rw [declaredTable_eq]
    exact ⟨OrderedMap.keys_ofList _, OrderedMap.get?_ofList _⟩
  · rw [hmeaning, toOption_parse h']
    exact (meaning_congr hsame (keysPaired_of_isPaired hpaired) hkeys').symm

end Reading

/-- A table that has a key twice. -/
def repeatedKey : Tree :=
  .object [(plainGlyphs ['@'], .list [.scalar (.string (plainGlyphs ['a']))]),
    (plainGlyphs ['~'], .list []),
    (plainGlyphs ['@'], .list [.scalar (.string (plainGlyphs ['b']))])]

/-- A configuration with the table. -/
def withRepeatedKey : List (List Glyph × Tree) :=
  [(plainGlyphs "compilerOptions".toList, .object
    [(plainGlyphs "paths".toList, repeatedKey), (plainGlyphs "baseUrl".toList, .scalar .null)])]

/-- The configuration with its options in another order and among other members, of which one is a
string that stands for no text. -/
def withOtherMembers : List (List Glyph × Tree) :=
  [(plainGlyphs "paths".toList, .scalar (.boolean true)),
    (plainGlyphs "compilerOptions".toList, .object
      [(plainGlyphs "types".toList, .scalar (.string [.code 'd' '8' '0' '0' (by simp [Text.hexValue?])])),
        (plainGlyphs "baseUrl".toList, .scalar .null),
        (plainGlyphs "paths".toList, repeatedKey)])]

theorem parse_eq_ok_iff_declared_repeated :
    ∃ o : PathOptions, o.paths = some (.ofList [(['@'], [['b']]), (['~'], [])]) ∧
      IsReadable withRepeatedKey ∧ o = declared withRepeatedKey ∧
      parse (Tree.object withRepeatedKey).written = .ok o ∧
      (parse (Tree.object withOtherMembers).written).toOption = some o := by
  have hlist : ∀ t ∈ valuesAt "compilerOptions".toList withRepeatedKey, ∀ ts, t ≠ .list ts := by
    rintro t ht ts rfl
    cases ht with
    | tail _ h => cases h
  have hkeys : KeysPaired withOtherMembers := by
    refine ⟨by decide, fun ms hms => ?_⟩
    cases hms with
    | head => decide
    | tail _ h => cases h
  have hparse : parse (Tree.object withRepeatedKey).written =
      .ok ⟨none, some (.ofList [(['@'], [['b']]), (['~'], [])])⟩ := rfl
  obtain ⟨hread, -, hsame⟩ :=
    parse_eq_ok_iff_declared (isDocument_written (.object withRepeatedKey)) (by decide) hlist
  obtain ⟨hreadable, hdeclared⟩ := (hread _).mp hparse
  have hother := hsame withOtherMembers _ (isDocument_written _) hkeys
    (.cons (.object rfl rfl) .nil)
  exact ⟨_, rfl, hreadable, hdeclared, hparse, by rw [hother, hparse]; rfl⟩

end Config

end ImportAlias
