import ImportAlias.Resolver.Basic

/-!
# What is built from options

Building fails exactly when the table has a key that is too large, and then on the first such key.
When it succeeds, everything about the resolver can be read off the options, and it has at most one
stage, which is fresh. `build_eq` says both in one equation, so that no later proof opens
`Resolver.build` again.
-/

namespace ImportAlias

namespace Mapping

variable (platform : Platform) (base : Text)

/-- The compiled form of a table's entry. -/
def compiled (entry : Text × List Text) : Mapping :=
  { key := entry.1, pattern := Pattern.ofKey entry.1
    templates := entry.2.map (Path.anchor platform base) }

/-- A list of entries compiles unless one of its keys is too large; the first such key is the one
that is reported. -/
theorem compileAll_eq (entries : List (Text × List Text)) :
    compileAll platform base entries =
      match entries.find? fun entry => (Pattern.ofKey entry.1).tooLarge with
      | some entry => .error ⟨entry.1⟩
      | none => .ok (entries.map (compiled platform base)) := by
  induction entries with
  | nil => rfl
  | cons entry entries ih =>
    obtain ⟨key, templates⟩ := entry
    by_cases h : (Pattern.ofKey key).tooLarge
    · simp [compileAll, compile, h]
    · simp only [compileAll, compile, h, ih, List.find?_cons]
      cases entries.find? fun entry => (Pattern.ofKey entry.1).tooLarge <;> rfl

end Mapping

namespace PathOptions

variable (platform : Platform) (configFile : Text) (o : PathOptions)

/-- The directory that specifiers are joined to, if a `baseUrl` is declared. -/
def joinDir? : Option Text :=
  o.declaredBaseUrl.map (Path.anchor platform (Path.dirname platform configFile))

/-- The directory that templates are seen from. -/
def templateDir : Text := (o.joinDir? platform configFile).getD (Path.dirname platform configFile)

/-- The entries of the declared table, and none without a table. -/
def entries : List (Text × List Text) := (o.paths.map (·.entries)).getD []

/-- The compiled entries of the declared table. -/
def compiled : List Mapping :=
  o.entries.map (Mapping.compiled platform (o.templateDir platform configFile))

/-- The strategy that the options give rise to. -/
def strategy? : Option Strategy :=
  match o.paths, o.joinDir? platform configFile with
  | none, none => none
  | none, some dir => some (.baseUrl dir)
  | some _, none => some (.paths (o.compiled platform configFile))
  | some _, some dir => some (.pathsThenBaseUrl (o.compiled platform configFile) dir)

variable {platform configFile o} in
/-- A compiled template is a declared one, anchored. -/
theorem exists_anchor_of_mem_compiled {m : Mapping} (hm : m ∈ o.compiled platform configFile)
    {template : Text} (ht : template ∈ m.templates) :
    ∃ declared, template = Path.anchor platform (o.templateDir platform configFile) declared := by
  obtain ⟨entry, -, rfl⟩ := List.mem_map.mp hm
  obtain ⟨declared, -, rfl⟩ := List.mem_map.mp ht
  exact ⟨declared, rfl⟩

end PathOptions

namespace Resolver

variable {platform : Platform} {configFile : Text} {options : PathOptions} {r : Resolver}

/-- **Building, in full.** The first key that is too large is an error, whatever else the options
declare. -/
theorem build_eq (platform : Platform) (configFile : Text) (options : PathOptions) :
    build platform configFile options =
      match options.entries.find? fun entry => (Pattern.ofKey entry.1).tooLarge with
      | some entry => .error ⟨entry.1⟩
      | none =>
        .ok
          { stages := (options.strategy? platform configFile).toList.map fun f => { strategy := f }
            platform
            baseUrl := options.joinDir? platform configFile
            mappings := options.compiled platform configFile } := by
  unfold build
  rcases hp : options.paths with _ | table <;>
    rcases hb : options.declaredBaseUrl with _ | url <;>
    simp only [Option.map_none, Option.map_some, Mapping.ofTable, Mapping.compileAll_eq,
      PathOptions.strategy?, PathOptions.joinDir?, PathOptions.compiled,
      PathOptions.entries, PathOptions.templateDir, hp, hb, Option.getD_none, Option.getD_some,
      List.find?_nil, List.map_nil, Option.toList_none, Option.toList_some, List.map_cons]
  all_goals
    cases table.entries.find? fun entry => (Pattern.ofKey entry.1).tooLarge <;> rfl

/-- A resolver can be built unless a key is too large. -/
theorem exists_build_iff :
    (∃ r, build platform configFile options = .ok r) ↔
      ∀ entry ∈ options.entries, ¬(Pattern.ofKey entry.1).tooLarge := by
  rw [build_eq]
  cases hfind : options.entries.find? fun entry => (Pattern.ofKey entry.1).tooLarge with
  | none => exact iff_of_true ⟨_, rfl⟩ (List.find?_eq_none.mp hfind)
  | some entry =>
    have hlarge := List.find?_some hfind
    refine iff_of_false (fun ⟨_, h⟩ => nomatch h) fun h => ?_
    exact h entry (List.mem_of_find?_eq_some hfind) hlarge

/-- What was built is made of the options alone. -/
theorem build_eq_ok (h : build platform configFile options = .ok r) :
    r =
      { stages := (options.strategy? platform configFile).toList.map fun f => { strategy := f }
        platform
        baseUrl := options.joinDir? platform configFile
        mappings := options.compiled platform configFile } := by
  rw [build_eq] at h
  split at h <;> cases h
  rfl

/-- A chain is empty exactly when the options declare nothing. -/
theorem hasStages_of_build (h : build platform configFile options = .ok r) :
    r.hasStages = !options.isEmpty := by
  rw [build_eq_ok h]
  rcases hp : options.paths with _ | table <;>
    rcases hb : options.declaredBaseUrl with _ | url <;>
    simp [hasStages, PathOptions.isEmpty, PathOptions.strategy?, PathOptions.joinDir?, hp, hb]

end Resolver

end ImportAlias
