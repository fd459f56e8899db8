import ImportAlias.Command.Run
import ImportAlias.Host.FileTree
import ImportAlias.Proofs.Plugin.Calls

/-!
# The command line and the plugin

Specifiers reach a resolver in two ways: the command `resolve` puts all of its arguments to it, and
the hook of the plugin those that a bundler comes across. Both get the same answers from the same
configuration, with one difference. The plugin passes on what is relative to the importer before
the resolver sees it. The command does not, so a relative specifier that the options assign a path
to is resolved by the command alone.
-/

namespace ImportAlias

open Specifier (RelativeToImporter)

namespace Config.Loaded

variable {platform : Platform} {c : Loaded}

/-- What a configuration is built from: its options, under a path that is a text. -/
theorem exists_of_build {r : Resolver} (h : c.build platform = .ok r) :
    ∃ configFile, c.configFile = .ok configFile ∧
      Resolver.build platform configFile c.options = .ok r := by
  unfold build at h
  split at h
  · cases h
  · rename_i configFile hfile
    split at h
    · cases h
    · rename_i r' hbuild
      cases h
      exact ⟨configFile, hfile, hbuild⟩

theorem plugin_eq_ok {p : PathsPlugin} (h : c.plugin platform = .ok p) :
    c.build platform = .ok p.resolver ∧ p = { resolver := p.resolver } := by
  unfold plugin at h
  split at h <;> cases h
  rename_i r hbuild
  exact ⟨hbuild, rfl⟩

end Config.Loaded

namespace Command

variable {s : Settings} {c : Config.Loaded}

/-- Paths that can be shown one by one can be shown together. -/
theorem showPaths_eq_map {relative : Bool} {f : Text → Text}
    (hf : ∀ path, showPath s relative path = .ok (f path)) (paths : List (Option Text)) :
    showPaths s relative paths = .ok (paths.map (Option.map f)) := by
  induction paths with
  | nil => rfl
  | cons path paths ih =>
    have hpath : path.mapM (showPath s relative) = .ok (path.map f) := by
      cases path with
      | none => rfl
      | some path =>
        rw [Option.mapM_some, hf]
        rfl
    rw [showPaths, hpath, ih]
    rfl

/-- The report of a list of specifiers pairs each with what the options assign to it, as it is
shown. -/
theorem result_resolve_of_showPath {r : Resolver} {configFile : Text} {relative : Bool}
    {f : Text → Text} (hf : ∀ path, showPath s relative path = .ok (f path))
    (hfile : c.configFile = .ok configFile)
    (h : Resolver.build s.platform configFile c.options = .ok r) (specifiers : List Text) :
    (resolve s specifiers relative c).result =
      .ok (.resolutions
        { config := c.shownPath, baseUrl := r.baseUrl
          results := specifiers.map fun id =>
            (id, (c.options.target? s.platform configFile id).map f) }) := by
  have hbuild : c.build s.platform = .ok r := by simp only [Config.Loaded.build, hfile, h]
  have hall := Resolver.answer_resolveAll specifiers r (Resolver.answer_of_build h)
  have hzip (g : Text → Option Text) :
      specifiers.zip (specifiers.map g) = specifiers.map fun id => (id, g id) := by
    simpa using List.zip_map' (f := fun id => id) (g := g) (l := specifiers)
  simp only [resolve, withResolver, hbuild, hall, showPaths_eq_map hf, List.map_map, hzip,
    Ended.after, Function.comp_apply]

/-- The report of a list of specifiers whose paths are shown whole. -/
theorem result_resolve {r : Resolver} {configFile : Text} (hfile : c.configFile = .ok configFile)
    (h : Resolver.build s.platform configFile c.options = .ok r) (specifiers : List Text) :
    (resolve s specifiers false c).result =
      .ok (.resolutions
        { config := c.shownPath, baseUrl := r.baseUrl
          results :=
            specifiers.map fun id => (id, c.options.target? s.platform configFile id) }) := by
  simpa using result_resolve_of_showPath (f := id) (fun _ => rfl) hfile h specifiers

/-- **Where the two agree.** From a configuration that loads and builds, the command prints one
result for each specifier, in order. At any time the hook of the plugin for the same configuration
answers a specifier with the path printed for it, null standing for no path, exactly when the
specifier is not relative to its importer or no path is printed. -/
theorem printed_eq_answered_iff {host : Host Id} {s : Settings} {project : Option Text}
    {c : Config.Loaded} {p : PathsPlugin} (hload : loadProject host s project = .ok c)
    (hplugin : c.plugin s.platform = .ok p) (specifiers : List Text) :
    ∃ results : List (Text × Option Text),
      (Outcome.ofEnded true (perform host s (.resolve specifiers project false))).stdout =
          line (Json.print (Resolutions.document
            { config := c.shownPath, baseUrl := p.resolver.baseUrl, results })) ∧
        results.map Prod.fst = specifiers ∧
        ∀ result ∈ results, ∀ (before : List PathsPlugin.Call) (importer : Option Text),
          ((p.after before).resolveId result.1 importer).outcome = .answered result.2 ↔
            (¬RelativeToImporter result.1 ∨ result.2 = none) := by
  obtain ⟨hbuild, hp⟩ := Config.Loaded.plugin_eq_ok hplugin
  obtain ⟨configFile, hfile, hresolver⟩ := Config.Loaded.exists_of_build hbuild
  let target? := c.options.target? s.platform configFile
  refine ⟨specifiers.map fun id => (id, target? id), ?_, ?_, ?_⟩
  · have hperform : perform host s (.resolve specifiers project false) =
        resolve s specifiers false c := by
      simp only [perform, bind, pure, hload]
    rw [hperform, Outcome.ofEnded, result_resolve hfile hresolver]
    rfl
  · simp [Function.comp_def]
  · rintro result hresult before importer
    obtain ⟨id, -, rfl⟩ := List.mem_map.mp hresult
    have hanswered : ((p.after before).resolveId id importer).outcome =
        .answered (if RelativeToImporter id then none else target? id) := by
      rw [hp]
      have hanswers := Resolver.answer_of_build hresolver
      exact PathsPlugin.outcome_of_answers hanswers before ⟨id, importer⟩
    rw [hanswered]
    by_cases hrel : RelativeToImporter id <;> simp [hrel, eq_comm]

/-! ### A configuration with a `baseUrl` -/

/-- The tree whose only file is a configuration in `/w` that sets a `baseUrl`. -/
def baseUrlTree : FileTree :=
  .directory [("w".toList, .directory [("tsconfig.json".toList,
    .file ("\x7b\"compilerOptions\":\x7b\"baseUrl\":\"src\"\x7d\x7d".toList.map
      fun c => c.toNat.toUInt8))])]

/-- What is loaded from that tree. -/
def baseUrlConfig : Config.Loaded :=
  { path := .ofText "/w/tsconfig.json".toList, options := { baseUrl := some "src".toList } }

theorem loadProject_baseUrlTree :
    loadProject (baseUrlTree.host ["w".toList]) { cwd := "/w".toList } none =
      .ok baseUrlConfig := rfl

/-- A specifier that is not relative: what is printed is what the hook answers. -/
theorem printed_eq_answered_iff_joined :
    ∃ p, baseUrlConfig.plugin .posix = .ok p ∧
      ∃ results : List (Text × Option Text), results.map Prod.fst = ["a.js".toList] ∧
        ∀ result ∈ results,
          (p.resolveId result.1 (some "/w/m.ts".toList)).outcome = .answered result.2 := by
  obtain ⟨p, hp⟩ : ∃ p, baseUrlConfig.plugin .posix = .ok p := ⟨_, rfl⟩
  obtain ⟨results, -, hspecifiers, hagree⟩ :=
    printed_eq_answered_iff (s := { cwd := "/w".toList }) loadProject_baseUrlTree hp
      ["a.js".toList]
  refine ⟨p, hp, results, hspecifiers, fun result hresult => (hagree result hresult [] _).mpr ?_⟩
  have hfirst : result.1 ∈ results.map Prod.fst := List.mem_map_of_mem hresult
  rw [hspecifiers, List.mem_singleton] at hfirst
  rw [hfirst]
  exact .inl (by decide)

/-- **The command resolves a relative specifier.** The hook passes on `./a`, and the command prints
a path for it. -/
theorem printed_ne_answered_relative :
    (Outcome.ofEnded true (perform (baseUrlTree.host ["w".toList]) { cwd := "/w".toList }
        (.resolve ["./a".toList] none false))).stdout =
      line (Json.print (Resolutions.document
        { config := "/w/tsconfig.json".toList, baseUrl := some "/w/src".toList
          results := [("./a".toList, some "/w/src/a".toList)] })) ∧
      ∃ p, baseUrlConfig.plugin .posix = .ok p ∧
        (p.resolveId "./a".toList none).outcome = .answered none :=
  ⟨by decide +kernel, _, rfl, rfl⟩

end Command

end ImportAlias
