import ImportAlias.Proofs.Command.Resolutions
import ImportAlias.Proofs.Config.Nearest
import ImportAlias.Proofs.Host.Canonical

/-!
# A directory as the project and as the working directory

A command can be pointed at the configuration in a directory in two ways: the directory is named
as the project, or the command is run in it and discovers the configuration. What a query comes to
is a function of the configuration and the platform (`Query.answer`), so the two ways agree
whenever they load the same file.

They do when the directory has a regular file `tsconfig.json`. The help of the program promises as
much for `jsconfig.json`, which the discovery takes where there is no `tsconfig.json`; but a
directory that is named as the project is only asked for `tsconfig.json`.
-/

namespace ImportAlias

open ImportAlias.Path FileTree

namespace Command

/-! ### Actions -/

namespace Action

/-- The project that an action names. -/
def project? : Action → Option Text
  | .version => none
  | .resolve _ project _ => project
  | .mappings project => project

/-- Whether an action shows paths relative to the working directory. -/
def relative : Action → Bool
  | .resolve _ _ relative => relative
  | .version | .mappings _ => false

/-- The report of an action on a configuration that was built, with paths shown by `f`: one entry
for each specifier, or all that was compiled. -/
def report (platform : Platform) (f : Text → Text) (c : Config.Loaded) (r : Resolver) :
    Action → Report
  | .version => .version .current
  | .resolve specifiers _ _ =>
    .resolutions
      { config := c.shownPath, baseUrl := r.baseUrl
        results := specifiers.map fun id => (id, (c.target? platform id).map f) }
  | .mappings _ =>
    .compiled
      { config := c.shownPath, platform := r.platform, baseUrl := r.baseUrl
        mappings := r.mappings }

end Action

/-- **What an action comes to**, wherever it fails, when all paths can be shown. -/
theorem result_perform_of_showPath (host : Host Id) {s : Settings} {action : Action}
    (haction : action ≠ .version) {f : Text → Text}
    (hf : ∀ path, showPath s action.relative path = .ok (f path)) :
    (perform host s action).result =
      (loadProject host s action.project?).bind fun c =>
        ((c.build s.platform).mapError .config).map fun r => action.report s.platform f c r := by
  cases action with
  | version => exact absurd rfl haction
  | resolve specifiers project relative =>
    simp only [perform, Action.project?, bind, pure]
    cases loadProject host s project with
    | error failure => rfl
    | ok c =>
      cases hbuild : c.build s.platform with
      | error e =>
        simp only [resolve, withResolver, hbuild, Except.bind]
        rfl
      | ok r =>
        obtain ⟨configFile, hfile, hresolver⟩ := Config.Loaded.exists_of_build hbuild
        obtain rfl := Config.Loaded.shownPath_of_configFile hfile
        have hshown : ∀ path, showPath s relative path = .ok (f path) := hf
        simp only [result_resolve_of_showPath hshown hfile hresolver, Except.bind, hbuild]
        rfl
  | mappings project =>
    simp only [perform, Action.project?, bind, pure]
    cases loadProject host s project with
    | error failure => rfl
    | ok c =>
      cases hbuild : c.build s.platform with
      | error e =>
        simp only [showCompiled, withResolver, hbuild, Except.bind]
        rfl
      | ok r =>
        simp only [showCompiled, withResolver, hbuild, Except.bind]
        rfl

/-! ### Queries -/

/-- What is asked of a configuration: to resolve specifiers, whose paths are shown whole, or to
show what it is compiled to. -/
inductive Query where
  | resolve (specifiers : List Text)
  | mappings

namespace Query

variable {platform : Platform} {c : Config.Loaded} {s : Settings}

/-- The action that puts the query to a project, or to the configuration that is discovered. -/
def action : Query → Option Text → Action
  | .resolve specifiers, project => .resolve specifiers project false
  | .mappings, project => .mappings project

/-- What a query comes to for a configuration that was built. -/
def report (platform : Platform) (c : Config.Loaded) (r : Resolver) : Query → Report
  | .resolve specifiers =>
    .resolutions
      { config := c.shownPath, baseUrl := r.baseUrl
        results := specifiers.map fun id => (id, c.target? platform id) }
  | .mappings =>
    .compiled
      { config := c.shownPath, platform := r.platform, baseUrl := r.baseUrl
        mappings := r.mappings }

/-- What a query comes to for a configuration. -/
def answer (platform : Platform) (q : Query) (c : Config.Loaded) : Except Failure Report :=
  match c.build platform with
  | .error e => .error (.config e)
  | .ok r => .ok (q.report platform c r)

/-- **The result of a query** depends on the configuration, and on the settings only by the
platform. -/
theorem result_perform (host : Host Id) (s : Settings) (q : Query) (project : Option Text) :
    (perform host s (q.action project)).result =
      (loadProject host s project).bind (q.answer s.platform) := by
  have haction : q.action project ≠ .version := by cases q <;> nofun
  have hproject : (q.action project).project? = project := by cases q <;> rfl
  have hwhole : ∀ path, showPath s (q.action project).relative path = .ok (id path) := by
    cases q <;> exact fun _ => rfl
  rw [result_perform_of_showPath host haction hwhole, hproject]
  congr 1
  funext c
  rw [answer]
  cases c.build s.platform with
  | error e => rfl
  | ok r => cases q <;> simp [Except.mapError, Except.map, Action.report, action, report]

theorem exitCode_of_answer {q : Query} {failure : Failure}
    (h : q.answer platform c = .error failure) : failure.exitCode = 1 := by
  unfold answer at h
  split at h <;> cases h
  rfl

end Query

theorem exitCode_of_loadProject {host : Host Id} {s : Settings} {project : Option Text}
    {failure : Failure} (h : loadProject host s project = .error failure) :
    failure.exitCode = 1 := by
  have hconfig {loaded : Except ConfigError Config.Loaded}
      (h : loaded.mapError Failure.config = .error failure) : failure.exitCode = 1 := by
    cases loaded <;> cases h
    rfl
  cases project with
  | none => exact hconfig h
  | some project =>
    simp only [loadProject, bind, pure] at h
    split at h
    · cases h
      rfl
    · exact hconfig h

/-- A query that fails is the fault of the configuration. -/
theorem exitCode_of_result {host : Host Id} {s : Settings} {q : Query} {project : Option Text}
    {failure : Failure} (h : (perform host s (q.action project)).result = .error failure) :
    failure.exitCode = 1 := by
  rw [Query.result_perform] at h
  cases hload : loadProject host s project with
  | error failure' =>
    rw [hload] at h
    cases h
    exact exitCode_of_loadProject hload
  | ok c =>
    rw [hload] at h
    exact Query.exitCode_of_answer h

/-! ### Loading from a directory -/

section Load

variable {root : FileTree} {w q : List Text} {d : Text} {entries : List (Text × FileTree)}
  {s : Settings}

/-- The configuration file in a directory of known place. -/
def fileIn (q : List Text) : Text := absolutePath (q ++ ["tsconfig.json".toList])

theorem isName_tsconfig : IsName "tsconfig.json".toList := by decide

/-- **A directory that is named as the project** stands for the entry `tsconfig.json`, which need
not be there and need not be a regular file. -/
theorem loadProject_directory (hw : IsWorkingDirectory root w) (hs : s.cwd = absolutePath w)
    (hlocate : locate root w d = .ok q) (hat : root.at? q = some (.directory entries)) :
    loadProject (root.host w) s (some d) =
      if (entries.lookup "tsconfig.json".toList).isSome then
        (Config.load (root.host w) (fileIn q)).mapError .config
      else .error (.noSuchProject (within (within s.cwd d) "tsconfig.json".toList)) := by
  have hd : d ≠ [] := by
    rintro rfl
    cases hlocate
  have hpath : locate root w (within s.cwd d) = .ok q := by
    rw [hs, hw.locate_within_absolutePath hd, hlocate]
  have hdirectory : (root.host w).isDirectory (within s.cwd d) = true :=
    isDirectory_of_find (find_eq_ok_iff.mpr ⟨q, hpath, hat⟩)
  have hentry := locate_within_of_locate isName_tsconfig hpath hat
  split
  · rename_i hsome
    rw [if_pos hsome] at hentry
    simp only [loadProject, projectFile, bind, pure, hdirectory, if_true,
      canonicalize_of_locate hentry]
    rfl
  · rename_i hnone
    rw [if_neg hnone] at hentry
    simp only [loadProject, projectFile, bind, pure, hdirectory, if_true,
      canonicalize_of_error hentry]

/-- A directory in which the command is run and that has a regular file `tsconfig.json`. -/
theorem loadProject_discovered (hq : IsWorkingDirectory root q) (hs : s.cwd = absolutePath q)
    (hat : root.at? q = some (.directory entries)) {content : List UInt8}
    (hfile : entries.lookup "tsconfig.json".toList = some (.file content)) :
    loadProject (root.host w) s none =
      (Config.load (root.host w) (fileIn q)).mapError .config := by
  have hregular : isRegularAt root (place w s.cwd ++ ["tsconfig.json".toList]) = true := by
    rw [hs, place_absolutePath hq.isName, isRegularAt_iff]
    refine ⟨content, ?_⟩
    rw [at?_concat, hat]
    exact hfile
  have hstart : Descends s.cwd := hs ▸ descends_absolutePath hq.isName
  have hfound : Config.findUp (root.host w) Config.fileNames s.cwd = some (fileIn q) := by
    rw [Config.findUp_of_start hstart (fun _ => Config.isName_of_mem_fileNames)
      (List.find?_cons_of_pos hregular), hs, within_absolutePath hq.isName isName_tsconfig]
    rfl
  have hdiscover : Config.discover (root.host w) s.cwd = Config.load (root.host w) (fileIn q) := by
    rw [Config.discover_eq, hfound]
  exact congrArg (Except.mapError Failure.config) hdiscover

/-- An entry `tsconfig.json` that is a directory cannot be loaded. -/
theorem regular_of_load (hq : IsWorkingDirectory root q)
    (hat : root.at? q = some (.directory entries)) {c : Config.Loaded}
    (h : Config.load (root.host w) (fileIn q) = .ok c) :
    ∃ content, entries.lookup "tsconfig.json".toList = some (.file content) := by
  have hfind (t : FileTree) : FileTree.find root w (fileIn q) = .ok t →
      entries.lookup "tsconfig.json".toList = some t := by
    intro ht
    rw [fileIn, ← within_absolutePath hq.isName isName_tsconfig,
      find_within_eq_ok_iff (descends_absolutePath hq.isName) isName_tsconfig,
      place_within isName_tsconfig, place_absolutePath hq.isName, at?_concat, hat] at ht
    exact ht
  cases hread : (root.host w).read (fileIn q) with
  | error e =>
    simp only [Config.load, Config.readSource, bind, pure, hread, Config.ofSource] at h
    cases h
  | ok content => exact ⟨content, hfind _ (read_eq_ok_iff.mp hread)⟩

/-- Without a regular file `tsconfig.json` the directory cannot be loaded as a project. -/
theorem exists_failure_of_loadProject (hw : IsWorkingDirectory root w)
    (hs : s.cwd = absolutePath w) (hlocate : locate root w d = .ok q)
    (hat : root.at? q = some (.directory entries))
    (hnot : ¬∃ content, entries.lookup "tsconfig.json".toList = some (.file content)) :
    ∃ failure, loadProject (root.host w) s (some d) = .error failure := by
  rw [loadProject_directory hw hs hlocate hat]
  split
  · cases hload : Config.load (root.host w) (fileIn q) with
    | error e => exact ⟨.config e, rfl⟩
    | ok c => exact absurd (regular_of_load (hw.of_locate hlocate hat) hat hload) hnot
  · exact ⟨_, rfl⟩

end Load

/-! ### Runs in two directories -/

section Runs

variable {root : FileTree} {w : List Text} {logFilter : Option Text}

/-- The settings of an invocation in a working directory. -/
def Invocation.settingsIn (i : Invocation) (cwd : Text) : Settings where
  cwd := cwd
  jsonLogs := i.json
  verbosity := i.verbosity
  platform := i.platform.getD .posix

/-- A run works in the directory that it is sent to. -/
theorem settings_of_locate {i : Invocation} {q : List Text}
    (hlocate : locate root w (i.cwd.getD ['.']) = .ok q) :
    i.settings (root.host w) = .ok (i.settingsIn (absolutePath q)) := by
  simp only [Invocation.settings, bind, pure, canonicalize_of_locate hlocate]
  rfl

/-- A run without a log filter ends before anything is looked for. -/
theorem carryOut_of_noFilter {i : Invocation} {s : Settings}
    (hs : i.settings (root.host w) = .ok s)
    (hfilter : Log.Filter.ofRun logFilter s.verbosity = none) :
    carryOut (root.host w) logFilter i = Outcome.ofFailure .splitCharacter := by
  simp only [carryOut, bind, pure, hs, hfilter]

/-- The exit code that a result comes with, and what is printed of it. -/
def observed (json : Bool) : Except Failure Report → Nat × Text
  | .error failure => (failure.exitCode, [])
  | .ok report => (0, report.print json)

theorem observed_of_settings {i : Invocation} {s : Settings} {filter : Log.Filter}
    (hs : i.settings (root.host w) = .ok s)
    (hfilter : Log.Filter.ofRun logFilter s.verbosity = some filter) :
    ((carryOut (root.host w) logFilter i).exitCode, (carryOut (root.host w) logFilter i).stdout) =
      observed i.json (perform (root.host w) s i.action).result := by
  rw [carryOut_of_settings hs hfilter, Outcome.ofEnded]
  cases (perform (root.host w) s i.action).result <;> rfl

/-- A query that fails exits with one and prints nothing. -/
theorem observed_of_failure {host : Host Id} {s : Settings} {q : Query} {project : Option Text}
    {failure : Failure} (h : (perform host s (q.action project)).result = .error failure)
    (json : Bool) : observed json (perform host s (q.action project)).result = (1, []) := by
  rw [h, observed, exitCode_of_result h]

theorem observed_cases (host : Host Id) (s : Settings) (q : Query) (project : Option Text)
    (json : Bool) :
    (observed json (perform host s (q.action project)).result).1 = 0 ∨
      observed json (perform host s (q.action project)).result = (1, []) := by
  cases h : (perform host s (q.action project)).result with
  | error failure => exact .inr (h ▸ observed_of_failure h json)
  | ok report => exact .inl rfl

section Directory

variable {s s' : Settings} {d : Text} {place : List Text} {entries : List (Text × FileTree)}

/-- With a regular file `tsconfig.json` both ways load the same configuration. -/
theorem result_project_eq (hw : IsWorkingDirectory root w) (hs : s.cwd = absolutePath w)
    (hs' : s'.cwd = absolutePath place) (hplatform : s.platform = s'.platform)
    (hlocate : locate root w d = .ok place) (hat : root.at? place = some (.directory entries))
    {content : List UInt8}
    (hcontent : entries.lookup "tsconfig.json".toList = some (.file content)) (q : Query) :
    (perform (root.host w) s (q.action (some d))).result =
      (perform (root.host w) s' (q.action none)).result := by
  have hsome : (entries.lookup "tsconfig.json".toList).isSome := by
    rw [hcontent]
    rfl
  rw [Query.result_perform, Query.result_perform, loadProject_directory hw hs hlocate hat,
    if_pos hsome, loadProject_discovered (hw.of_locate hlocate hat) hs' hat hcontent, hplatform]

/-- Without one the directory is no project. -/
theorem observed_project_eq (hw : IsWorkingDirectory root w) (hs : s.cwd = absolutePath w)
    (hlocate : locate root w d = .ok place) (hat : root.at? place = some (.directory entries))
    (hnot : ¬∃ content, entries.lookup "tsconfig.json".toList = some (.file content)) (q : Query)
    (json : Bool) :
    observed json (perform (root.host w) s (q.action (some d))).result = (1, []) := by
  obtain ⟨failure, hfailure⟩ := exists_failure_of_loadProject hw hs hlocate hat hnot
  have hfails : (perform (root.host w) s (q.action (some d))).result = .error failure := by
    rw [Query.result_perform, hfailure]
    rfl
  exact observed_of_failure hfails json

end Directory

/-- **Where the two ways agree.** A query to a directory as the project exits with the same code
and prints the same as the query that is run in the directory exactly when the directory has a
regular file `tsconfig.json`, or the run in the directory fails as well. -/
theorem project_agrees_iff (hw : IsWorkingDirectory root w) {d : Text}
    {entries : List (Text × FileTree)} (hd : FileTree.find root w d = .ok (.directory entries))
    (logFilter : Option Text) (i : Invocation) (q : Query) :
    let named :=
      carryOut (root.host w) logFilter { i with cwd := none, action := q.action (some d) }
    let inside :=
      carryOut (root.host w) logFilter { i with cwd := some d, action := q.action none }
    (named.exitCode = inside.exitCode ∧ named.stdout = inside.stdout) ↔
      (∃ content, entries.lookup "tsconfig.json".toList = some (.file content)) ∨
        inside.exitCode ≠ 0 := by
  intro named inside
  obtain ⟨place, hlocate, hat⟩ := find_eq_ok_iff.mp hd
  -- Both runs settle, each in its own directory, on the same platform.
  let s := i.settingsIn (absolutePath w)
  let s' := i.settingsIn (absolutePath place)
  have hcwd : s.cwd = absolutePath w := rfl
  have hcwd' : s'.cwd = absolutePath place := rfl
  have hplatform : s.platform = s'.platform := rfl
  have hs : Invocation.settings (root.host w) { i with cwd := none, action := q.action (some d) } =
      .ok s := settings_of_locate hw.locate_dot
  have hs' : Invocation.settings (root.host w) { i with cwd := some d, action := q.action none } =
      .ok s' := settings_of_locate hlocate
  cases hfilter : Log.Filter.ofRun logFilter i.verbosity with
  | none =>
    have hnamed : named = .ofFailure .splitCharacter := carryOut_of_noFilter hs hfilter
    have hinside : inside = .ofFailure .splitCharacter := carryOut_of_noFilter hs' hfilter
    rw [hnamed, hinside]
    exact iff_of_true ⟨rfl, rfl⟩ (.inr (by decide))
  | some filter =>
    have hnamed : (named.exitCode, named.stdout) =
        observed i.json (perform (root.host w) s (q.action (some d))).result :=
      observed_of_settings hs hfilter
    have hinside : (inside.exitCode, inside.stdout) =
        observed i.json (perform (root.host w) s' (q.action none)).result :=
      observed_of_settings hs' hfilter
    by_cases hfile : ∃ content, entries.lookup "tsconfig.json".toList = some (.file content)
    · obtain ⟨content, hcontent⟩ := hfile
      have hresult : (perform (root.host w) s (q.action (some d))).result =
          (perform (root.host w) s' (q.action none)).result :=
        result_project_eq hw hcwd hcwd' hplatform hlocate hat hcontent q
      have hsame := (hnamed.trans (congrArg (observed i.json) hresult)).trans hinside.symm
      exact iff_of_true (Prod.mk.inj hsame) (.inl ⟨content, hcontent⟩)
    · -- The project cannot be loaded, so it is left whether the run in the directory fails.
      have hfailed := hnamed.trans (observed_project_eq hw hcwd hlocate hat hfile q i.json)
      rcases observed_cases (root.host w) s' q none i.json with hzero | hfailed'
      · have hcode : named.exitCode = 1 := (Prod.mk.inj hfailed).1
        have hcode' : inside.exitCode = 0 := (congrArg Prod.fst hinside).trans hzero
        refine iff_of_false (fun h => ?_) (fun h => h.elim hfile (· hcode'))
        have hcodes := hcode.symm.trans (h.1.trans hcode')
        cases hcodes
      · have hfailed' := hinside.trans hfailed'
        have hcode' : inside.exitCode = 1 := (Prod.mk.inj hfailed').1
        have hsame := hfailed.trans hfailed'.symm
        exact iff_of_true (Prod.mk.inj hsame) (.inr (by rw [hcode']; decide))

end Runs

/-! ### A directory of configurations -/

/-- The tree in which the directory `/w/d` has configurations of the given names that declare
nothing, and nothing else. -/
def projectTree (names : List Text) : FileTree :=
  .directory [("w".toList, .directory [("d".toList,
    .directory (names.map fun name => (name, .file [0x7b, 0x7d])))])]

/-- An invocation of `resolve` that prints JSON. -/
def resolveInvocation (cwd project : Option Text) : Invocation :=
  { verbosity := 0, json := true, cwd, platform := some .posix
    action := .resolve ["a".toList] project false }

/-- With both files in the directory the two ways agree. -/
theorem project_agrees_iff_both :
    let root := projectTree ["jsconfig.json".toList, "tsconfig.json".toList]
    let named := carryOut (root.host ["w".toList]) none (resolveInvocation none (some "d".toList))
    let inside := carryOut (root.host ["w".toList]) none (resolveInvocation (some "d".toList) none)
    IsWorkingDirectory root ["w".toList] ∧
      named.exitCode = 0 ∧ named.exitCode = inside.exitCode ∧ named.stdout = inside.stdout := by
  intro root named inside
  have hw : IsWorkingDirectory root ["w".toList] := ⟨by decide, _, rfl⟩
  have hagree := project_agrees_iff hw (d := "d".toList) rfl none (resolveInvocation none none)
    (.resolve ["a".toList])
  exact ⟨hw, rfl, hagree.mpr (.inl ⟨_, rfl⟩)⟩

/-- **With `jsconfig.json` alone they do not.** The directory cannot be opened as a project, while
the run in it finds the configuration. -/
theorem project_disagrees_jsconfig :
    let host := (projectTree ["jsconfig.json".toList]).host ["w".toList]
    host.isFile "d/jsconfig.json".toList = true ∧
      (carryOut host none (resolveInvocation none (some "d".toList))).exitCode = 1 ∧
      (carryOut host none (resolveInvocation (some "d".toList) none)).exitCode = 0 :=
  ⟨rfl, rfl, rfl⟩

end Command

end ImportAlias
