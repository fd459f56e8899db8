import ImportAlias.Proofs.Command.FrontEnds
import ImportAlias.Proofs.Resolver.Trace

/-!
# What `resolve` prints for a list of specifiers

One resolver goes through all specifiers of a command, and its cache grows on the way. Each entry
of the report is nevertheless a function of its own specifier, of the configuration and of the
platform (`Config.Loaded.target?`): two runs over the same configuration agree on every specifier
that they share, in whatever place and however often it stands, so that a rearranged list of
arguments gives the rearranged list of entries.

What the cache does show in is the last event, whose third count is the number of paths that are
remembered at the end. It is the number of different arguments with a path.
-/

namespace ImportAlias

/-- Decoded bytes that are a text are shown as that text. -/
theorem Decoded.lossy_of_text? {d : Decoded} {t : Text} (h : d.text? = some t) : d.lossy = t := by
  induction d generalizing t with
  | nil =>
    cases h
    rfl
  | cons b d ih =>
    cases b with
    | none => cases h
    | some c =>
      obtain ⟨rest, hrest, rfl⟩ := Option.map_eq_some_iff.mp h
      exact congrArg (c :: ·) (ih hrest)

namespace Config.Loaded

/-- The path that a configuration assigns to a specifier. -/
def target? (platform : Platform) (c : Loaded) (id : Text) : Option Text :=
  c.options.target? platform c.shownPath id

theorem shownPath_of_configFile {c : Loaded} {configFile : Text}
    (h : c.configFile = .ok configFile) : c.shownPath = configFile := by
  unfold Loaded.configFile at h
  split at h <;> cases h
  rename_i htext
  exact Decoded.lossy_of_text? htext

end Config.Loaded

namespace Command

variable {s : Settings} {c : Config.Loaded} {r : Resolver}

/-- The events of a command that resolves, up to the last one. -/
def eventsBefore (c : Config.Loaded) (r : Resolver) (specifiers : List Text) : List Event :=
  [c.event, r.builtEvent c.shownPath] ++
    ((if r.hasStages then [] else [.nothingDeclared c.shownPath]) ++
      (r.resolveAll specifiers).events)

/-- Only the last event reports the end. -/
theorem resolveFinished_not_mem_eventsBefore {configFile : Text}
    (hresolver : Resolver.build s.platform configFile c.options = .ok r) (specifiers : List Text)
    (resolved total cached : Nat) :
    .resolveFinished resolved total cached ∉ eventsBefore c r specifiers := by
  intro h
  rcases List.mem_append.mp h with h | h
  · simp [Config.Loaded.event, Resolver.builtEvent] at h
  · rcases List.mem_append.mp h with h | h
    · split at h <;> simp at h
    · exact (Resolver.reportsLookups_of_build hresolver).run specifiers _ h

/-- What an invocation leaves, once its settings and the log filter are known. -/
theorem carryOut_of_settings {host : Host Id} {i : Invocation} {logFilter : Option Text}
    {filter : Log.Filter} (hs : i.settings host = .ok s)
    (hfilter : Log.Filter.ofRun logFilter s.verbosity = some filter) :
    carryOut host logFilter i =
      { Outcome.ofEnded i.json (perform host s i.action) with
        log := filter.entries (span s i.action) (perform host s i.action).events
        jsonLogs := s.jsonLogs } := by
  simp only [carryOut, bind, pure, hs, hfilter]

/-- The tree whose only file is a configuration in `/w` that maps `@/*`. -/
def pathsTree : FileTree :=
  .directory [("w".toList, .directory [("tsconfig.json".toList,
    .file ("\x7b\"compilerOptions\":\x7b\"paths\":\x7b\"@/*\":[\"src/*\"]\x7d\x7d\x7d".toList.map
      fun c => c.toNat.toUInt8))])]

end Command

end ImportAlias
