import ImportAlias.Proofs.Command.Resolutions
import ImportAlias.Proofs.Log.Verbosity

/-!
# The verbosity and the log of a run

The log of a run should hold, of all that happens in it, what is on the level that the verbosity
selects or is graver. When the environment asks for nothing, it does so for all events but one: that
`resolve` has come to its end is only logged where the environment asks for it.

The event is reported whenever `resolve` comes to its end, and only then
(`exists_reportsEnd_emitted_iff`). So the log is as it should be exactly when no more detail is asked
for, or another command is run, or the command fails (`followsVerbosity_iff`).
-/

namespace ImportAlias

namespace Command

variable {host : Host Id} {s : Settings} {i : Invocation}

/-- The action is to resolve specifiers. -/
def Action.Resolves : Action → Prop
  | .resolve .. => True
  | .version | .mappings _ => False

/-- All that happens in an invocation, in order. Without a working directory nothing does. -/
def emitted (host : Host Id) (i : Invocation) : List Event :=
  match i.settings host with
  | .error _ => []
  | .ok s => (perform host s i.action).events

/-- Of all that happens, the log holds the events at or above the level that the verbosity selects,
and no others, in order. -/
def FollowsVerbosity (host : Host Id) (i : Invocation) (log : List Log.Entry) : Prop :=
  log.map Log.Entry.event =
    (emitted host i).filter fun e => e.level.rank ≤ (Log.Filter.verbosityLevel i.verbosity).rank

theorem verbosity_of_settings (h : i.settings host = .ok s) : s.verbosity = i.verbosity := by
  simp only [Invocation.settings, bind, pure] at h
  split at h <;> cases h
  rfl

theorem Failure.exitCode_ne_zero (failure : Failure) : failure.exitCode ≠ 0 := by
  cases failure <;> exact Nat.succ_ne_zero _

theorem Outcome.exitCode_ofEnded_eq_zero_iff (json : Bool) (e : Ended) :
    (ofEnded json e).exitCode = 0 ↔ ∃ report, e.result = .ok report := by
  rw [ofEnded]
  cases e.result with
  | error failure =>
    have hcode : (ofFailure failure).exitCode ≠ 0 := failure.exitCode_ne_zero
    simpa using hcode
  | ok report => exact iff_of_true rfl ⟨report, rfl⟩

/-! ### When an end is reported -/

/-- **What `resolve` comes to** with a resolver: it fails, or it reports its end and nothing more. -/
theorem resolve_cases {c : Config.Loaded} {r : Resolver} (hbuild : c.build s.platform = .ok r)
    (specifiers : List Text) (relative : Bool) :
    (∃ failure, resolve s specifiers relative c =
      { result := .error failure, events := eventsBefore c r specifiers }) ∨
    ∃ report resolved total cached, resolve s specifiers relative c =
      { result := .ok report
        events := eventsBefore c r specifiers ++ [.resolveFinished resolved total cached] } := by
  cases hanswer : (r.resolveAll specifiers).answer with
  | error breakdown =>
    refine .inl ⟨.brokeOff breakdown, ?_⟩
    simp only [resolve, withResolver, hbuild, hanswer, Ended.after, Ended.failed, eventsBefore,
      List.append_nil]
  | ok paths =>
    cases hshown : showPaths s relative paths with
    | error e =>
      refine .inl ⟨.relativeStart e, ?_⟩
      simp only [resolve, withResolver, hbuild, hanswer, hshown, Ended.after, Ended.failed,
        eventsBefore, List.append_nil]
    | ok shown =>
      let results := specifiers.zip shown
      refine .inr ⟨.resolutions { config := c.shownPath, baseUrl := r.baseUrl, results },
        shown.countP Option.isSome, results.length, (r.resolveAll specifiers).state.cachedCount, ?_⟩
      simp only [resolve, withResolver, hbuild, hanswer, hshown, Ended.after, eventsBefore,
        List.append_assoc, results]

theorem exists_reportsEnd_resolve_iff (s : Settings) (specifiers : List Text) (relative : Bool)
    (c : Config.Loaded) :
    (∃ e ∈ (resolve s specifiers relative c).events, e.ReportsEnd) ↔
      ∃ report, (resolve s specifiers relative c).result = .ok report := by
  cases hbuild : c.build s.platform with
  | error e =>
    simp [resolve, withResolver, hbuild, Ended.after, Ended.failed, Config.Loaded.event,
      Event.ReportsEnd]
  | ok r =>
    obtain ⟨configFile, -, hresolver⟩ := Config.Loaded.exists_of_build hbuild
    rcases resolve_cases hbuild specifiers relative with
      ⟨failure, hended⟩ | ⟨report, resolved, total, cached, hended⟩ <;> rw [hended]
    · have hbefore : ∀ e ∈ eventsBefore c r specifiers, ¬e.ReportsEnd := by
        intro e he hend
        cases e <;> try exact hend
        exact resolveFinished_not_mem_eventsBefore hresolver specifiers _ _ _ he
      simpa using hbefore
    · exact iff_of_true ⟨_, List.mem_append_right _ List.mem_cons_self, trivial⟩ ⟨report, rfl⟩

/-- An end is reported by a command that resolves and has a report. -/
theorem exists_reportsEnd_perform_iff (host : Host Id) (s : Settings) (action : Action) :
    (∃ e ∈ (perform host s action).events, e.ReportsEnd) ↔
      action.Resolves ∧ ∃ report, (perform host s action).result = .ok report := by
  cases action with
  | version => simp [perform, Action.Resolves, pure]
  | resolve specifiers project relative =>
    simp only [perform, Action.Resolves, bind, pure, true_and]
    cases loadProject host s project with
    | error failure => simp [Ended.failed]
    | ok c => exact exists_reportsEnd_resolve_iff s specifiers relative c
  | mappings project =>
    simp only [perform, Action.Resolves, bind, pure, false_and, iff_false]
    cases loadProject host s project with
    | error failure => simp [Ended.failed]
    | ok c =>
      simp only [showCompiled, withResolver]
      cases c.build s.platform <;>
        simp [Ended.failed, Ended.after, Config.Loaded.event, Resolver.builtEvent, Event.ReportsEnd]

/-! ### The log of a run -/

/-- An invocation either has no working directory, so that nothing happens, or it performs its
action and logs what the filter shows. -/
theorem carryOut_cases (host : Host Id) (i : Invocation) :
    (∃ failure, emitted host i = [] ∧ carryOut host none i = .ofFailure failure) ∨
    ∃ s filter, i.settings host = .ok s ∧ Log.Filter.ofRun none i.verbosity = some filter ∧
      emitted host i = (perform host s i.action).events ∧
      carryOut host none i =
        { Outcome.ofEnded i.json (perform host s i.action) with
          log := filter.entries (span s i.action) (emitted host i)
          jsonLogs := s.jsonLogs } := by
  cases hs : i.settings host with
  | error failure =>
    refine .inl ⟨failure, by rw [emitted, hs], ?_⟩
    simp only [carryOut, bind, pure, hs]
  | ok s =>
    have hevents : emitted host i = (perform host s i.action).events := by rw [emitted, hs]
    obtain ⟨filter, hfilter⟩ : ∃ filter, Log.Filter.ofRun none s.verbosity = some filter := ⟨_, rfl⟩
    refine .inr ⟨s, filter, rfl, verbosity_of_settings hs ▸ hfilter, hevents, ?_⟩
    rw [carryOut_of_settings hs hfilter, hevents]

/-- The log of an invocation. -/
theorem log_carryOut (host : Host Id) (i : Invocation) :
    (carryOut host none i).log =
      ((emitted host i).filter fun e =>
        e.level.rank ≤ (Log.Filter.lastShown i.verbosity e).rank).map
          fun event => { event, span := none } := by
  rcases carryOut_cases host i with ⟨failure, hevents, hout⟩ | ⟨s, filter, -, hfilter, -, hout⟩
  · rw [hout, hevents]
    rfl
  · rw [hout, Log.Filter.entries_of_ofRun_none hfilter]

/-- **An end is reported** when `resolve` succeeds. -/
theorem exists_reportsEnd_emitted_iff (host : Host Id) (i : Invocation) :
    (∃ e ∈ emitted host i, e.ReportsEnd) ↔
      i.action.Resolves ∧ (carryOut host none i).exitCode = 0 := by
  rcases carryOut_cases host i with ⟨failure, hevents, hout⟩ | ⟨s, filter, -, -, hevents, hout⟩
  · rw [hout, hevents]
    exact iff_of_false nofun fun h => failure.exitCode_ne_zero h.2
  · rw [hout, hevents, exists_reportsEnd_perform_iff, ← Outcome.exitCode_ofEnded_eq_zero_iff i.json]

/-- Two ways to select from a list come to the same when they agree on its members. -/
theorem filter_eq_filter_iff {α : Type} {p q : α → Bool} {l : List α} :
    l.filter p = l.filter q ↔ ∀ x ∈ l, p x = q x := by
  refine ⟨fun h x hx => ?_, List.filter_congr⟩
  have hmem : x ∈ l.filter p ↔ x ∈ l.filter q := by rw [h]
  simpa [List.mem_filter, hx] using hmem

theorem followsVerbosity_log_iff (host : Host Id) (i : Invocation) :
    FollowsVerbosity host i (carryOut host none i).log ↔
      i.verbosity = 0 ∨ ¬∃ e ∈ emitted host i, e.ReportsEnd := by
  have hevent : (Log.Entry.event ∘ fun event => { event, span := none }) = id := rfl
  rw [FollowsVerbosity, log_carryOut, List.map_map, hevent, List.map_id, filter_eq_filter_iff]
  simp only [decide_eq_decide, Log.Filter.le_lastShown_iff]
  constructor
  · intro h
    refine or_iff_not_imp_left.mpr fun hdetail => ?_
    rintro ⟨e, he, hend⟩
    exact (h e he).elim hdetail fun hnot => hnot hend
  · rintro (h | h) e he
    · exact .inl h
    · exact .inr fun hend => h ⟨e, he, hend⟩

/-- **What the verbosity governs.** When the environment asks for nothing, the log of a run holds the
events of the library at or above the level that the verbosity selects and the warnings of the
program, in order. These are all events at or above that level, and no others, exactly when no more
detail is asked for, the command is not `resolve`, or it fails. -/
theorem followsVerbosity_iff {platform : Option Text} {args : List Text}
    (hargs : parseArguments platform args = .ok i) :
    let outcome := run host { platform, logFilter := none } args
    outcome.log =
        ((emitted host i).filter fun e =>
          e.level.rank ≤ (Log.Filter.lastShown i.verbosity e).rank).map
            (fun event => { event, span := none }) ∧
      (FollowsVerbosity host i outcome.log ↔
        i.verbosity = 0 ∨ ¬i.action.Resolves ∨ outcome.exitCode ≠ 0) := by
  intro outcome
  have hrun : outcome = carryOut host none i := by simp only [outcome, run, hargs]
  rw [hrun]
  refine ⟨log_carryOut host i, ?_⟩
  rw [followsVerbosity_log_iff, exists_reportsEnd_emitted_iff, not_and_or]

/-- With all detail asked for, `mappings` logs both of its events. -/
theorem followsVerbosity_iff_mappings :
    let host := pathsTree.host ["w".toList]
    let args := ["-vv", "--json", "mappings"].map String.toList
    ∃ i, parseArguments none args = .ok i ∧ i.verbosity = 2 ∧ (emitted host i).length = 2 ∧
      FollowsVerbosity host i (run host {} args).log := by
  intro host args
  obtain ⟨i, hargs, hverbosity, hlength, haction⟩ : ∃ i, parseArguments none args = .ok i ∧
      i.verbosity = 2 ∧ (emitted host i).length = 2 ∧ ¬i.action.Resolves :=
    ⟨_, rfl, rfl, by decide +kernel, id⟩
  exact ⟨i, hargs, hverbosity, hlength, (followsVerbosity_iff hargs).2.mpr (.inr (.inl haction))⟩

/-- **The end of `resolve` is not logged**, though it happens on the level that is asked for. -/
theorem not_followsVerbosity :
    let host := pathsTree.host ["w".toList]
    let args := ["-v", "--json", "resolve", "@/a"].map String.toList
    ∃ i, parseArguments none args = .ok i ∧ i.verbosity = 1 ∧
      .resolveFinished 1 1 1 ∈ emitted host i ∧
      (∀ entry ∈ (run host {} args).log, entry.event ≠ .resolveFinished 1 1 1) ∧
      ¬FollowsVerbosity host i (run host {} args).log := by
  intro host args
  have hemitted : .resolveFinished 1 1 1 ∈ emitted host
      { verbosity := 1, json := true, cwd := none, platform := none
        action := .resolve ["@/a".toList] none false } := by decide +kernel
  have hlog : ∀ entry ∈ (run host {} args).log, entry.event ≠ .resolveFinished 1 1 1 := by
    decide +kernel
  refine ⟨_, rfl, rfl, hemitted, hlog, fun h => ?_⟩
  have hshown : Event.resolveFinished 1 1 1 ∈ (run host {} args).log.map Log.Entry.event := by
    rw [h]
    exact List.mem_filter.mpr ⟨hemitted, rfl⟩
  obtain ⟨entry, hentry, hevent⟩ := List.mem_map.mp hshown
  exact hlog entry hentry hevent

end Command

end ImportAlias
