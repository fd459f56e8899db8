import ImportAlias.Resolver.Stage
import Mathlib.Data.List.Dedup

/-!
# What a stage remembers

A stage answers from its cache when it can, so its answers could depend on what it was asked
before. They do not: `Stage.uncached` is what a stage without a cache answers, and a fresh stage
answers the same after every history, also after steps in which its strategy broke off.

The cache is described by one invariant. `Stage.Recalls f history s` says that `s` holds exactly
the paths that `f` found for the specifiers of `history`, and that it has put to `f` what it could
not answer itself: a specifier with a path once, any other each time, a virtual one never. A step
extends the history by its specifier (`Recalls.step`), whatever comes of it, and the run lemma
(`recalls_after`) is the induction over that. Everything observable is read off the invariant.
-/

namespace ImportAlias

namespace Stage

/-! ### The answers without a cache -/

/-- What a stage over `f` answers when it remembers nothing: a virtual specifier is claimed
without a path, and every other one with the path that `f` gives, if any. -/
def uncached (f : Strategy) (id : Text) : Except Breakdown Resolution :=
  if Specifier.isVirtual id then .ok { path := none, claimed := true }
  else (f id).answer.map fun path => { path, claimed := true }

/-- The path that is worth remembering: what `f` gives for a specifier that is not virtual. -/
def found? (f : Strategy) (id : Text) : Option Text :=
  if Specifier.isVirtual id then none
  else
    match (f id).answer with
    | .ok path => path
    | .error _ => none

/-- How often a stage over `f` puts `id` to `f` while it is asked the specifiers of `ids`. -/
def consultations (f : Strategy) (ids : List Text) (id : Text) : Nat :=
  if Specifier.isVirtual id then 0
  else
    match (f id).answer with
    | .ok (some _) => if ids.contains id then 1 else 0
    | _ => ids.count id

/-- The stage after the specifiers of a list were put to it one after another. A step in which
the strategy breaks off counts like any other. -/
def after (s : Stage) (ids : List Text) : Stage := ids.foldl (fun s id => (s.resolve id).state) s

@[simp] theorem after_nil (s : Stage) : s.after [] = s := rfl

@[simp] theorem after_cons (s : Stage) (id : Text) (ids : List Text) :
    s.after (id :: ids) = (s.resolve id).state.after ids := rfl

/-! ### One step -/

section Step

variable {s : Stage} {id : Text}

theorem resolve_of_isVirtual (h : Specifier.isVirtual id) :
    s.resolve id =
      { answer := .ok { path := none, claimed := true }, events := [.virtualSkipped id]
        state := s } := by
  simp [resolve, h]

theorem resolve_of_hit (h : ¬Specifier.isVirtual id) {path : Text}
    (hit : s.cache.get? id = some path) :
    s.resolve id =
      { answer := .ok { path := some path, claimed := true }, events := [.cacheHit id path]
        state := s } := by
  simp [resolve, h, hit]

/-- The cache once a strategy has been asked: only a path is added to it. -/
def remember (cache : Cache) (id : Text) : Except Breakdown (Option Text) → Cache
  | .ok (some path) => cache.insert id path
  | _ => cache

theorem resolve_of_miss (h : ¬Specifier.isVirtual id) (miss : s.cache.get? id = none) :
    s.resolve id =
      { answer := (s.strategy id).answer.map fun path => { path, claimed := true }
        events := (s.strategy id).events
        state :=
          { strategy := s.strategy
            cache := remember s.cache id (s.strategy id).answer
            asked := id :: s.asked } } := by
  simp only [resolve, h, miss]
  rcases (s.strategy id).answer with _ | _ | _ <;> rfl

/-- Whatever is found in the end was claimed. -/
theorem claimed_of_resolve {resolution : Resolution}
    (h : (s.resolve id).answer = .ok resolution) : resolution.claimed = true := by
  by_cases hv : Specifier.isVirtual id
  · rw [resolve_of_isVirtual hv] at h
    cases h; rfl
  · cases hc : s.cache.get? id with
    | some path =>
      rw [resolve_of_hit hv hc] at h
      cases h; rfl
    | none =>
      rw [resolve_of_miss hv hc] at h
      rcases ha : (s.strategy id).answer with _ | path <;> rw [ha] at h <;> cases h
      rfl

end Step

/-! ### The invariant -/

/-- The stage `s` has been asked the specifiers of `history`, and its cache and its record of
consultations are what they then have to be. -/
structure Recalls (f : Strategy) (history : List Text) (s : Stage) : Prop where
  strategy_eq : s.strategy = f
  get?_eq : ∀ id, s.cache.get? id = if id ∈ history then found? f id else none
  count_asked : ∀ id, s.asked.count id = consultations f history id

theorem recalls_fresh (f : Strategy) : Recalls f [] { strategy := f } where
  strategy_eq := rfl
  get?_eq := fun id => by simp
  count_asked := fun id => by
    rw [consultations]
    split <;> [rfl; split] <;> simp

section Invariant

variable {f : Strategy} {history : List Text} {s : Stage}

theorem found?_of_isVirtual {id : Text} (h : Specifier.isVirtual id) : found? f id = none := by
  simp [found?, h]

/-- The cache after a consultation looks up what the strategy found. -/
theorem get?_remember {id : Text} (cache : Cache) (h : ¬Specifier.isVirtual id) (other : Text) :
    (remember cache id (f id).answer).get? other =
      if other = id ∧ (found? f id).isSome then found? f id else cache.get? other := by
  rcases ha : (f id).answer with _ | _ | path
  · simp [found?, h, ha, remember]
  · simp [found?, h, ha, remember]
  · simp [found?, h, ha, remember, OrderedMap.get?_insert]

/-- A specifier with a path is consulted about once, any other that is not virtual each time. -/
theorem consultations_concat (f : Strategy) (ids : List Text) (id other : Text) :
    consultations f (ids ++ [id]) other =
      consultations f ids other +
        if other = id ∧ ¬Specifier.isVirtual id ∧ ¬(id ∈ ids ∧ (found? f id).isSome) then 1
        else 0 := by
  by_cases ho : other = id
  · subst ho
    by_cases hv : Specifier.isVirtual other
    · simp [consultations, hv]
    · rcases ha : (f other).answer with _ | _ | path
      · simp [consultations, found?, hv, ha]
      · simp [consultations, found?, hv, ha]
      · by_cases hm : other ∈ ids <;> simp [consultations, found?, hv, ha, hm]
  · have hc : (ids ++ [id]).count other = ids.count other := by
      simp [List.count_append, Ne.symm ho]
    simp [consultations, ho, hc]

/-- **One step keeps the invariant**, with the history extended by the specifier of the step. -/
theorem Recalls.step (h : Recalls f history s) (id : Text) :
    Recalls f (history ++ [id]) (s.resolve id).state := by
  have hget := h.get?_eq id
  by_cases hv : Specifier.isVirtual id
  · -- Nothing is looked up or asked, and nothing is found about a virtual specifier.
    rw [resolve_of_isVirtual hv]
    refine ⟨h.strategy_eq, fun other => ?_, fun other => ?_⟩
    · rw [h.get?_eq]
      by_cases ho : other = id
      · simp [ho, found?_of_isVirtual hv]
      · simp [ho]
    · rw [h.count_asked, consultations_concat]
      simp [hv]
  · cases hc : s.cache.get? id with
    | some path =>
      -- A hit: the specifier is in the history already, and has a path.
      rw [resolve_of_hit hv hc]
      have hmem : id ∈ history ∧ found? f id = some path := by
        rw [hc] at hget
        split at hget
        · exact ⟨‹_›, hget.symm⟩
        · cases hget
      refine ⟨h.strategy_eq, fun other => ?_, fun other => ?_⟩
      · rw [h.get?_eq]
        by_cases ho : other = id
        · simp [ho, hmem.1]
        · simp [ho]
      · rw [h.count_asked, consultations_concat]
        simp [hmem]
    | none =>
      -- A miss: the strategy is asked, and what it finds enters the cache.
      rw [resolve_of_miss hv hc, h.strategy_eq]
      have hnew : ¬(id ∈ history ∧ (found? f id).isSome) := by
        rintro ⟨hm, hs⟩
        rw [hc, if_pos hm] at hget
        simp [← hget] at hs
      refine ⟨rfl, fun other => ?_, fun other => ?_⟩
      · rw [get?_remember _ hv, h.get?_eq]
        by_cases ho : other = id
        · subst ho
          cases hf : found? f other <;> simp
        · simp [ho]
      · rw [List.count_cons, h.count_asked, consultations_concat]
        by_cases ho : other = id
        · simp [ho, hv, hnew]
        · simp [ho, Ne.symm ho]

/-- **Every run keeps the invariant.** -/
theorem Recalls.after (h : Recalls f history s) (ids : List Text) :
    Recalls f (history ++ ids) (s.after ids) := by
  induction ids generalizing history s with
  | nil => simpa using h
  | cons id ids ih =>
    have := ih (h.step id)
    simpa using this

/-- A stage with the invariant answers like one without a cache. -/
theorem Recalls.answer_resolve (h : Recalls f history s) (id : Text) :
    (s.resolve id).answer = uncached f id := by
  have hget := h.get?_eq id
  by_cases hv : Specifier.isVirtual id
  · rw [resolve_of_isVirtual hv, uncached, if_pos hv]
  · rw [uncached, if_neg hv]
    cases hc : s.cache.get? id with
    | none => rw [resolve_of_miss hv hc, h.strategy_eq]
    | some path =>
      -- What the cache holds is what the strategy would give.
      rw [resolve_of_hit hv hc]
      rw [hc, found?, if_neg hv] at hget
      rcases ha : (f id).answer with _ | found <;> rw [ha] at hget <;> split at hget <;>
        simp_all [Except.map]

end Invariant

/-- The number of remembered paths is the number of different specifiers that have one. -/
theorem Recalls.cachedCount_eq {f : Strategy} {history : List Text} {s : Stage}
    (h : Recalls f history s) :
    s.cachedCount = (history.filter fun id => (found? f id).isSome).dedup.length := by
  have hperm : s.cache.keys.Perm (history.filter fun id => (found? f id).isSome).dedup := by
    refine (List.perm_ext_iff_of_nodup s.cache.nodup_keys (List.nodup_dedup _)).mpr fun id => ?_
    rw [List.mem_dedup, List.mem_filter]
    refine OrderedMap.mem_keys.trans ?_
    rw [h.get?_eq]
    by_cases hm : id ∈ history <;> simp [hm]
  rw [cachedCount, ← OrderedMap.length_keys]
  exact hperm.length_eq

/-! ### Transparency -/

/-- A fresh stage recalls exactly what it was asked. -/
theorem recalls_after (f : Strategy) (ids : List Text) :
    Recalls f ids (after { strategy := f } ids) := (recalls_fresh f).after ids

/-- A step in which the strategy breaks off remembers nothing. -/
theorem cache_of_breakdown {s : Stage} {id : Text} {breakdown : Breakdown}
    (h : (s.resolve id).answer = .error breakdown) : (s.resolve id).state.cache = s.cache := by
  by_cases hv : Specifier.isVirtual id
  · rw [resolve_of_isVirtual hv]
  · cases hc : s.cache.get? id with
    | some path => rw [resolve_of_hit hv hc]
    | none =>
      rw [resolve_of_miss hv hc] at h ⊢
      rcases ha : (s.strategy id).answer with _ | path
      · rfl
      · rw [ha] at h; cases h

/-- **The cache shows in nothing but the number of consultations.** A fresh stage over any
strategy, after any history, answers like one without a cache; it has put a specifier to the
strategy as often as `consultations` says; it remembers one path for each specifier of the history
that has one; and a step in which the strategy breaks off changes neither the cache nor any
answer that is given later. -/
theorem answers_transparent (f : Strategy) (before : List Text) :
    (∀ id, ((after { strategy := f } before).resolve id).answer = uncached f id) ∧
    (∀ id, (after { strategy := f } before).asked.count id = consultations f before id) ∧
    (after { strategy := f } before).cachedCount =
      (before.filter fun id => (found? f id).isSome).dedup.length ∧
    ∀ id breakdown, ((after { strategy := f } before).resolve id).answer = .error breakdown →
      ((after { strategy := f } before).resolve id).state.cache =
        (after { strategy := f } before).cache ∧
      ∀ later id',
        ((((after { strategy := f } before).resolve id).state.after later).resolve id').answer =
          (((after { strategy := f } before).after later).resolve id').answer := by
  have hbefore := recalls_after f before
  refine ⟨hbefore.answer_resolve, hbefore.count_asked, hbefore.cachedCount_eq,
    fun id breakdown hbroken => ⟨cache_of_breakdown hbroken, fun later id' => ?_⟩⟩
  -- Both runs end in a state with the invariant, for histories that differ by one specifier.
  rw [((hbefore.step id).after later).answer_resolve id', (hbefore.after later).answer_resolve id']

/-- A strategy breaks off on `p` between two look-ups of `a`. -/
theorem answers_transparent_breakdown :
    let f : Strategy := fun id =>
      if id = ['p'] then { answer := .error ⟨['!']⟩ } else { answer := .ok (some ('/' :: id)) }
    let s := after { strategy := f } [['a'], ['p'], ['a']]
    (s.resolve ['p']).answer = .error ⟨['!']⟩ ∧ (s.resolve ['p']).state.cache = s.cache ∧
      s.cachedCount = 1 ∧ s.asked.count ['a'] = 1 ∧ s.asked.count ['p'] = 1 := by
  intro f s
  obtain ⟨hanswer, hasked, hcount, hbroken⟩ := answers_transparent f [['a'], ['p'], ['a']]
  have hp : (s.resolve ['p']).answer = .error ⟨['!']⟩ := (hanswer _).trans rfl
  exact ⟨hp, (hbroken _ _ hp).1, hcount.trans (by decide), (hasked _).trans (by decide),
    (hasked _).trans (by decide)⟩

end Stage

end ImportAlias
