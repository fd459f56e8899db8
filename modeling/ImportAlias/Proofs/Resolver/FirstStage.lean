import Mathlib.Algebra.GroupWithZero.Nat
import ImportAlias.Proofs.Resolver.History

/-!
# A chain and its first stage

The loop over a chain tests the path of a verdict and its claim separately, as if a stage could
pass a specifier on. A stage never does, so a chain should not be told apart from the resolver
that has its first stage alone, whatever stands behind that stage and whatever breaks off.

The comparison is a simulation. `Extends later alone chain` says that `chain` is `alone` with the
stages `later` behind its only one. A look-up gives both the same answer and the same events and
keeps the relation (`Extends.step`), and so does a run of look-ups (`Extends.after`). What is left
to count, remembered paths and consultations, is read off two related resolvers.
-/

namespace ImportAlias

namespace Resolver

/-- How often each stage has put a specifier to its strategy, in the order of the chain. -/
def consultations (r : Resolver) : List Nat := r.stages.map fun s => s.asked.length

/-- `chain` is `alone`, which has one stage, with the stages `later` behind that one. -/
structure Extends (later : List Stage) (alone chain : Resolver) : Prop where
  platform_eq : chain.platform = alone.platform
  stages_eq : ∃ first, alone.stages = [first] ∧ chain.stages = first :: later

theorem extends_ofStages (platform : Platform) (s : Stage) (later : List Stage) :
    Extends later (ofStages platform [s]) (ofStages platform (s :: later)) :=
  ⟨rfl, s, rfl, rfl⟩

section Simulation

variable {later : List Stage} {alone chain : Resolver}

/-- **A look-up does not tell the two apart.** The later stages are neither asked nor changed. -/
theorem Extends.step (h : Extends later alone chain) (id : Text) :
    (chain.resolve id).answer = (alone.resolve id).answer ∧
      (chain.resolve id).events = (alone.resolve id).events ∧
      Extends later (alone.resolve id).state (chain.resolve id).state := by
  obtain ⟨first, halone, hchain⟩ := h.stages_eq
  by_cases habsolute : Path.isAbsolute alone.platform id
  · -- Neither asks a stage, and both stay as they are.
    have hchainAbsolute : Path.isAbsolute chain.platform id := h.platform_eq ▸ habsolute
    rw [resolve_of_isAbsolute habsolute, resolve_of_isAbsolute hchainAbsolute]
    exact ⟨rfl, rfl, h⟩
  · -- Both ask their first stage, which is the same and settles the specifier.
    have hchainAbsolute : ¬Path.isAbsolute chain.platform id := h.platform_eq ▸ habsolute
    rw [resolve_of_stages halone habsolute, resolve_of_stages hchain hchainAbsolute]
    exact ⟨rfl, rfl, h.platform_eq, (first.resolve id).state, rfl, rfl⟩

/-- **Nor does a run**, also one in which look-ups break off. -/
theorem Extends.after (h : Extends later alone chain) (ids : List Text) :
    Extends later (alone.after ids) (chain.after ids) := by
  induction ids generalizing alone chain with
  | nil => exact h
  | cons id ids ih =>
    obtain ⟨-, -, hnext⟩ := h.step id
    exact ih hnext

/-- The count of remembered paths adds up over the stages. -/
theorem cachedCount_eq_sum (r : Resolver) :
    r.cachedCount = (r.stages.map Stage.cachedCount).sum := by
  rw [cachedCount, List.sum_eq_foldl, List.foldl_map]

/-- The chain remembers what the first stage remembers and what the later ones did before. -/
theorem Extends.cachedCount_eq (h : Extends later alone chain) :
    chain.cachedCount = alone.cachedCount + (later.map Stage.cachedCount).sum := by
  obtain ⟨first, halone, hchain⟩ := h.stages_eq
  rw [cachedCount_eq_sum, cachedCount_eq_sum, halone, hchain]
  simp

/-- The later stages have consulted their strategies as often as they had before. -/
theorem Extends.consultations_eq (h : Extends later alone chain) :
    chain.consultations = alone.consultations ++ later.map fun s => s.asked.length := by
  obtain ⟨first, halone, hchain⟩ := h.stages_eq
  rw [consultations, consultations, halone, hchain]
  rfl

end Simulation

/-- **A chain is its first stage.** Put fresh stages over any strategies behind any stage. After
every run of look-ups, broken ones included, the chain gives each specifier the answer and the
events that the first stage alone gives, remembers as many paths, and has consulted the first
strategy as often and no later one at all. An absolute specifier changes nothing in it. -/
theorem chain_eq_first (platform : Platform) (s : Stage) (strategies : List Strategy)
    (before : List Text) :
    let later : List Stage := strategies.map fun f => { strategy := f }
    let chain := (ofStages platform (s :: later)).after before
    let alone := (ofStages platform [s]).after before
    (∀ id, (chain.resolve id).answer = (alone.resolve id).answer ∧
      (chain.resolve id).events = (alone.resolve id).events) ∧
    chain.cachedCount = alone.cachedCount ∧
    chain.consultations = alone.consultations ++ strategies.map (fun _ => 0) ∧
    ∀ id, Path.isAbsolute platform id →
      chain.resolve id = { answer := .ok none, events := [], state := chain } := by
  intro later chain alone
  have hextends : Extends later alone chain := (extends_ofStages platform s later).after before
  have hcached : (later.map Stage.cachedCount).sum = 0 := by
    have hfresh : later.map Stage.cachedCount = strategies.map fun _ => 0 := by
      rw [List.map_map]; rfl
    rw [hfresh]
    simp
  have hasked : (later.map fun s => s.asked.length) = strategies.map fun _ => 0 := by
    rw [List.map_map]; rfl
  refine ⟨fun id => ?_, ?_, ?_, fun id habsolute => ?_⟩
  · obtain ⟨hanswer, hevents, -⟩ := hextends.step id
    exact ⟨hanswer, hevents⟩
  · rw [hextends.cachedCount_eq, hcached, Nat.add_zero]
  · rw [hextends.consultations_eq, hasked]
  · have hplatform : chain.platform = platform := by
      change ((ofStages platform (s :: later)).after before).platform = platform
      rw [after_of_stages rfl]
      rfl
    exact resolve_of_isAbsolute (hplatform.symm ▸ habsolute)

/-- A first strategy that breaks off on `p` and knows no `n`, before one that knows everything:
the second is never asked, and an absolute specifier reaches neither. -/
theorem chain_eq_first_breakdown :
    let f : Strategy := fun id =>
      if id = ['p'] then { answer := .error ⟨['!']⟩ }
      else if id = ['n'] then { answer := .ok none }
      else { answer := .ok (some ('/' :: id)) }
    let g : Strategy := fun id => { answer := .ok (some id) }
    let chain := (ofStages .posix [{ strategy := f }, { strategy := g }]).after
      [['a'], ['p'], ['n'], ['a'], ['p']]
    (chain.resolve ['n']).answer = .ok none ∧ chain.cachedCount = 1 ∧
      chain.consultations = [4, 0] ∧
      chain.resolve "/a".toList = { answer := .ok none, events := [], state := chain } := by
  intro f g chain
  obtain ⟨hanswers, hcached, hasked, habsolute⟩ :=
    chain_eq_first .posix { strategy := f } [g] [['a'], ['p'], ['n'], ['a'], ['p']]
  exact ⟨(hanswers _).1.trans rfl, hcached.trans rfl, hasked.trans rfl,
    habsolute _ (by decide)⟩

end Resolver

end ImportAlias
