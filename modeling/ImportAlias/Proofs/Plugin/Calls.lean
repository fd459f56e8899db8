import ImportAlias.Plugin
import ImportAlias.Proofs.Resolver.Reference

/-!
# The hook over a run of calls

A plugin changes with the calls of its hook: the caches of its resolver grow, and a call that
breaks off takes the resolver away for good. What the hook answers nevertheless depends on little.
A relative specifier is passed on whatever the state. Any other gets the answer of the chain as it
was when the plugin was made, as long as no call has broken off; after that it is refused.

The state is described by `Serves r given p`: the resolver of `p` is `r` with some look-ups made,
and `p` is poisoned exactly when one of the outcomes `given` so far was a breakdown. A call keeps
this with its own outcome added (`Serves.step`), and so does a run (`Serves.after`). The strategies
that options give rise to never break off, so a plugin made of options answers each specifier in
one way (`outcomes_of_answers`).
-/

namespace ImportAlias

namespace Specifier

/-- The specifier is `.` or `..` or begins with one of them and a separator. -/
def RelativeToImporter (id : Text) : Prop :=
  id = ['.'] ∨ id = ['.', '.'] ∨ ['.', '/'] <+: id ∨ ['.', '.', '/'] <+: id

theorem isRelative_iff {id : Text} : isRelative id = true ↔ RelativeToImporter id := by
  simp [isRelative, RelativeToImporter, Text.startsWith, or_assoc]

instance (id : Text) : Decidable (RelativeToImporter id) :=
  decidable_of_iff _ isRelative_iff

end Specifier

open Specifier (RelativeToImporter)

/-- What the hook makes of an answer of the resolver. -/
def HookOutcome.ofAnswer : Except Breakdown (Option Text) → HookOutcome
  | .ok id => .answered id
  | .error breakdown => .brokeOff breakdown

namespace PathsPlugin

/-- A call of the hook. -/
structure Call where
  specifier : Text
  importer : Option Text

/-- The plugin after calls of its hook. A call that is refused or breaks off counts like any
other. -/
def after (p : PathsPlugin) (calls : List Call) : PathsPlugin :=
  calls.foldl (fun p call => (p.resolveId call.specifier call.importer).state) p

/-- The outcomes of calls made one after another. -/
def outcomes (p : PathsPlugin) : List Call → List HookOutcome
  | [] => []
  | call :: calls =>
    let reply := p.resolveId call.specifier call.importer
    reply.outcome :: reply.state.outcomes calls

@[simp] theorem after_nil (p : PathsPlugin) : p.after [] = p := rfl

@[simp] theorem after_cons (p : PathsPlugin) (call : Call) (calls : List Call) :
    p.after (call :: calls) = (p.resolveId call.specifier call.importer).state.after calls := rfl

/-! ### One call -/

section Step

variable {p : PathsPlugin} {specifier : Text} (importer : Option Text)

theorem resolveId_of_relative (h : RelativeToImporter specifier) :
    p.resolveId specifier importer = { outcome := .answered none, events := [], state := p } := by
  rw [resolveId, if_pos (Specifier.isRelative_iff.mpr h)]

theorem resolveId_of_poisoned (h : ¬RelativeToImporter specifier) (hp : p.poisoned = true) :
    p.resolveId specifier importer =
      { outcome := .refused poisonedError, events := [], state := p } := by
  rw [resolveId, if_neg (mt Specifier.isRelative_iff.mp h), if_pos hp]

theorem resolveId_of_healthy (h : ¬RelativeToImporter specifier) (hp : p.poisoned = false) :
    (p.resolveId specifier importer).outcome =
        .ofAnswer (p.resolver.resolve specifier).answer ∧
      (p.resolveId specifier importer).state =
        { resolver := (p.resolver.resolve specifier).state
          poisoned := !(p.resolver.resolve specifier).answer.isOk } := by
  have hrel : ¬Specifier.isRelative specifier = true := mt Specifier.isRelative_iff.mp h
  simp only [resolveId, hrel, hp]
  cases (p.resolver.resolve specifier).answer <;> exact ⟨rfl, rfl⟩

end Step

/-! ### The state behind the outcomes -/

/-- The plugin `p` was made of `r`, and its calls so far had the outcomes `given`. -/
structure Serves (r : Resolver) (given : List HookOutcome) (p : PathsPlugin) : Prop where
  resolver_eq : ∃ ids, p.resolver = r.after ids
  poisoned_iff : p.poisoned = true ↔ ∃ breakdown, .brokeOff breakdown ∈ given

theorem serves_fresh (r : Resolver) : Serves r [] { resolver := r } where
  resolver_eq := ⟨[], rfl⟩
  poisoned_iff := by simp

section Run

variable {r : Resolver} {given : List HookOutcome} {p : PathsPlugin}

/-- **A call keeps the description of the state**, with its own outcome added. -/
theorem Serves.step (h : Serves r given p) (call : Call) :
    Serves r (given ++ [(p.resolveId call.specifier call.importer).outcome])
      (p.resolveId call.specifier call.importer).state := by
  by_cases hrel : RelativeToImporter call.specifier
  · rw [resolveId_of_relative call.importer hrel]
    exact ⟨h.resolver_eq, by simp [h.poisoned_iff]⟩
  cases hp : p.poisoned with
  | true =>
    rw [resolveId_of_poisoned call.importer hrel hp]
    exact ⟨h.resolver_eq, by simp [h.poisoned_iff]⟩
  | false =>
    obtain ⟨houtcome, hstate⟩ := resolveId_of_healthy call.importer hrel hp
    rw [houtcome, hstate]
    refine ⟨?_, ?_⟩
    · obtain ⟨ids, hids⟩ := h.resolver_eq
      refine ⟨ids ++ [call.specifier], ?_⟩
      rw [hids, Resolver.after, Resolver.after, List.foldl_append]
      rfl
    · -- No breakdown was given before, so only this call's outcome counts.
      have hbefore : ∀ breakdown, .brokeOff breakdown ∉ given := fun breakdown hmem =>
        Bool.false_ne_true (hp.symm.trans (h.poisoned_iff.mpr ⟨breakdown, hmem⟩))
      cases (p.resolver.resolve call.specifier).answer <;>
        simp [hbefore, HookOutcome.ofAnswer, Except.isOk, Except.toBool]

/-- **A run keeps the description of the state**, with its outcomes added. -/
theorem Serves.after (h : Serves r given p) (calls : List Call) :
    Serves r (given ++ p.outcomes calls) (p.after calls) := by
  induction calls generalizing given p with
  | nil => simpa [outcomes] using h
  | cons call calls ih =>
    have := ih (h.step call)
    simpa [outcomes] using this

end Run

/-- A chain of fresh stages answers after any look-ups what it answers at first. -/
theorem answer_after_fresh (platform : Platform) (strategies : List Strategy) (ids : List Text)
    (id : Text) :
    let r := Resolver.ofStages platform (strategies.map fun f => { strategy := f })
    ((r.after ids).resolve id).answer = (r.resolve id).answer := by
  intro r
  cases strategies with
  | nil => rw [Resolver.after_of_nil rfl]
  | cons f later =>
    have h (before : List Text) := Resolver.answer_after (r := r) (f := f) rfl before id
    exact (h ids).trans (h []).symm

/-- Where the resolver has a fixed answer to each specifier after every history, so has the
plugin, whoever imports and whatever was called before. -/
theorem outcomes_of_answers {target? : Text → Option Text} {r : Resolver}
    (h : ∀ before id, ((r.after before).resolve id).answer = .ok (target? id))
    (calls : List Call) :
    outcomes { resolver := r } calls =
      calls.map fun call =>
        .answered (if RelativeToImporter call.specifier then none else target? call.specifier) := by
  induction calls generalizing r with
  | nil => rfl
  | cons call calls ih =>
    by_cases hrel : RelativeToImporter call.specifier
    · rw [outcomes, resolveId_of_relative call.importer hrel, List.map_cons, if_pos hrel, ih h]
    · have hanswer : (r.resolve call.specifier).answer = .ok (target? call.specifier) :=
        h [] call.specifier
      obtain ⟨houtcome, hstate⟩ :=
        resolveId_of_healthy (p := { resolver := r }) call.importer hrel rfl
      rw [hanswer] at houtcome hstate
      rw [outcomes, houtcome, hstate, List.map_cons, if_neg hrel]
      exact congrArg _ (ih fun before id => h (call.specifier :: before) id)

/-- The same for a single call, whatever was called before. -/
theorem outcome_of_answers {target? : Text → Option Text} {r : Resolver}
    (h : ∀ before id, ((r.after before).resolve id).answer = .ok (target? id))
    (before : List Call) (call : Call) :
    ((after { resolver := r } before).resolveId call.specifier call.importer).outcome =
      .answered (if RelativeToImporter call.specifier then none else target? call.specifier) := by
  have hlast : ∀ p : PathsPlugin, p.outcomes (before ++ [call]) =
      p.outcomes before ++ [((p.after before).resolveId call.specifier call.importer).outcome] := by
    induction before with
    | nil => intro p; rfl
    | cons first before ih => intro p; simp [outcomes, ih]
  have hall := outcomes_of_answers h (before ++ [call])
  rw [hlast, outcomes_of_answers h before, List.map_append] at hall
  simpa using hall

/-- **What the hook answers.** In a plugin over any chain, after any calls: a relative specifier is
passed on and leaves the plugin as it is. Any other gets the answer of the chain, which is the
same as before all calls, unless an earlier call broke off; then it is refused, and the plugin
stays as it is. A plugin made of options answers every call, each with what the options assign to
the specifier, whoever imports it and whatever was called before. -/
theorem hook_answers (platform : Platform) :
    (∀ (strategies : List Strategy) (before : List Call) (call : Call),
      let r := Resolver.ofStages platform (strategies.map fun f => { strategy := f })
      let p := after { resolver := r } before
      let reply := p.resolveId call.specifier call.importer
      let broken := ∃ breakdown, .brokeOff breakdown ∈ outcomes { resolver := r } before
      (RelativeToImporter call.specifier →
        reply = { outcome := .answered none, events := [], state := p }) ∧
      (¬RelativeToImporter call.specifier → ¬broken →
        reply.outcome = .ofAnswer (p.resolver.resolve call.specifier).answer ∧
          (p.resolver.resolve call.specifier).answer = (r.resolve call.specifier).answer) ∧
      (¬RelativeToImporter call.specifier → broken →
        reply =
          { outcome :=
              .refused
                { plugin := "tsconfig-paths".toList, hook := "resolve_id".toList
                  reason := "resolver lock poisoned".toList }
            events := [], state := p })) ∧
    ∀ (configFile : Text) (options : PathOptions) (r : Resolver),
      Resolver.build platform configFile options = .ok r → ∀ calls : List Call,
        outcomes { resolver := r } calls =
          calls.map fun call =>
            .answered
              (if RelativeToImporter call.specifier then none
              else options.target? platform configFile call.specifier) := by
  refine ⟨fun strategies before call => ?_, fun configFile options r h calls =>
    outcomes_of_answers (Resolver.answer_of_build h) calls⟩
  intro r p reply broken
  have hserves : Serves r (outcomes { resolver := r } before) p :=
    (serves_fresh r).after before
  refine ⟨fun hrel => resolveId_of_relative call.importer hrel, fun hrel hsound => ?_,
    fun hrel hbroken => ?_⟩
  · have hp : p.poisoned = false := Bool.eq_false_iff.mpr (mt hserves.poisoned_iff.mp hsound)
    obtain ⟨ids, hids⟩ := hserves.resolver_eq
    refine ⟨(resolveId_of_healthy call.importer hrel hp).1, ?_⟩
    rw [hids]
    exact answer_after_fresh platform strategies ids call.specifier
  · exact resolveId_of_poisoned call.importer hrel (hserves.poisoned_iff.mpr hbroken)

/-- A strategy breaks off on `p`: before that call `b` is answered, after it `b` is refused, and
`./b` is passed on all the same. A plugin made of a `baseUrl` answers both. -/
theorem hook_answers_breakdown :
    let f : Strategy := fun id =>
      if id = ['p'] then { answer := .error ⟨['!']⟩ } else { answer := .ok (some ('/' :: id)) }
    let fresh : PathsPlugin := { resolver := Resolver.ofStages .posix [{ strategy := f }] }
    let sound := fresh.after [⟨['a'], none⟩]
    let broken := fresh.after [⟨['a'], none⟩, ⟨['p'], none⟩]
    (sound.resolveId ['b'] none).outcome = .answered (some "/b".toList) ∧
      (broken.resolveId ['b'] none).outcome = .refused poisonedError ∧
      (broken.resolveId "./b".toList none).outcome = .answered none ∧
      ∃ r, Resolver.build .posix "/t.json".toList { baseUrl := some ['.'] } = .ok r ∧
        outcomes { resolver := r } [⟨"./b".toList, none⟩, ⟨['b'], some ['m']⟩] =
          [.answered none, .answered (some "/b".toList)] := by
  intro f fresh sound broken
  obtain ⟨hchain, hoptions⟩ := hook_answers .posix
  have hsound : ¬∃ breakdown, HookOutcome.brokeOff breakdown ∈ fresh.outcomes [⟨['a'], none⟩] := by
    rintro ⟨breakdown, hmem⟩
    exact absurd hmem (by
      rw [show fresh.outcomes [⟨['a'], none⟩] = [.answered (some "/a".toList)] from rfl]
      simp)
  have hbroken : ∃ breakdown,
      HookOutcome.brokeOff breakdown ∈ fresh.outcomes [⟨['a'], none⟩, ⟨['p'], none⟩] :=
    ⟨⟨['!']⟩, .tail _ (.head _)⟩
  obtain ⟨r, h⟩ : ∃ r, Resolver.build .posix "/t.json".toList { baseUrl := some ['.'] } = .ok r :=
    ⟨_, rfl⟩
  refine ⟨?_, ?_, ?_, r, h, (hoptions _ _ r h _).trans (by decide +kernel)⟩
  · obtain ⟨houtcome, hanswer⟩ := (hchain [f] [⟨['a'], none⟩] ⟨['b'], none⟩).2.1 (by decide) hsound
    rw [hanswer] at houtcome
    exact houtcome
  · exact congrArg HookReply.outcome
      ((hchain [f] [⟨['a'], none⟩, ⟨['p'], none⟩] ⟨['b'], none⟩).2.2 (by decide) hbroken)
  · exact congrArg HookReply.outcome
      ((hchain [f] [⟨['a'], none⟩, ⟨['p'], none⟩] ⟨"./b".toList, none⟩).1 (by decide))

end PathsPlugin

end ImportAlias
