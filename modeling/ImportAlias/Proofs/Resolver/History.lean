import ImportAlias.Proofs.Stage.Recall
import ImportAlias.Resolver.Basic

/-!
# Look-ups one after another

The chain of a resolver looks as if later stages could be reached. They cannot: a stage claims
whatever is put to it, so the first stage settles every specifier that is not absolute
(`resolveIn_cons`), and a run of the whole chain is a run of that stage on the specifiers that
are not absolute (`after_of_stages`). What a stage recalls then gives the answers of the resolver
after any history.
-/

namespace ImportAlias

namespace Resolver

/-- The resolver after the specifiers of a list were looked up one after another. A look-up that
breaks off counts like any other. -/
def after (r : Resolver) (ids : List Text) : Resolver :=
  ids.foldl (fun r id => (r.resolve id).state) r

@[simp] theorem after_nil (r : Resolver) : r.after [] = r := rfl

@[simp] theorem after_cons (r : Resolver) (id : Text) (ids : List Text) :
    r.after (id :: ids) = (r.resolve id).state.after ids := rfl

/-- The platform of a resolver stays what it is. -/
theorem platform_resolve (r : Resolver) (id : Text) :
    (r.resolve id).state.platform = r.platform := by
  rw [resolve]
  split <;> rfl

theorem platform_after (r : Resolver) (ids : List Text) : (r.after ids).platform = r.platform := by
  induction ids generalizing r with
  | nil => rfl
  | cons id ids ih => rw [after_cons, ih, platform_resolve]

/-! ### The first stage settles everything -/

/-- Later stages are neither asked nor changed. -/
theorem resolveIn_cons (id : Text) (s : Stage) (later : List Stage) :
    resolveIn id (s :: later) =
      { answer := (s.resolve id).answer.map (·.path), events := (s.resolve id).events
        state := (s.resolve id).state :: later } := by
  rw [resolveIn]
  cases h : (s.resolve id).answer with
  | error breakdown => rfl
  | ok resolution => simp [Stage.claimed_of_resolve h, Except.map]

section Chain

variable {r : Resolver} {s : Stage} {later : List Stage} {id : Text}

theorem resolve_of_isAbsolute (h : Path.isAbsolute r.platform id) :
    r.resolve id = { answer := .ok none, events := [], state := r } := by
  rw [resolve, if_pos h]

theorem resolve_of_stages (hr : r.stages = s :: later) (h : ¬Path.isAbsolute r.platform id) :
    r.resolve id =
      { answer := (s.resolve id).answer.map (·.path), events := (s.resolve id).events
        state := { r with stages := (s.resolve id).state :: later } } := by
  simp [resolve, h, hr, resolveIn_cons]

theorem resolve_of_nil (hr : r.stages = []) :
    r.resolve id = { answer := .ok none, events := [], state := r } := by
  by_cases h : Path.isAbsolute r.platform id
  · exact resolve_of_isAbsolute h
  · simp only [resolve, h, hr, resolveIn]
    simp [← hr]

end Chain

/-- **A run of a chain is a run of its first stage** on the specifiers that are not absolute. -/
theorem after_of_stages {r : Resolver} {s : Stage} {later : List Stage} (hr : r.stages = s :: later)
    (ids : List Text) :
    r.after ids =
      { r with
        stages := s.after (ids.filter fun id => !Path.isAbsolute r.platform id) :: later } := by
  induction ids generalizing r s with
  | nil => simp [← hr]
  | cons id ids ih =>
    by_cases h : Path.isAbsolute r.platform id
    · rw [after_cons, resolve_of_isAbsolute h, ih hr]
      simp [h]
    · rw [after_cons, resolve_of_stages hr h, ih rfl]
      simp [h]

theorem after_of_nil {r : Resolver} (hr : r.stages = []) (ids : List Text) : r.after ids = r := by
  induction ids with
  | nil => rfl
  | cons id ids ih => rw [after_cons, resolve_of_nil hr, ih]

/-- After any history, a chain that starts with a fresh stage over `f` answers what `f` says. -/
theorem answer_after {r : Resolver} {f : Strategy} {later : List Stage}
    (hr : r.stages = { strategy := f } :: later) (before : List Text) (id : Text) :
    ((r.after before).resolve id).answer =
      if Path.isAbsolute r.platform id then .ok none
      else (Stage.uncached f id).map (·.path) := by
  have hplatform : (r.after before).platform = r.platform := platform_after r before
  have hstages : (r.after before).stages =
      Stage.after { strategy := f } (before.filter fun id => !Path.isAbsolute r.platform id) ::
        later := by rw [after_of_stages hr]
  rw [← hplatform]
  split
  · rename_i h
    rw [resolve_of_isAbsolute h]
  · rename_i h
    rw [resolve_of_stages hstages h, (Stage.recalls_after f _).answer_resolve]

/-- Where each look-up has a fixed answer after every history, a list of look-ups has the list of
these answers. -/
theorem answer_resolveAll {target? : Text → Option Text} (ids : List Text) :
    ∀ r : Resolver, (∀ before id, ((r.after before).resolve id).answer = .ok (target? id)) →
      (r.resolveAll ids).answer = .ok (ids.map target?) := by
  induction ids with
  | nil => intro r _; rfl
  | cons id ids ih =>
    intro r h
    have hid : (r.resolve id).answer = .ok (target? id) := h [] id
    have hrest := ih (r.resolve id).state fun before other => h (id :: before) other
    simp only [resolveAll, hid, hrest]
    rfl

end Resolver

end ImportAlias
