import ImportAlias.Log.Filter
import Mathlib.Logic.Basic

/-!
# What the verbosity shows

A flag asks for more detail. The level that it selects is meant for all events, those of the library
and those of the program around it, and the log filter of a run sets it for two targets,
`tspaths_core` and `tspaths_cli`. All events of the library come from targets that begin with the
first. No event comes from a target that begins with the second (`Event.not_startsWith_cli`): the
program is called `tspaths`, and its targets begin with that name.

So when the environment asks for nothing, events of the library are shown up to the level that is
selected, and events of the program up to warnings (`Filter.showsEvent_of_ofRun_none`). Of these
there are two, a warning and the report that a command has come to its end, and it is for the latter
that this makes a difference (`Filter.le_lastShown_iff`).
-/

namespace ImportAlias

namespace Event

/-- No target is named after the command line. -/
theorem not_startsWith_cli (e : Event) : Text.startsWith "tspaths_cli".toList e.target = false := by
  cases e <;> rfl

/-- The event reports that a command has come to its end. -/
def ReportsEnd : Event → Prop
  | .resolveFinished .. => True
  | _ => False

end Event

namespace Log

/-- A directive that names a target alone is about the events from there. -/
theorem Directive.fits_target (target : Text) (rank : Nat) (e : Event) :
    (({ target := some target, rank } : Directive).isStatic &&
      ({ target := some target, rank } : Directive).fitsEvent e) =
        Text.startsWith target e.target := by
  simp [isStatic, fitsEvent, fitsTarget]

namespace Filter

/-- The start of the targets of the library. -/
def coreTarget : Text := "tspaths_core".toList

/-- The last level on which an event is shown. The verbosity sets it for events of the library. -/
def lastShown (verbosity : Nat) (e : Event) : Level :=
  if Text.startsWith coreTarget e.target then verbosityLevel verbosity else .warn

/-- Of the directives of the verbosity, one fits the events of the library and none fits others. -/
theorem filter_verbose (verbosity : Nat) (e : Event) :
    ((verbose verbosity).filter fun d => d.isStatic && d.fitsEvent e) =
      if Text.startsWith coreTarget e.target then
        [{ target := some coreTarget, rank := (verbosityLevel verbosity).rank }]
      else [] := by
  simp only [verbose, verboseTargets, List.map_cons, List.map_nil, List.filter_cons,
    Directive.fits_target, e.not_startsWith_cli, Bool.false_eq_true, if_false, List.filter_nil]
  rfl

/-! ### When the environment asks for nothing -/

section Unset

variable {verbosity : Nat} {f : Filter} (h : ofRun none verbosity = some f)

include h

theorem directives_of_ofRun_none :
    f.directives = { rank := Level.warn.rank } :: verbose verbosity := by
  cases h
  rfl

/-- No directive takes effect within spans. -/
theorem not_isDynamic_of_ofRun_none : ∀ d ∈ f.directives, d.isDynamic = false := by
  rw [directives_of_ofRun_none h]
  simp [verbose, verboseTargets, Directive.isDynamic]

/-- The directive about the library is preferred to the one about everything. -/
theorem decides_of_ofRun_none (e : Event) :
    (f.decides e.level fun d => d.fitsEvent e) =
      decide (e.level.rank ≤ (lastShown verbosity e).rank) := by
  rw [decides, directives_of_ofRun_none h, List.filter_cons_of_pos rfl, filter_verbose, lastShown]
  split <;> rfl

/-- **Which events are shown** depends on their levels and targets. -/
theorem showsEvent_of_ofRun_none (s : Span) (e : Event) :
    f.showsEvent s e = decide (e.level.rank ≤ (lastShown verbosity e).rank) := by
  have hwithin : f.showsWithin s e.level = false := by
    rw [showsWithin, List.any_eq_false]
    intro d hd
    simp [not_isDynamic_of_ofRun_none h d hd]
  rw [showsEvent, hwithin, Bool.false_or, decides_of_ofRun_none h]

/-- Spans come from the program and are not as grave as warnings. -/
theorem showsSpan_of_ofRun_none (s : Span) : f.showsSpan s = false := by
  have hdynamic : (f.directives.any fun d => d.isDynamic && d.fitsSpan s) = false := by
    rw [List.any_eq_false]
    intro d hd
    simp [not_isDynamic_of_ofRun_none h d hd]
  rw [showsSpan, hdynamic, Bool.false_or, decides, directives_of_ofRun_none h]
  rfl

theorem entries_of_ofRun_none (s : Span) (events : List Event) :
    f.entries s events =
      (events.filter fun e => e.level.rank ≤ (lastShown verbosity e).rank).map
        fun event => { event, span := none } := by
  simp only [entries, showsSpan_of_ofRun_none h, Bool.false_eq_true, if_false]
  congr 1
  exact List.filter_congr fun e _ => showsEvent_of_ofRun_none h s e

end Unset

/-! ### What was meant to be shown -/

theorem warn_le_verbosityLevel (verbosity : Nat) :
    Level.warn.rank ≤ (verbosityLevel verbosity).rank := by
  match verbosity with
  | 0 | 1 => decide
  | _ + 2 => exact Nat.le_of_ble_eq_true rfl

theorem debug_le_verbosityLevel_iff (verbosity : Nat) :
    Level.debug.rank ≤ (verbosityLevel verbosity).rank ↔ verbosity ≠ 0 := by
  match verbosity with
  | 0 | 1 => decide
  | _ + 2 => exact iff_of_true (Nat.le_of_ble_eq_true rfl) (Nat.succ_ne_zero _)

/-- **An event is shown as the verbosity asks for** unless it asks for more detail and the event
reports the end of a command. -/
theorem le_lastShown_iff (verbosity : Nat) (e : Event) :
    (e.level.rank ≤ (lastShown verbosity e).rank ↔
        e.level.rank ≤ (verbosityLevel verbosity).rank) ↔
      verbosity = 0 ∨ ¬e.ReportsEnd := by
  cases e with
  | nothingDeclared config =>
    exact iff_of_true (iff_of_true (Nat.le_refl _) (warn_le_verbosityLevel verbosity)) (.inr id)
  | resolveFinished resolved total cached =>
    have hhidden : ¬Level.debug.rank ≤ Level.warn.rank := by decide
    have hend : ¬¬(Event.resolveFinished resolved total cached).ReportsEnd := not_not_intro trivial
    change (Level.debug.rank ≤ Level.warn.rank ↔ _) ↔ _
    rw [iff_false_left hhidden, or_iff_left hend, Event.level, debug_le_verbosityLevel_iff, not_not]
  -- The others come from the library.
  | _ => exact iff_of_true Iff.rfl (.inr id)

end Filter

end Log

end ImportAlias
