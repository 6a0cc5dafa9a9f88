import Mathlib.Data.List.Pairwise
import Mathlib.Tactic.Ring

/-! Recurring work whose next time follows from the last one and from the clock.

An occurrence is due a period after the one before it, or just after that one ended where this is
later. However late an occurrence is, only one follows for the periods it missed.
-/

set_option autoImplicit false

namespace Dash.Foundation

open List

/-- One occurrence: when it was due, when it began and when it ended. -/
structure Occurrence where
  (due began ended : Int)

namespace Occurrence

variable {period : Int}

/-- When the next one is due. -/
def next (period : Int) (occurrence : Occurrence) : Int :=
  max (occurrence.due + period) (occurrence.ended + 1)

/-- It ended before the next one of its phase was due. -/
def Punctual (period : Int) (occurrence : Occurrence) : Prop :=
  occurrence.ended < occurrence.due + period

theorem Punctual.next {occurrence : Occurrence} (punctual : occurrence.Punctual period) :
    occurrence.next period = occurrence.due + period :=
  max_eq_left punctual

theorem ended_lt_next (period : Int) (occurrence : Occurrence) : occurrence.ended < occurrence.next period :=
  Int.lt_of_lt_of_le (Int.lt_succ _) (le_max_right _ _)

theorem due_lt_next (positive : 0 < period) (occurrence : Occurrence) : occurrence.due < occurrence.next period :=
  Int.lt_of_lt_of_le (Int.lt_add_of_pos_right _ positive) (le_max_left _ _)

end Occurrence

/-- The occurrences so far, the first of which was due at the start, and when the next is due. -/
inductive Recurs (start period : Int) : List Occurrence → Int → Prop where
  | none : Recurs start period [] start
  | snoc {occurrences : List Occurrence} {occurrence : Occurrence} :
      Recurs start period occurrences occurrence.due → occurrence.due ≤ occurrence.began →
      occurrence.began ≤ occurrence.ended →
      Recurs start period (occurrences ++ [occurrence]) (occurrence.next period)

namespace Recurs

variable {start period due : Int} {occurrences : List Occurrence}

section

variable (recurs : Recurs start period occurrences due)
include recurs

/-- What has ended did so before the next one is due. -/
theorem before (positive : 0 < period) : ∀ occurrence ∈ occurrences, occurrence.due < due ∧ occurrence.ended < due := by
  induction recurs with
  | none => simp
  | @snoc earlier last _ _ _ ih =>
    have later := last.due_lt_next positive
    intro occurrence member
    rcases mem_append.mp member with inside | same
    · obtain ⟨due, ended⟩ := ih occurrence inside
      exact ⟨due.trans later, ended.trans later⟩
    · cases mem_singleton.mp same
      exact ⟨later, last.ended_lt_next period⟩

/-- Each occurrence was due, and began, after the ones before it had ended. -/
theorem ordered (positive : 0 < period) : occurrences.Pairwise fun first second =>
      first.due < second.due ∧ first.ended < second.due ∧ first.ended < second.began := by
  induction recurs with
  | none => exact .nil
  | @snoc earlier last recurs began _ ih =>
    refine pairwise_append.mpr ⟨ih, pairwise_singleton _ _, fun first member second same => ?_⟩
    cases mem_singleton.mp same
    obtain ⟨due, ended⟩ := recurs.before positive first member
    exact ⟨due, ended, ended.trans_le began⟩

/-- The next occurrence is due a period after the last one, or a second after its end. -/
theorem follows : (occurrences = [] ∧ due = start) ∨
      ∃ earlier last, occurrences = earlier ++ [last] ∧ due = last.next period := by
  cases recurs with
  | none => exact .inl ⟨rfl, rfl⟩
  | snoc recurs began ended => exact .inr ⟨_, _, rfl, rfl⟩

/-- Where all occurrences were punctual, the phase is kept. -/
theorem phase (punctual : ∀ occurrence ∈ occurrences, occurrence.Punctual period) :
    due = start + occurrences.length * period := by
  induction recurs with
  | none => simp
  | @snoc earlier last recurs _ _ ih =>
    have same := ih fun occurrence member => punctual occurrence (mem_append_left _ member)
    rw [(punctual last (mem_append_right _ (mem_singleton_self _))).next, same, length_append, length_singleton]
    push_cast
    ring

/-- Every occurrence of a punctual run was due at its own place in the phase. -/
theorem phases (punctual : ∀ occurrence ∈ occurrences, occurrence.Punctual period) :
    ∀ occurrence ∈ occurrences, ∃ count : Nat, occurrence.due = start + count * period := by
  induction recurs with
  | none => simp
  | @snoc earlier last recurs _ _ ih =>
    have before : ∀ occurrence ∈ earlier, occurrence.Punctual period :=
      fun occurrence member => punctual occurrence (mem_append_left _ member)
    intro occurrence member
    rcases mem_append.mp member with inside | same
    · exact ih before occurrence inside
    · cases mem_singleton.mp same
      exact ⟨earlier.length, recurs.phase before⟩

end

end Recurs

end Dash.Foundation
