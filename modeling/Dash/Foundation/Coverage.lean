import Mathlib.MeasureTheory.Measure.Lebesgue.Basic
import Mathlib.Order.CompletePartialOrder

/-! Stretches of time, clipped by a window: when they do not overlap, their clipped lengths add up to
the length of what they cover of the window. Times are numbers of an ordered group, seen as reals.
-/

set_option autoImplicit false

namespace Dash.Foundation

open MeasureTheory List

variable {F : Type}

/-- The times behind `start`, up to and with `finish`. -/
structure Stretch (F : Type) where
  (start finish : F)

namespace Stretch

def times [Preorder F] (stretch : Stretch F) : Set F := Set.Ioc stretch.start stretch.finish

variable [AddCommGroup F] [LinearOrder F]

/-- The length of the part that lies in the window. -/
def clipped (window stretch : Stretch F) : F :=
  max 0 (min window.finish stretch.finish - max window.start stretch.start)

def total (window : Stretch F) (stretches : List (Stretch F)) : F :=
  (stretches.map window.clipped).sum

theorem clipped_finish [IsOrderedAddMonoid F] {window stretch : Stretch F}
    (before : stretch.finish ≤ window.start) : window.clipped stretch = 0 := by
  refine max_eq_left (sub_nonpos.mpr ?_)
  exact (min_le_right _ _).trans (before.trans (le_max_left _ _))

/-- Stretches outside the window count for nothing. -/
theorem total_filter {ρ : Type} {window : Stretch F} {stretch : ρ → Stretch F} {rows : List ρ}
    {keep : ρ → Bool} (outside : ∀ row ∈ rows, keep row = false → window.clipped (stretch row) = 0) :
    window.total ((rows.filter keep).map stretch) = window.total (rows.map stretch) := by
  induction rows with
  | nil => rfl
  | cons row rest ih =>
    have tail := ih fun other member => outside other (mem_cons_of_mem _ member)
    rw [filter_cons]
    rw [total, total] at tail ⊢
    split
    · rw [map_cons, map_cons, map_cons, map_cons, sum_cons, sum_cons, tail]
    · next dropped =>
      rw [map_cons, map_cons, sum_cons,
        outside row mem_cons_self (Bool.eq_false_of_not_eq_true dropped), zero_add, tail]

end Stretch

/-- A view of times as reals. -/
structure RealTime (F : Type) [AddCommGroup F] [LinearOrder F] where
  real : F →+ ℝ
  increases : StrictMono real

namespace RealTime

variable [AddCommGroup F] [LinearOrder F] (view : RealTime F)

/-- The times of a stretch on the real line. -/
def span (stretch : Stretch F) : Set ℝ := Set.Ioc (view.real stretch.start) (view.real stretch.finish)

theorem span_measurable (stretch : Stretch F) : MeasurableSet (view.span stretch) := measurableSet_Ioc

/-- What the stretches cover. -/
def covered : List (Stretch F) → Set ℝ
  | [] => ∅
  | stretch :: rest => view.span stretch ∪ covered rest

variable {stretches : List (Stretch F)}

theorem mem_covered {time : ℝ} : time ∈ view.covered stretches ↔ ∃ stretch ∈ stretches, time ∈ view.span stretch := by
  induction stretches with
  | nil => simp [covered]
  | cons stretch rest ih => rw [covered, Set.mem_union, ih, exists_mem_cons_iff]

theorem covered_measurable (stretches : List (Stretch F)) : MeasurableSet (view.covered stretches) := by
  induction stretches with
  | nil => exact MeasurableSet.empty
  | cons stretch rest ih => exact (view.span_measurable stretch).union ih

theorem real_clipped (window stretch : Stretch F) : view.real (window.clipped stretch) =
      max 0 (min (view.real window.finish) (view.real stretch.finish) -
        max (view.real window.start) (view.real stretch.start)) := by
  have increases := view.increases.monotone
  rw [Stretch.clipped, increases.map_max, map_zero, map_sub, increases.map_min, increases.map_max]

/-- The length of one stretch in the window. -/
theorem volume_span (window stretch : Stretch F) :
    volume (view.span window ∩ view.span stretch) = ENNReal.ofReal (view.real (window.clipped stretch)) := by
  rw [span, span, Set.Ioc_inter_Ioc, Real.volume_Ioc, real_clipped, ENNReal.ofReal_max, ENNReal.ofReal_zero,
    max_eq_right zero_le]

theorem real_total (window : Stretch F) (stretches : List (Stretch F)) : 0 ≤ view.real (window.total stretches) := by
  induction stretches with
  | nil => rw [Stretch.total, map_nil, sum_nil, map_zero]
  | cons stretch rest ih =>
    rw [Stretch.total, map_cons, sum_cons, map_add, real_clipped]
    exact add_nonneg (le_max_left _ _) ih

theorem span_disjoint {first second : Stretch F} (apart : first.finish ≤ second.start) :
    Disjoint (view.span first) (view.span second) := by
  refine Set.disjoint_left.mpr fun time inFirst inSecond => ?_
  have before := view.increases.monotone apart
  exact absurd (inFirst.2.trans before) (not_le.mpr inSecond.1)

/-- The clipped lengths of disjoint stretches add up to the length of what they cover of the window. -/
theorem volume_covered (window : Stretch F)
    (apart : stretches.Pairwise fun first second => Disjoint (view.span first) (view.span second)) :
    volume (view.span window ∩ view.covered stretches) = ENNReal.ofReal (view.real (window.total stretches)) := by
  induction stretches with
  | nil =>
    rw [covered, Set.inter_empty, measure_empty, Stretch.total, map_nil, sum_nil, map_zero, ENNReal.ofReal_zero]
  | cons stretch rest ih =>
    obtain ⟨own, others⟩ := pairwise_cons.mp apart
    have away : Disjoint (view.span stretch) (view.covered rest) := by
      refine Set.disjoint_left.mpr fun time here there => ?_
      obtain ⟨other, member, within⟩ := view.mem_covered.mp there
      exact Set.disjoint_left.mp (own other member) here within
    have length : view.real (window.total (stretch :: rest)) =
        view.real (window.clipped stretch) + view.real (window.total rest) := by
      rw [Stretch.total, map_cons, sum_cons, map_add]
      rfl
    have positive : 0 ≤ view.real (window.clipped stretch) := by
      rw [real_clipped]
      exact le_max_left _ _
    rw [covered, Set.inter_union_distrib_left, measure_union (away.mono Set.inter_subset_right Set.inter_subset_right)
        ((view.span_measurable window).inter (view.covered_measurable rest)),
      volume_span, ih others, length, ENNReal.ofReal_add positive (view.real_total window rest)]

/-- Disjoint stretches cover no more than the window. -/
theorem total_le (window : Stretch F)
    (apart : stretches.Pairwise fun first second => Disjoint (view.span first) (view.span second))
    (order : window.start ≤ window.finish) :
    window.total stretches ≤ window.finish - window.start := by
  have inside : volume (view.span window ∩ view.covered stretches) ≤ volume (view.span window) :=
    measure_mono Set.inter_subset_left
  rw [view.volume_covered window apart, span, Real.volume_Ioc, ← map_sub] at inside
  have forward : 0 ≤ view.real (window.finish - window.start) := by
    rw [map_sub, sub_nonneg]
    exact view.increases.monotone order
  exact view.increases.le_iff_le.mp ((ENNReal.ofReal_le_ofReal_iff forward).mp inside)

end RealTime

end Dash.Foundation
