import Dash.Foundation.Coverage
import Dash.Slo.Lifecycle

/-! The seconds of a window that `_window` counts as good, bad and excluded. A sample stands for the
stretch of time that ends with it; the stretches of an objective never overlap.
-/

set_option autoImplicit false

namespace Dash.Slo

open Dash.Python Dash.Foundation MeasureTheory List
open Foundation.Transaction (bind_ok commit_error commit_ok lift_ok pure_ok read_bind write_bind)

variable {F : Type}

structure Seconds (F : Type) where
  (good bad excluded : F)

/-- What `_window` returns. -/
structure Budget (F : Type) where
  availability : Option F
  (goodSeconds badSeconds excludedSeconds observedSeconds coverage : F)
  (burnRate errorBudgetRemaining : Option F)

/-- The divisions and the rounding to three places of `_window`. -/
structure Meter (F : Type) where
  div : F → F → F
  round : F → F

section Arithmetic

variable [AddCommGroup F] [LinearOrder F]

/-- One round of the loop of `_window`. -/
def countSample (cutoff now : F) (seconds : Seconds F) (sample : Sample F) : Seconds F :=
  let finish := min now sample.observedAt
  let start := max cutoff (finish - sample.intervalSeconds)
  let duration := max 0 (finish - start)
  if sample.excluded then { seconds with excluded := seconds.excluded + duration }
  else if sample.good then { seconds with good := seconds.good + duration }
  else { seconds with bad := seconds.bad + duration }

/-- The loop of `_window`. -/
def countSeconds (samples : List (Sample F)) (cutoff now : F) : Seconds F :=
  samples.foldl (countSample cutoff now) ⟨0, 0, 0⟩

def window [One F] (meter : Meter F) (samples : List (Sample F)) (cutoff now target : F) : Budget F :=
  let seconds := countSeconds samples cutoff now
  let observed := seconds.good + seconds.bad
  let allowed := 1 - target
  let burn := if observed ≠ 0 ∧ allowed ≠ 0 then some (meter.div (meter.div seconds.bad observed) allowed)
    else none
  { availability := if observed ≠ 0 then some (meter.div seconds.good observed) else none
    goodSeconds := meter.round seconds.good
    badSeconds := meter.round seconds.bad
    excludedSeconds := meter.round seconds.excluded
    observedSeconds := meter.round observed
    coverage := min 1 (meter.div observed (max 1 (now - cutoff)))
    burnRate := burn
    errorBudgetRemaining := burn.map fun burn => max 0 (1 - burn) }

/-- The samples that `status` hands to `_window`: those of the objective, from `oldest` on, in the order
of their times. -/
def countedSamples (oldest : F) (objective : String) (samples : List (Sample F)) : List (Sample F) :=
  ((samples.filter fun sample => oldest ≤ sample.observedAt).insertionSort
    fun first second => first.observedAt ≤ second.observedAt).filter fun sample => sample.objectiveId = objective

def Seconds.sum (seconds : Seconds F) : F := seconds.good + seconds.bad + seconds.excluded

def Sample.stretch (sample : Sample F) : Stretch F :=
  ⟨sample.observedAt - sample.intervalSeconds, sample.observedAt⟩

/-- The stretches of one objective, in the order they were stored: each begins where or after every
earlier one ends. -/
def Clear (samples : List (Sample F)) : Prop :=
  samples.Pairwise fun first second => first.objectiveId = second.objectiveId →
    first.stretch.finish ≤ second.stretch.start

theorem countSample_sum {cutoff now : F} {sample : Sample F} (seen : sample.observedAt ≤ now)
    (seconds : Seconds F) : (countSample cutoff now seconds sample).sum =
      seconds.sum + Stretch.clipped ⟨cutoff, now⟩ sample.stretch := by
  have duration : max 0 (min now sample.observedAt - max cutoff (min now sample.observedAt - sample.intervalSeconds)) =
      Stretch.clipped ⟨cutoff, now⟩ sample.stretch := by
    rw [Stretch.clipped, Sample.stretch, min_eq_right seen]
  unfold countSample
  dsimp only
  rw [duration]
  split
  · exact (add_assoc _ _ _).symm
  · split
    · exact (congrArg (· + _) (add_right_comm _ _ _)).trans (add_right_comm _ _ _)
    · exact (congrArg (· + _) (add_assoc _ _ _).symm).trans (add_right_comm _ _ _)

theorem countSeconds_sum {samples : List (Sample F)} {cutoff now : F}
    (seen : ∀ sample ∈ samples, sample.observedAt ≤ now) :
    (countSeconds samples cutoff now).sum = Stretch.total ⟨cutoff, now⟩ (samples.map Sample.stretch) := by
  have loop : ∀ seconds : Seconds F, (samples.foldl (countSample cutoff now) seconds).sum =
      seconds.sum + Stretch.total ⟨cutoff, now⟩ (samples.map Sample.stretch) := by
    induction samples with
    | nil =>
      intro seconds
      rw [foldl_nil, map_nil, Stretch.total, map_nil, sum_nil, add_zero]
    | cons sample rest ih =>
      intro seconds
      rw [foldl_cons, ih fun other member => seen other (mem_cons_of_mem _ member),
        countSample_sum (seen sample mem_cons_self), add_assoc]
      rfl
  rw [countSeconds, loop, Seconds.sum, add_zero, add_zero, zero_add]

theorem total_counted [IsOrderedAddMonoid F] {samples : List (Sample F)} {oldest cutoff now : F}
    {objective : String} (early : oldest ≤ cutoff) :
    Stretch.total ⟨cutoff, now⟩ ((countedSamples oldest objective samples).map Sample.stretch) =
      Stretch.total ⟨cutoff, now⟩
        ((samples.filter fun sample => sample.objectiveId = objective).map Sample.stretch) := by
  have sorted : (countedSamples oldest objective samples).Perm
      ((samples.filter fun sample => oldest ≤ sample.observedAt).filter fun sample => sample.objectiveId = objective) :=
    (perm_insertionSort _ _).filter _
  have same : Stretch.total ⟨cutoff, now⟩ ((countedSamples oldest objective samples).map Sample.stretch) =
      Stretch.total ⟨cutoff, now⟩ (((samples.filter fun sample => sample.objectiveId = objective).filter
        fun sample => oldest ≤ sample.observedAt).map Sample.stretch) := by
    rw [Stretch.total, Stretch.total, ((sorted.map Sample.stretch).map _).sum_eq, filter_comm]
  rw [same]
  refine Stretch.total_filter fun sample _ late => ?_
  have before := not_le.mp (of_decide_eq_false late)
  exact Stretch.clipped_finish (before.le.trans early)

end Arithmetic

section Runs

variable [AddCommGroup F] [One F] [LinearOrder F]

omit [AddCommGroup F] [One F] in
/-- The newest sample of the objective. -/
theorem newest_sample {objective : String} {samples : List (Sample F)} {sample : Sample F}
    (member : sample ∈ samples) (own : sample.objectiveId = objective) :
    ∃ newest ∈ samples, (samplesOf objective samples).head? = some newest ∧ newest.objectiveId = objective ∧
      sample.observedAt ≤ newest.observedAt := by
  have listed : ∀ other, other ∈ samplesOf objective samples ↔ other ∈ samples ∧ other.objectiveId = objective := by
    intro other
    rw [samplesOf, mem_insertionSort, mem_reverse, mem_filter, decide_eq_true_eq]
  have sorted : (samplesOf objective samples).Pairwise fun first second =>
      second.observedAt ≤ first.observedAt := pairwise_insertionSort _ _
  have within := (listed sample).mpr ⟨member, own⟩
  cases order : samplesOf objective samples with
  | nil =>
    rw [order] at within
    cases within
  | cons newest rest =>
    rw [order] at within sorted listed
    obtain ⟨there, same⟩ := (listed newest).mp mem_cons_self
    refine ⟨newest, there, rfl, same, ?_⟩
    rcases mem_cons.mp within with rfl | later
    · exact le_rfl
    · exact (pairwise_cons.mp sorted).1 sample later

namespace Platform

variable (rt : Platform F)

structure Exact : Prop where
  sub : ∀ later earlier, rt.sub later earlier = later - earlier
  one : rt.one = 1

def intervalOf (policy : Policy F) (epoch : F) (previous : Option (Sample F)) : F :=
  min policy.maxSampleGapSeconds (match previous with
    | none => policy.sampleIntervalSeconds
    | some previous => max rt.one (rt.sub epoch previous.observedAt))

variable {policy : Policy F} {tokens : Tokens} {snapshotId : String} {maintenance : Bool}
  {signals : Value F} {db after : Db F} {epoch : F}

omit [One F] in
theorem recordObjective_sample {objective : Objective} {made : Moved F}
    (done : rt.recordObjective policy signals epoch tokens snapshotId maintenance objective db = .ok (made, after)) :
    ∃ sample : Sample F, after.samples = db.samples ++ [sample] ∧ sample.objectiveId = objective.id ∧
      sample.observedAt = epoch ∧
      sample.intervalSeconds = rt.intervalOf policy epoch (samplesOf objective.id db.samples).head? := by
  simp only [recordObjective, read_bind, write_bind, bind_ok, lift_ok] at done
  obtain ⟨signalJson, _, ⟨-, rfl⟩, done⟩ := done
  split at done
  · simp only [pure_ok, Prod.mk.injEq] at done
    obtain ⟨-, rfl⟩ := done
    exact ⟨_, rfl, rfl, rfl, rfl⟩
  · simp only [bind_ok, pure_ok, Prod.mk.injEq] at done
    obtain ⟨_, middle, judged, -, rfl⟩ := done
    exact ⟨_, (rt.judge_cases judged).same.2, rfl, rfl, rfl⟩

variable [IsOrderedAddMonoid F]

/-- A round's stretch begins where or after every earlier one of its objective ends. -/
theorem round_clear (exact_ : rt.Exact) {objective : Objective} {made : Moved F} (clear : Clear db.samples)
    (later : ∀ sample ∈ db.samples, sample.objectiveId = objective.id → sample.observedAt + 1 ≤ epoch)
    (done : rt.recordObjective policy signals epoch tokens snapshotId maintenance objective db = .ok (made, after)) :
    Clear after.samples ∧ ∀ sample ∈ after.samples, sample ∈ db.samples ∨
      (sample.objectiveId = objective.id ∧ sample.observedAt = epoch) := by
  obtain ⟨sample, added, own, now, interval⟩ := rt.recordObjective_sample done
  rw [added]
  constructor
  · refine pairwise_append.mpr ⟨clear, pairwise_singleton _ _, fun earlier member last there same => ?_⟩
    rw [mem_singleton.mp there] at same ⊢
    obtain ⟨newest, held, first, mine, behind⟩ := newest_sample member (same.trans own)
    have gap : 1 ≤ epoch - newest.observedAt := by
      rw [le_sub_iff_add_le, add_comm]
      exact later newest held mine
    have most : sample.intervalSeconds ≤ epoch - newest.observedAt := by
      rw [interval, first, intervalOf]
      refine (min_le_right _ _).trans ?_
      rw [exact_.sub, exact_.one, max_eq_right gap]
    calc earlier.observedAt ≤ newest.observedAt := behind
      _ = epoch - (epoch - newest.observedAt) := (sub_sub_cancel _ _).symm
      _ ≤ epoch - sample.intervalSeconds := sub_le_sub_left most _
      _ = sample.stretch.start := by rw [Sample.stretch, now]
  · intro other member
    rcases mem_append.mp member with old | new
    · exact .inl old
    · rw [mem_singleton.mp new]
      exact .inr ⟨own, now⟩

theorem rounds_clear (exact_ : rt.Exact) : ∀ {objectives : List Objective} {db after : Db F} {made : List (Moved F)},
      (objectives.map Objective.id).Nodup → Clear db.samples →
      (∀ sample ∈ db.samples, sample.objectiveId ∈ objectives.map Objective.id → sample.observedAt + 1 ≤ epoch) →
      Transaction.each (rt.recordObjective policy signals epoch tokens snapshotId maintenance) objectives db =
        .ok (made, after) →
      Clear after.samples ∧ ∀ sample ∈ after.samples, sample ∈ db.samples ∨ sample.observedAt = epoch := by
  intro objectives
  induction objectives with
  | nil =>
    intro db after made _ clear _ done
    simp only [Transaction.each, pure_ok, Prod.mk.injEq] at done
    obtain ⟨rfl, rfl⟩ := done
    exact ⟨clear, fun _ => .inl⟩
  | cons objective rest ih =>
    intro db after made distinct clear later done
    obtain ⟨fresh, distinct⟩ := nodup_cons.mp distinct
    simp only [Transaction.each, bind_ok, pure_ok, Prod.mk.injEq] at done
    obtain ⟨first, middle, one, others, final, loop, _, rfl⟩ := done
    obtain ⟨still, held⟩ := rt.round_clear exact_ clear
      (fun sample member own => later sample member (own ▸ mem_cons_self)) one
    have remains : ∀ sample ∈ middle.samples, sample.objectiveId ∈ rest.map Objective.id →
        sample.observedAt + 1 ≤ epoch := by
      intro sample member named
      rcases held sample member with old | ⟨own, -⟩
      · exact later sample old (mem_cons_of_mem _ named)
      · exact absurd (own ▸ named) fresh
    obtain ⟨last, told⟩ := ih distinct still remains loop
    refine ⟨last, fun sample member => ?_⟩
    rcases told sample member with old | new
    · rcases held sample old with before | ⟨-, now⟩
      · exact .inl before
      · exact .inr now
    · exact .inr new

theorem record_clear (exact_ : rt.Exact) {signals context : Value F} {result : Recorded F} (clear : Clear db.samples)
    (later : ∀ sample ∈ db.samples, sample.observedAt + 1 ≤ epoch)
    (done : rt.record policy signals context epoch tokens db = .ok (result, after)) :
    Clear after.samples ∧ ∀ sample ∈ after.samples, sample ∈ db.samples ∨ sample.observedAt = epoch := by
  obtain ⟨snapshot, ⟨parts⟩⟩ := rt.record_parts done
  have begun : Clear ({ db with snapshots := db.snapshots ++ [snapshot] } : Db F).samples := clear
  obtain ⟨still, told⟩ := rt.rounds_clear exact_ policy.ids_distinct begun
    (fun sample member _ => later sample member) parts.loop
  obtain ⟨-, -, -, kept⟩ := prune_effect parts.pruned
  rw [kept]
  exact ⟨still.sublist filter_sublist, fun sample member => told sample (mem_filter.mp member).1⟩

theorem run_clear (exact_ : rt.Exact) (calls : List (Call F))
    (spaced : (calls.filterMap Call.epoch?).Pairwise fun first second => first + 1 ≤ second) :
    Clear (rt.run calls).samples ∧
      ∀ sample ∈ (rt.run calls).samples, sample.observedAt ∈ calls.filterMap Call.epoch? := by
  induction calls using List.reverseRecOn with
  | nil => exact ⟨List.Pairwise.nil, fun _ impossible => nomatch impossible⟩
  | append_singleton calls call ih =>
    rw [filterMap_append] at spaced
    obtain ⟨before, -, across⟩ := pairwise_append.mp spaced
    obtain ⟨clear, dated⟩ := ih before
    have run : rt.run (calls ++ [call]) = (rt.body call).commit (rt.run calls) := by
      rw [Platform.run, foldl_append]
      rfl
    rw [run, filterMap_append]
    cases result : rt.body call (rt.run calls) with
    | error why =>
      rw [commit_error result]
      exact ⟨clear, fun sample member => mem_append_left _ (dated sample member)⟩
    | ok outcome =>
      obtain ⟨⟨⟩, after⟩ := outcome
      rw [commit_ok result]
      by_cases quiet : ∀ policy signals context epoch tokens, call ≠ .record policy signals context epoch tokens
      · rw [(rt.quiet_moves quiet result).2.2.1]
        exact ⟨clear, fun sample member => mem_append_left _ (dated sample member)⟩
      · simp only [not_forall, not_not] at quiet
        obtain ⟨policy, signals, context, epoch, tokens, rfl⟩ := quiet
        simp only [body, bind_ok, pure_ok, Prod.mk.injEq] at result
        obtain ⟨_, _, recorded, _, rfl⟩ := result
        have later : ∀ sample ∈ (rt.run calls).samples, sample.observedAt + 1 ≤ epoch :=
          fun sample member => across _ (dated sample member) epoch mem_cons_self
        obtain ⟨still, told⟩ := rt.record_clear exact_ clear later recorded
        refine ⟨still, fun sample member => ?_⟩
        rcases told sample member with old | now
        · exact mem_append_left _ (dated sample old)
        · rw [now]
          exact mem_append_right _ mem_cons_self

end Platform

end Runs

def secondsView : RealTime Int where
  real := Int.castAddHom ℝ
  increases := Int.cast_strictMono

end Dash.Slo
