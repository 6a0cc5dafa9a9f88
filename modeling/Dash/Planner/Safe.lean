import Dash.Foundation.Attempts
import Dash.Planner.Policy
import Dash.Python.Calendar
import Mathlib.Data.List.ReduceOption

/-! When the planner divides by zero: a policy whose buckets are longer than its windows expects none in a
window, and a window in which one starts all the same has no coverage.
-/

set_option autoImplicit false

namespace Dash.Planner

open Dash.Python Dash.Foundation List

structure Sound (rows : List Observation) : Prop where
  sampled : ∀ row ∈ rows, 0 < row.samples
  distinct : (rows.map Observation.bucketStart).Nodup

variable {rows : List Observation}

theorem observe_sound (sound : Sound rows) (bucket players maps epoch : Int) :
    Sound (observe bucket players maps epoch rows) := by
  unfold observe
  split
  · refine ⟨fun row member => ?_, ?_⟩
    · obtain ⟨old, there, rfl⟩ := mem_map.mp member
      have positive := sound.sampled old there
      split
      · exact Int.lt_add_one_of_le positive.le
      · exact positive
    · have keys : (update Observation.bucketStart bucket (Observation.add players maps epoch) rows).map
          Observation.bucketStart = rows.map Observation.bucketStart := Table.update_keys fun _ => rfl
      rw [keys]
      exact sound.distinct
  · next fresh =>
    refine ⟨fun row member => ?_, Table.insert_keys sound.distinct fresh⟩
    rcases mem_append.mp member with old | new
    · exact sound.sampled row old
    · rw [mem_singleton.mp new]
      exact Int.one_pos

theorem Sound.filter (sound : Sound rows) (keep : Observation → Bool) : Sound (rows.filter keep) :=
  ⟨fun row member => sound.sampled row (mem_filter.mp member).1, sound.distinct.sublist (filter_sublist.map _)⟩

theorem rowsSince_sound {table : List Observation} (sound : Sound table) (cutoff : Rat) :
    Sound (rowsSince cutoff table) := by
  have kept := sound.filter fun row => decide (truncated cutoff ≤ row.bucketStart)
  refine ⟨fun row member => kept.sampled row ((mem_insertionSort _).mp member), ?_⟩
  exact ((perm_insertionSort _ _).map _).nodup_iff.mpr kept.distinct

namespace Platform

variable (rt : Platform)

theorem recorded_sound (policy : Policy) (readings : List Reading) : Sound (rt.recorded policy readings) := by
  induction readings using List.reverseRecOn with
  | nil => exact ⟨(fun _ impossible => by cases impossible), nodup_nil⟩
  | append_singleton readings reading ih =>
    rw [recorded, foldl_append, ← recorded]
    simp only [foldl_cons, foldl_nil]
    split
    · next after done =>
      obtain ⟨players, -, done⟩ := result_bind.mp done
      obtain ⟨maps, -, done⟩ := result_bind.mp done
      cases done
      exact (observe_sound ih _ _ _ _).filter _
    · exact ih

end Platform

structure Admitted (policy : Policy) : Prop where
  bucket : 60 ≤ policy.bucketSeconds
  duration : 5 ≤ policy.durationMinutes
  coverage : 1 / 2 ≤ policy.minimumWindowCoverage ∧ policy.minimumWindowCoverage ≤ 1

namespace Platform

variable (rt : Platform)

theorem integer_ok {value : Value Rat} {name : String} {minimum maximum number : Int}
    (valid : rt.integer value name minimum maximum = .ok number) : minimum ≤ number ∧ number ≤ maximum := by
  unfold integer at valid
  split at valid
  · split at valid <;> cases valid
  · split at valid
    · next bounds =>
      cases valid
      exact bounds
    · cases valid

theorem loadPolicy_admitted {text : String} {policy : Policy} (accepted : rt.loadPolicy text = .ok policy) :
    Admitted policy := by
  obtain ⟨raw, -, accepted⟩ := result_bind.mp accepted
  split at accepted
  · cases accepted
  rw [result_refuse] at accepted
  replace accepted := accepted.2
  dsimp only at accepted
  split at accepted
  · cases accepted
  obtain ⟨lookbackDays, -, accepted⟩ := result_bind.mp accepted
  obtain ⟨retentionDays, -, accepted⟩ := result_bind.mp accepted
  obtain ⟨horizonDays, -, accepted⟩ := result_bind.mp accepted
  obtain ⟨bucketSeconds, bucket, accepted⟩ := result_bind.mp accepted
  obtain ⟨slotMinutes, -, accepted⟩ := result_bind.mp accepted
  obtain ⟨durationMinutes, duration, accepted⟩ := result_bind.mp accepted
  obtain ⟨minimumNoticeMinutes, -, accepted⟩ := result_bind.mp accepted
  obtain ⟨minimumSampleDays, -, accepted⟩ := result_bind.mp accepted
  obtain ⟨weekdayWeightingMinimumDays, -, accepted⟩ := result_bind.mp accepted
  obtain ⟨recommendationCount, -, accepted⟩ := result_bind.mp accepted
  rw [result_refuse, result_refuse] at accepted
  replace accepted := accepted.2.2
  obtain ⟨eligibleStartMinute, -, accepted⟩ := result_bind.mp accepted
  obtain ⟨eligibleEndMinute, -, accepted⟩ := result_bind.mp accepted
  obtain ⟨defaultMinute, -, accepted⟩ := result_bind.mp accepted
  rw [result_refuse, result_refuse, result_refuse] at accepted
  replace accepted := accepted.2.2.2
  obtain ⟨coverage, -, accepted⟩ := result_bind.mp accepted
  rw [result_refuse] at accepted
  obtain ⟨share, accepted⟩ := accepted
  cases accepted
  exact ⟨(rt.integer_ok bucket).1, (rt.integer_ok duration).1, not_not.mp share⟩

end Platform

theorem uniqueBuckets_distinct {entries : List Observation}
    (distinct : (entries.map Observation.bucketStart).Nodup) : uniqueBuckets entries = entries := by
  induction entries using List.reverseRecOn with
  | nil => rfl
  | append_singleton entries entry ih =>
    rw [map_append, nodup_append] at distinct
    obtain ⟨earlier, -, apart⟩ := distinct
    have fresh : entry.bucketStart ∉ entries.map Observation.bucketStart := fun known =>
      apart _ known _ (mem_singleton_self _) rfl
    rw [uniqueBuckets, Table.upsertAll_append, ← uniqueBuckets, ih earlier, upsert, if_neg fresh]

theorem divide_ok {first second : Rat} (nonzero : second ≠ 0) : divide first second = .ok (first / second) :=
  if_neg nonzero

variable {policy : Policy}

theorem expectedBuckets_nonneg (admitted : Admitted policy) : 0 ≤ expectedBuckets policy := by
  have duration := admitted.duration
  have bucket := admitted.bucket
  exact Int.ediv_nonneg (by omega) (by omega)

theorem expectedBuckets_eq_zero (admitted : Admitted policy) :
    expectedBuckets policy = 0 ↔ policy.durationMinutes * 60 < policy.bucketSeconds := by
  have duration := admitted.duration
  have bucket := admitted.bucket
  constructor
  · intro zero
    have close := Int.lt_ediv_add_one_mul_self (policy.durationMinutes * 60) (show 0 < policy.bucketSeconds by omega)
    rwa [← expectedBuckets, zero, zero_add, one_mul] at close
  · exact fun short => Int.ediv_eq_zero_of_lt (by omega) short

section Days

variable {policy : Policy} {day : Int} {entries : List Observation}

theorem averages_ok (sound : Sound entries) :
    ∃ averages, entries.mapM (fun row => divide row.playerSum row.samples) = .ok averages := by
  refine Attempts.mapM_ok.mpr fun row member => ⟨_, divide_ok ?_⟩
  exact Int.cast_ne_zero.mpr (sound.sampled row member).ne'

theorem sampleOf_ok (sound : Sound entries) (some : entries ≠ []) :
    (∃ sample, sampleOf policy day entries = .ok sample) ↔ expectedBuckets policy ≠ 0 := by
  have nonempty : (entries.length : Rat) ≠ 0 :=
    Nat.cast_ne_zero.mpr fun empty => some (length_eq_zero_iff.mp empty)
  obtain ⟨averages, averaged⟩ := averages_ok sound
  have unfolded : sampleOf policy day entries = if (entries.length : Int) < minimumBuckets policy then .ok none
      else divide entries.length (expectedBuckets policy) >>= fun share => .ok (Option.some
        { date := day
          weekday := weekday day
          mean := averages.sum / averages.length
          peak := (entries.map Observation.playerMax).foldl max 0
          occupied := entries.any fun row => decide (0 < row.playerMax)
          coverage := min 1 share }) := by
    have length : (averages.length : Rat) ≠ 0 := by
      rw [Attempts.mapM_length averaged]
      exact nonempty
    unfold sampleOf
    rw [uniqueBuckets_distinct sound.distinct]
    dsimp only
    rw [averaged]
    dsimp only [bind, Except.bind]
    rw [divide_ok length]
  rw [unfolded]
  constructor
  · rintro ⟨sample, done⟩ zero
    have few : ¬ (entries.length : Int) < minimumBuckets policy := by
      have none : minimumBuckets policy = 0 := by
        rw [minimumBuckets, zero, Int.cast_zero, zero_mul]
        exact Rat.ceil_intCast 0
      omega
    rw [if_neg few, zero, divide, if_pos Int.cast_zero] at done
    cases done
  · intro expected
    split
    · exact ⟨_, rfl⟩
    · rw [divide_ok (Int.cast_ne_zero.mpr expected)]
      exact ⟨_, rfl⟩

theorem sampleOf_sample {sample : Sample} (sound : Sound entries)
    (done : sampleOf policy day entries = .ok (some sample)) :
    sample.date = day ∧ minimumBuckets policy ≤ entries.length ∧
      sample.coverage = min 1 ((entries.length : Rat) / expectedBuckets policy) := by
  unfold sampleOf at done
  rw [uniqueBuckets_distinct sound.distinct] at done
  dsimp only at done
  split at done
  · cases done
  · next enough =>
    obtain ⟨averages, -, done⟩ := Attempts.bind_ok.mp done
    obtain ⟨mean, -, done⟩ := Attempts.bind_ok.mp done
    obtain ⟨share, divided, done⟩ := Attempts.bind_ok.mp done
    cases done
    refine ⟨rfl, not_lt.mp enough, ?_⟩
    unfold divide at divided
    split at divided <;> cases divided
    rfl

end Days

def observed (policy : Policy) (startMinute : Int) (rows : List Observation) (day : Int) : List Observation :=
  (rows.filter (inside policy startMinute)).filter fun row => dayOf policy row = day

section Windows

variable {policy : Policy} {startMinute : Int} {rows : List Observation}

/-- A window goes through when a bucket is expected of it, or none was observed in it. -/
theorem allSamples_ok (sound : Sound rows) : (∃ samples, allSamples policy startMinute rows = .ok samples) ↔
      expectedBuckets policy ≠ 0 ∨ ∀ row ∈ rows, inside policy startMinute row = false := by
  have each : ∀ day ∈ ((rows.filter (inside policy startMinute)).map (dayOf policy)).eraseDups,
      (∃ sample, sampleOf policy day (observed policy startMinute rows day) = .ok sample) ↔
        expectedBuckets policy ≠ 0 := by
    intro day member
    obtain ⟨row, within, same⟩ := mem_map.mp (mem_eraseDups.mp member)
    refine sampleOf_ok ((sound.filter _).filter _) fun empty => ?_
    have there : row ∈ observed policy startMinute rows day := mem_filter.mpr ⟨within, decide_eq_true same⟩
    rw [empty] at there
    cases there
  have all : (∃ samples, allSamples policy startMinute rows = .ok samples) ↔
      ∀ day ∈ ((rows.filter (inside policy startMinute)).map (dayOf policy)).eraseDups,
        ∃ sample, sampleOf policy day (observed policy startMinute rows day) = .ok sample := by
    rw [← Attempts.mapM_ok]
    constructor
    · rintro ⟨samples, done⟩
      obtain ⟨results, mapped, -⟩ := Attempts.bind_ok.mp done
      exact ⟨results, mapped⟩
    · rintro ⟨results, mapped⟩
      exact ⟨results.reduceOption, Attempts.bind_ok.mpr ⟨results, mapped, rfl⟩⟩
  rw [all]
  constructor
  · intro through
    by_contra failing
    obtain ⟨zero, someRow⟩ := not_or.mp failing
    push Not at someRow
    obtain ⟨row, member, within⟩ := someRow
    have day : dayOf policy row ∈ ((rows.filter (inside policy startMinute)).map (dayOf policy)).eraseDups :=
      mem_eraseDups.mpr (mem_map_of_mem (mem_filter.mpr ⟨member, Bool.eq_true_of_not_eq_false within⟩))
    exact zero ((each _ day).mp (through _ day))
  · rintro (expected | outside) day member
    · exact (each day member).mpr expected
    · obtain ⟨row, within, -⟩ := mem_map.mp (mem_eraseDups.mp member)
      obtain ⟨there, inWindow⟩ := mem_filter.mp within
      rw [outside row there] at inWindow
      cases inWindow

theorem allSamples_each (sound : Sound rows) {samples : List Sample}
    (done : allSamples policy startMinute rows = .ok samples) {sample : Sample} (member : sample ∈ samples) :
    observed policy startMinute rows sample.date ≠ [] ∧
      minimumBuckets policy ≤ (observed policy startMinute rows sample.date).length ∧
      sample.coverage = min 1
        (((observed policy startMinute rows sample.date).length : Rat) / expectedBuckets policy) := by
  obtain ⟨results, mapped, same⟩ := Attempts.bind_ok.mp done
  cases same
  obtain ⟨day, listed, found⟩ := Attempts.mapM_each mapped (reduceOption_mem_iff.mp member)
  obtain ⟨dated, enough, covered⟩ := sampleOf_sample ((sound.filter _).filter _) found
  obtain ⟨row, within, same⟩ := mem_map.mp (mem_eraseDups.mp listed)
  subst dated
  have there : row ∈ observed policy startMinute rows sample.date :=
    mem_filter.mpr ⟨within, decide_eq_true same⟩
  exact ⟨ne_nil_of_mem there, enough, covered⟩

end Windows

theorem perSample_ok (value : Rat) (samples : List Sample) : ∃ share, perSample value samples = .ok share := by
  unfold perSample
  split
  · exact ⟨0, rfl⟩
  · next some =>
    exact ⟨_, divide_ok (Nat.cast_ne_zero.mpr fun empty => some (length_eq_zero_iff.mp empty))⟩

def evidence (policy : Policy) (table : List Observation) (now : Rat) : List Observation :=
  rowsSince (now - policy.lookbackDays * 86400) table

namespace Platform

variable (rt : Platform)

theorem score_ok (policy : Policy) (rows : List Observation) (candidate : Local) :
    (∃ score, rt.score policy rows candidate = .ok score) ↔
      ∃ samples, allSamples policy candidate.minute rows = .ok samples := by
  constructor
  · rintro ⟨score, done⟩
    obtain ⟨chosen, days, -⟩ := Attempts.bind_ok.mp done
    obtain ⟨samples, through, -⟩ := Attempts.bind_ok.mp days
    exact ⟨samples, through⟩
  · rintro ⟨all, through⟩
    obtain ⟨⟨samples, scope⟩, chosen⟩ : ∃ chosen, daySamples policy rows candidate = .ok chosen :=
      ⟨_, Attempts.bind_ok.mpr ⟨all, through, rfl⟩⟩
    obtain ⟨meanPlayers, mean⟩ := perSample_ok (samples.map Sample.mean).sum samples
    obtain ⟨probability, occupied⟩ := perSample_ok (samples.countP Sample.occupied) samples
    obtain ⟨coverage, covered⟩ := perSample_ok (samples.map Sample.coverage).sum samples
    exact ⟨_, Attempts.bind_ok.mpr ⟨_, chosen, Attempts.bind_ok.mpr ⟨_, mean, Attempts.bind_ok.mpr
      ⟨_, occupied, Attempts.bind_ok.mpr ⟨_, covered, rfl⟩⟩⟩⟩⟩

theorem comparison_ok (best baseline : Option Score) (measured : Bool) :
    ∃ result, comparison best baseline measured = .ok result := by
  unfold comparison
  split
  · next best baseline =>
    split
    · dsimp only
      split
      · exact ⟨_, rfl⟩
      · next some =>
        have nonzero : baseline.expectedPlayerMinutes ≠ 0 := fun zero => some zero.le
        rw [divide_ok nonzero]
        exact ⟨_, rfl⟩
    · exact ⟨_, rfl⟩
  · exact ⟨_, rfl⟩

/-- The status returns when every candidate window goes through. -/
theorem status_ok (policy : Policy) (table : List Observation) (now : Rat) :
    (∃ result, rt.status policy table now = .ok result) ↔ ∀ candidate ∈ candidateWindows policy now,
        ∃ samples, allSamples policy candidate.minute (evidence policy table now) = .ok samples := by
  have scored : (∀ candidate ∈ candidateWindows policy now,
      ∃ samples, allSamples policy candidate.minute (evidence policy table now) = .ok samples) ↔
      ∃ scores, (candidateWindows policy now).mapM (rt.score policy (evidence policy table now)) = .ok scores := by
    rw [Attempts.mapM_ok]
    exact forall₂_congr fun candidate _ => (rt.score_ok policy _ candidate).symm
  rw [scored]
  constructor
  · rintro ⟨result, done⟩
    obtain ⟨scores, mapped, -⟩ := Attempts.bind_ok.mp done
    exact ⟨scores, mapped⟩
  · rintro ⟨scores, mapped⟩
    unfold status
    dsimp only
    rw [← evidence, mapped]
    dsimp only [bind, Except.bind]
    obtain ⟨compared, same⟩ := comparison_ok _ _ _
    rw [same]
    exact ⟨_, rfl⟩

end Platform

/-- The planner is safe on a table: the status returns, and every sample of a candidate window has a coverage
above zero and at most one, an observed bucket in the window, and the required share of the expected ones. -/
structure Safe (rt : Platform) (policy : Policy) (table : List Observation) (now : Rat) : Prop where
  returns : ∃ result, rt.status policy table now = .ok result
  evaluates : ∀ candidate ∈ candidateWindows policy now,
    ∃ samples, allSamples policy candidate.minute (evidence policy table now) = .ok samples
  samples : ∀ candidate ∈ candidateWindows policy now, ∀ samples,
    allSamples policy candidate.minute (evidence policy table now) = .ok samples → ∀ sample ∈ samples,
      (0 < sample.coverage ∧ sample.coverage ≤ 1) ∧
        0 < (observed policy candidate.minute (evidence policy table now) sample.date).length ∧
          (expectedBuckets policy : Rat) * policy.minimumWindowCoverage ≤
            (observed policy candidate.minute (evidence policy table now) sample.date).length

/-- A sample's buckets are the required share of the expected ones, and its coverage is positive. -/
theorem sample_covered (admitted : Admitted policy) {startMinute : Int}
    (sound : Sound rows) {samples : List Sample} (done : allSamples policy startMinute rows = .ok samples)
    {sample : Sample} (member : sample ∈ samples) :
    (0 < sample.coverage ∧ sample.coverage ≤ 1) ∧ 0 < (observed policy startMinute rows sample.date).length ∧
        (expectedBuckets policy : Rat) * policy.minimumWindowCoverage ≤
          (observed policy startMinute rows sample.date).length := by
  obtain ⟨nonempty, enough, covered⟩ := allSamples_each sound done member
  have positive : 0 < (observed policy startMinute rows sample.date).length := length_pos_iff.mpr nonempty
  have expected : expectedBuckets policy ≠ 0 := by
    rcases (allSamples_ok sound).mp ⟨samples, done⟩ with expected | outside
    · exact expected
    · obtain ⟨row, member⟩ := exists_mem_of_ne_nil _ nonempty
      obtain ⟨there, inWindow⟩ := mem_filter.mp (mem_filter.mp member).1
      rw [outside row there] at inWindow
      cases inWindow
  have above : (0 : Rat) < expectedBuckets policy :=
    Int.cast_pos.mpr (lt_of_le_of_ne (expectedBuckets_nonneg admitted) expected.symm)
  refine ⟨?_, positive, ?_⟩
  · rw [covered]
    exact ⟨lt_min one_pos (div_pos (Nat.cast_pos.mpr positive) above), min_le_left _ _⟩
  · calc (expectedBuckets policy : Rat) * policy.minimumWindowCoverage
        ≤ (minimumBuckets policy : Rat) := Rat.le_ceil
      _ ≤ _ := by exact_mod_cast enough

namespace Platform

variable (rt : Platform)

/-- For every accepted policy, every table recorded under it and every time, the planner is safe exactly when
the buckets are not longer than the windows, or no recorded bucket starts in a candidate window. -/
theorem planner_safe_iff (text : String) (policy : Policy) (accepted : rt.loadPolicy text = .ok policy)
    (readings : List Reading) (now : Rat) :
    Safe rt policy (rt.recorded policy readings) now ↔ policy.bucketSeconds ≤ policy.durationMinutes * 60 ∨
        ∀ candidate ∈ candidateWindows policy now, ∀ row ∈ evidence policy (rt.recorded policy readings) now,
          inside policy candidate.minute row = false := by
  have admitted := rt.loadPolicy_admitted accepted
  have sound : Sound (evidence policy (rt.recorded policy readings) now) :=
    rowsSince_sound (rt.recorded_sound policy readings) _
  have nonzero : policy.bucketSeconds ≤ policy.durationMinutes * 60 ↔ expectedBuckets policy ≠ 0 :=
    not_lt.symm.trans (not_congr (expectedBuckets_eq_zero admitted)).symm
  have through : (∀ candidate ∈ candidateWindows policy now, ∃ samples,
      allSamples policy candidate.minute (evidence policy (rt.recorded policy readings) now) = .ok samples) ↔
      policy.bucketSeconds ≤ policy.durationMinutes * 60 ∨
        ∀ candidate ∈ candidateWindows policy now, ∀ row ∈ evidence policy (rt.recorded policy readings) now,
          inside policy candidate.minute row = false := by
    rw [nonzero]
    constructor
    · intro all
      by_cases expected : expectedBuckets policy = 0
      · refine .inr fun candidate member => ?_
        exact ((allSamples_ok sound).mp (all candidate member)).resolve_left (not_not.mpr expected)
      · exact .inl expected
    · rintro (expected | outside) candidate member
      · exact (allSamples_ok sound).mpr (.inl expected)
      · exact (allSamples_ok sound).mpr (.inr (outside candidate member))
  constructor
  · exact fun safe => through.mp safe.evaluates
  · intro condition
    have evaluates := through.mpr condition
    exact ⟨(rt.status_ok policy _ now).mpr evaluates, evaluates,
      fun candidate _ samples done sample member => sample_covered admitted sound done member⟩

end Platform

def reginaPlatform : Platform where
  toRuntime := rationalRuntime
  floatOfText _ := none
  zoneInfo name := if name = "America/Regina" then some (-21600) else none
  iso epoch :=
    let seconds := epoch.floor
    Calendar.isoformat (seconds / 86400) ++ "T" ++ twoDigits (seconds % 86400 / 3600) ++ ":" ++
      twoDigits (seconds % 3600 / 60) ++ ":" ++ twoDigits (seconds % 60) ++ "Z"

def defaultPolicy : Policy where
  timezone := "America/Regina"
  zone := -21600
  lookbackDays := 28
  retentionDays := 90
  horizonDays := 7
  bucketSeconds := 300
  slotMinutes := 30
  durationMinutes := 30
  minimumNoticeMinutes := 30
  minimumSampleDays := 2
  weekdayWeightingMinimumDays := 2
  recommendationCount := 8
  eligibleStartMinute := 120
  eligibleEndMinute := 540
  defaultMinute := 360
  minimumWindowCoverage := 4 / 5

def nightReading : Platform.Reading := ⟨.int 1, .int 1, 1700035320⟩

theorem planner_safe_default : reginaPlatform.loadPolicy "\x7b\"schemaVersion\": 1\x7d" = .ok defaultPolicy ∧
      Safe reginaPlatform defaultPolicy (reginaPlatform.recorded defaultPolicy [nightReading]) 1700100000 := by
  have accepted : reginaPlatform.loadPolicy "\x7b\"schemaVersion\": 1\x7d" = .ok defaultPolicy := by
    decide +kernel
  exact ⟨accepted, (reginaPlatform.planner_safe_iff _ _ accepted _ _).mpr (.inl (by decide))⟩

/-- Buckets of 320 seconds pass for buckets of five minutes, so that a window of five minutes expects none. -/
theorem status_divides_by_zero :
    let policy := { defaultPolicy with bucketSeconds := 320, slotMinutes := 5, durationMinutes := 5 }
    reginaPlatform.loadPolicy
        "\x7b\"schemaVersion\": 1, \"bucketSeconds\": 320, \"slotMinutes\": 5, \"durationMinutes\": 5\x7d" =
          .ok policy ∧
      reginaPlatform.status policy (reginaPlatform.recorded policy [nightReading]) 1700100000 =
        .error .zeroDivision := by
  decide +kernel

end Dash.Planner
