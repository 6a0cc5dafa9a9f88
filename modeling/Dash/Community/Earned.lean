import Dash.Community.Activity

/-! Engagement claims against what the activity earned.

The claims of a week, a session and a day are worked out from scratch from its active
seconds or its streak. One observation adds exactly the difference, so the claim table
stays equal to it over every run.
-/

set_option autoImplicit false

namespace Dash.Community

open Dash.Python Dash.Foundation List

variable {F : Type}

def Greatest (rows : List Tier) (value : Int) (row : Tier) : Prop :=
  row ∈ rows ∧ row.mark ≤ value ∧ ∀ other ∈ rows, other.mark ≤ value → other.mark ≤ row.mark

section Tiers

variable {rows : List Tier}

section

variable (rising : rows.Pairwise fun first second => first.mark < second.mark)
include rising

theorem leading_rows (value : Int) : rows.takeWhile (fun row => row.mark ≤ value) =
      rows.filter fun row => row.mark ≤ value := by
  induction rising with
  | nil => rfl
  | cons above rising ih =>
    rename_i first rest
    by_cases reached : first.mark ≤ value
    · simp [reached, ih]
    · have beyond : rest.filter (fun row => row.mark ≤ value) = [] := by
        refine filter_eq_nil_iff.mpr fun row member => ?_
        have later := above row member
        simp only [decide_eq_true_eq]
        omega
      simp [reached, beyond]

theorem last_of_rising {row : Tier} :
    rows.getLast? = some row ↔ row ∈ rows ∧ ∀ other ∈ rows, other.mark ≤ row.mark := by
  constructor
  · intro last
    obtain ⟨before, parts⟩ := List.getLast?_eq_some_iff.mp last
    subst parts
    refine ⟨by simp, fun other member => ?_⟩
    rcases mem_append.mp member with earlier | same
    · exact ((pairwise_append.mp rising).2.2 other earlier row (by simp)).le
    · rw [mem_singleton.mp same]
  · rintro ⟨member, most⟩
    cases last : rows.getLast? with
    | none => simp_all
    | some other =>
      obtain ⟨before, parts⟩ := List.getLast?_eq_some_iff.mp last
      subst parts
      rcases mem_append.mp member with earlier | same
      · have below := (pairwise_append.mp rising).2.2 row earlier other (by simp)
        have above := most other (by simp)
        omega
      · rw [mem_singleton.mp same]

theorem tierFor_some {value : Int} {row : Tier} : tierFor rows value = some row ↔ Greatest rows value row := by
  rw [tierFor, leading_rows rising, last_of_rising (rising.filter _)]
  simp only [mem_filter, decide_eq_true_eq, and_imp, and_assoc, Greatest]

theorem rows_upto {previous current : Int} (grows : previous ≤ current) :
    rows.filter (fun row => row.mark ≤ current) = rows.filter (fun row => row.mark ≤ previous) ++
      rows.filter fun row => previous < row.mark && row.mark ≤ current := by
  induction rising with
  | nil => rfl
  | cons above rising ih =>
    rename_i first rest
    by_cases early : first.mark ≤ previous
    · simp [early, early.trans grows, not_lt.mpr early, ih]
    · have none : rest.filter (fun row => row.mark ≤ previous) = [] := by
        refine filter_eq_nil_iff.mpr fun row member => ?_
        have later := above row member
        simp only [decide_eq_true_eq]
        omega
      rw [none] at ih
      by_cases reached : first.mark ≤ current <;> simp_all

end

end Tiers

def weeklyEarned (weekly : WeeklyPolicy) (seconds : Int) : List Tier :=
  if weekly.enabled then weekly.thresholds.val.filter fun row => row.mark ≤ seconds else []

def hourlyEarned (hourly : HourlyPolicy) (seconds : Int) : List (Int × Tier) :=
  if hourly.active then Platform.dueHours hourly 0 (Platform.earnedHours hourly seconds) else []

def dailyEarned (daily : DailyPolicy) (streak : Option Int) : List Tier :=
  (streak.bind (Platform.dailyTier daily)).toList

theorem mem_weeklyEarned {weekly : WeeklyPolicy} {seconds : Int} {row : Tier} : row ∈ weeklyEarned weekly seconds ↔
      weekly.enabled = true ∧ row ∈ weekly.thresholds.val ∧ row.mark ≤ seconds := by
  unfold weeklyEarned
  split <;> simp_all

theorem weeklyEarned_rising (weekly : WeeklyPolicy) (seconds : Int) :
    (weeklyEarned weekly seconds).Pairwise fun first second => first.mark < second.mark := by
  unfold weeklyEarned
  split
  · exact weekly.thresholds.property.1.filter _
  · exact .nil

theorem mem_crossed {weekly : WeeklyPolicy} {previous current : Int} {row : Tier}
    (member : row ∈ Platform.crossed weekly previous current) : previous < row.mark := by
  unfold Platform.crossed at member
  split at member
  · simp only [mem_filter, Bool.and_eq_true, decide_eq_true_eq] at member
    exact member.2.1
  · cases member

theorem crossed_rising (weekly : WeeklyPolicy) (previous current : Int) :
    (Platform.crossed weekly previous current).Pairwise fun first second =>
      first.mark < second.mark := by
  unfold Platform.crossed
  split
  · exact weekly.thresholds.property.1.filter _
  · exact .nil

theorem weeklyEarned_grows (weekly : WeeklyPolicy) {previous current : Int} (grows : previous ≤ current) :
    weeklyEarned weekly current = weeklyEarned weekly previous ++ Platform.crossed weekly previous current := by
  unfold weeklyEarned Platform.crossed
  split
  · exact rows_upto weekly.thresholds.property.1 grows
  · rfl

theorem hoursBetween_append {first middle last : Int} (early : first ≤ middle) (late : middle ≤ last) :
    Platform.hoursBetween first last = Platform.hoursBetween first middle ++ Platform.hoursBetween middle last := by
  have count : (last - first).toNat = (middle - first).toNat + (last - middle).toNat := by omega
  rw [Platform.hoursBetween, count, range_add, map_append, map_map]
  refine congrArg (_ ++ ·) (map_congr_left fun index _ => ?_)
  simp only [Function.comp]
  omega

theorem mem_hoursBetween {first last hour : Int} :
    hour ∈ Platform.hoursBetween first last ↔ first < hour ∧ hour ≤ last := by
  simp only [Platform.hoursBetween, mem_map, mem_range]
  constructor
  · rintro ⟨index, small, rfl⟩
    omega
  · rintro ⟨after, upTo⟩
    exact ⟨(hour - first - 1).toNat, by omega, by omega⟩

theorem dueHours_append (hourly : HourlyPolicy) {first middle last : Int} (early : first ≤ middle)
    (late : middle ≤ last) :
    Platform.dueHours hourly first last =
      Platform.dueHours hourly first middle ++ Platform.dueHours hourly middle last := by
  rw [Platform.dueHours, hoursBetween_append early late, filterMap_append]
  rfl

theorem mem_dueHours {hourly : HourlyPolicy} {rewarded earned : Int} {due : Int × Tier} :
    due ∈ Platform.dueHours hourly rewarded earned ↔
      rewarded < due.1 ∧ due.1 ≤ earned ∧ Greatest hourly.tiers.val due.1 due.2 := by
  rw [Platform.dueHours, mem_filterMap, ← tierFor_some hourly.tiers.property.1]
  constructor
  · rintro ⟨hour, member, selected⟩
    obtain ⟨row, found, rfl⟩ := Option.map_eq_some_iff.mp selected
    obtain ⟨after, upTo⟩ := mem_hoursBetween.mp member
    exact ⟨after, upTo, found⟩
  · rintro ⟨after, upTo, found⟩
    exact ⟨due.1, mem_hoursBetween.mpr ⟨after, upTo⟩, by rw [found]; rfl⟩

theorem dueHours_distinct (hourly : HourlyPolicy) (rewarded earned : Int) :
    ((Platform.dueHours hourly rewarded earned).map Prod.fst).Nodup := by
  have kept (hours : List Int) : (hours.filterMap fun hour =>
      (tierFor hourly.tiers.val hour).map fun row => (hour, row)).map Prod.fst =
        hours.filter fun hour => (tierFor hourly.tiers.val hour).isSome := by
    induction hours with
    | nil => rfl
    | cons hour rest ih => cases found : tierFor hourly.tiers.val hour <;> simp [found, ih]
  rw [Platform.dueHours, kept]
  refine List.Nodup.filter _ (List.Nodup.map (fun one other same => ?_) nodup_range)
  omega

namespace Record

variable {record : Record F} {kind : RewardKind} {period : Period}

theorem addClaims_same (due : List (Int × Result String)) :
    (record.addClaims kind period due).claims kind period = record.claims kind period ++ due :=
  if_pos rfl

theorem addClaims_other {other : RewardKind} {time : Period}
    (apart : (other, time) ≠ (kind, period)) (due : List (Int × Result String)) :
    (record.addClaims kind period due).claims other time = record.claims other time :=
  if_neg apart

theorem addClaims_nil : record.addClaims kind period [] = record := by
  simp [addClaims]

theorem addClaims_append (due more : List (Int × Result String)) :
    (record.addClaims kind period due).addClaims kind period more = record.addClaims kind period (due ++ more) := by
  refine congrArg (Record.mk _ _ _) (funext fun other => funext fun time => ?_)
  by_cases same : (other, time) = (kind, period) <;> simp_all [addClaims]

theorem grantAll_fresh {due : List (Int × Result String)}
    (fresh : ∀ one ∈ due, one.1 ∉ (record.claims kind period).map Prod.fst)
    (distinct : (due.map Prod.fst).Nodup) :
    record.grantAll kind period due = record.addClaims kind period due := by
  induction due generalizing record with
  | nil => exact addClaims_nil.symm
  | cons one rest ih =>
    obtain ⟨absent, distinct⟩ := nodup_cons.mp distinct
    have first : record.grant kind period one = record.addClaims kind period [one] :=
      if_neg (fresh one mem_cons_self)
    change (record.grant kind period one).grantAll kind period rest = _
    rw [first, ih _ distinct, addClaims_append]
    · rfl
    · intro other member claimed
      have before := fresh other (mem_cons_of_mem _ member)
      have same : other.1 = one.1 := by simp_all [addClaims]
      exact absent (same ▸ mem_map_of_mem member)

end Record

def Record.sessionSeconds (record : Record F) (start : Int) : Int :=
  match record.checkpoint with
  | some row => if row.sessionStartedAt = some start then row.sessionActiveSeconds else 0
  | none => 0

def RewardKind.fits : RewardKind → Period → Bool
  | .daily, .day _ => true
  | .weekly, .week _ => true
  | .hourly, .session (some _) => true
  | _, _ => false

namespace Platform

variable (rt : Platform F) (policy : EngagementPolicy F)

structure InSession (seconds : Int → Int) (row : EngagementCheckpoint F) (start : Int) : Prop where
  started : row.sessionStartedAt = some start
  past : start ≤ row.observedAt
  shown : row.sessionActiveSeconds = seconds start
  rewarded : row.rewardedHours =
    if policy.hourly.active then earnedHours policy.hourly (seconds start) else 0

/-- The claims are the earned ones, where `seconds` tells the active seconds of each session. -/
structure Earned (seconds : Int → Int) (record : Record F) : Prop where
  weekly : ∀ week, record.claims .weekly (.week week) =
    (weeklyEarned policy.weekly (record.weekSeconds week)).map rt.pricedTier
  hourly : ∀ start, record.claims .hourly (.session (some start)) =
    (hourlyEarned policy.hourly (seconds start)).map fun due => rt.priced due.1 due.2.reward
  daily : ∀ date, record.claims .daily (.day date) =
    (dailyEarned policy.daily (record.streak date)).map rt.pricedTier
  streak : ∀ date streak, record.streak date = some streak → streak = (record.streak (date - 1)).getD 0 + 1
  others : ∀ kind period, kind.fits period = false → record.claims kind period = []

structure Tracked (seconds : Int → Int) (record : Record F) : Prop where
  dated : ∀ date, (record.streak date).isSome → ∃ row ∈ record.checkpoint, date ≤ row.observedAt / 86400
  nonneg : ∀ start, 0 ≤ seconds start
  later : ∀ start, (∀ row ∈ record.checkpoint, row.observedAt < start) → seconds start = 0
  online : ∀ row ∈ record.checkpoint, row.wasOnline = true → ∃ start, InSession policy seconds row start
  offline : ∀ row ∈ record.checkpoint, row.wasOnline = false → row.sessionStartedAt = none

variable {rt policy} {seconds : Int → Int} {record : Record F}

/-! The day. -/

theorem dailyTier_single (daily : DailyPolicy) (streak : Int) :
    (((dailyTier daily streak).toList.map rt.pricedTier).map Prod.fst).Nodup := by
  cases dailyTier daily streak <;> simp

variable {date : Int}

theorem dayRecord_new (held : rt.Earned policy seconds record) (absent : record.streak date = none) :
    rt.dayRecord policy date record =
      (record.setStreak date ((record.streak (date - 1)).getD 0 + 1)).addClaims .daily (.day date)
        ((dailyTier policy.daily ((record.streak (date - 1)).getD 0 + 1)).toList.map rt.pricedTier) := by
  have unclaimed : record.claims .daily (.day date) = [] := by
    rw [held.daily, absent]
    rfl
  rw [dayRecord, absent]
  refine Record.grantAll_fresh (fun one _ claimed => ?_) (dailyTier_single _ _)
  change one.1 ∈ (record.claims .daily (.day date)).map Prod.fst at claimed
  rw [unclaimed] at claimed
  cases claimed

theorem dayRecord_earned (held : rt.Earned policy seconds record)
    (upTo : ∀ other, (record.streak other).isSome → other ≤ date) :
    rt.Earned policy seconds (rt.dayRecord policy date record) := by
  cases present : record.streak date with
  | some streak =>
    rw [dayRecord, present]
    exact held
  | none =>
    rw [dayRecord_new held present]
    refine ⟨held.weekly, held.hourly, fun other => ?_, fun other streak found => ?_, fun kind period misfit => ?_⟩
    · by_cases same : other = date
      · subst same
        rw [Record.addClaims_same]
        change record.claims .daily (.day other) ++ _ = (dailyEarned policy.daily
          (if other = other then some _ else _)).map rt.pricedTier
        rw [held.daily, present, if_pos rfl]
        rfl
      · rw [Record.addClaims_other (by simpa using same)]
        change record.claims .daily (.day other) = (dailyEarned policy.daily
          (if other = date then some _ else _)).map rt.pricedTier
        rw [held.daily, if_neg same]
    · change (if other = date then some _ else record.streak other) = some streak at found
      change streak = (if other - 1 = date then some _ else record.streak (other - 1)).getD 0 + 1
      by_cases same : other = date
      · subst same
        rw [if_pos rfl] at found
        rw [if_neg (by omega)]
        exact (Option.some.inj found).symm
      · rw [if_neg same] at found
        have early := upTo other (by rw [found]; rfl)
        rw [if_neg (by omega)]
        exact held.streak other streak found
    · rw [Record.addClaims_other]
      · exact held.others kind period misfit
      · rintro ⟨rfl, rfl⟩
        cases misfit

/-! The week. -/

theorem mem_pricedMarks {rows : List Tier} {mark : Int} :
    mark ∈ (rows.map rt.pricedTier).map Prod.fst ↔ ∃ row ∈ rows, row.mark = mark := by
  simp [pricedTier, priced]

theorem pricedMarks_distinct {rows : List Tier} (rising : rows.Pairwise fun first second => first.mark < second.mark) :
    ((rows.map rt.pricedTier).map Prod.fst).Nodup := by
  rw [map_map]
  exact pairwise_map.mpr (rising.imp fun below => below.ne)

theorem weekRecord_earned (held : rt.Earned policy seconds record) (week : Int × Int)
    {active : Int} (positive : 0 ≤ active) :
    rt.Earned policy seconds (rt.weekRecord policy week active record) := by
  have grows : record.weekSeconds week ≤ record.weekSeconds week + active := by omega
  have granted : rt.weekRecord policy week active record =
      (record.setWeek week (record.weekSeconds week + active)).addClaims .weekly (.week week)
        ((crossed policy.weekly (record.weekSeconds week) (record.weekSeconds week + active)).map rt.pricedTier) := by
    refine Record.grantAll_fresh (fun one due claimed => ?_) ?_
    · change one.1 ∈ (record.claims .weekly (.week week)).map Prod.fst at claimed
      rw [held.weekly] at claimed
      obtain ⟨row, crossing, rfl⟩ := mem_map.mp due
      obtain ⟨old, earlier, same⟩ := mem_pricedMarks.mp claimed
      have below := (mem_weeklyEarned.mp earlier).2.2
      have above := mem_crossed crossing
      change old.mark = row.mark at same
      omega
    · exact pricedMarks_distinct (crossed_rising _ _ _)
  rw [granted]
  refine ⟨fun other => ?_, held.hourly, held.daily, held.streak, fun kind period misfit => ?_⟩
  · by_cases same : other = week
    · subst same
      rw [Record.addClaims_same]
      change record.claims .weekly (.week other) ++ _ = (weeklyEarned policy.weekly
        (if other = other then _ else _)).map rt.pricedTier
      rw [held.weekly, if_pos rfl, weeklyEarned_grows policy.weekly grows, map_append]
    · rw [Record.addClaims_other (by simpa using same)]
      change record.claims .weekly (.week other) = (weeklyEarned policy.weekly
        (if other = week then _ else record.weekSeconds other)).map rt.pricedTier
      rw [held.weekly, if_neg same]
  · rw [Record.addClaims_other]
    · exact held.others kind period misfit
    · rintro ⟨rfl, rfl⟩
      cases misfit

/-! The hours. -/

section

variable (hourly : HourlyPolicy) (positive : 0 < hourly.intervalSeconds)
include hourly positive

theorem earnedHours_mono {before after : Int} (grows : before ≤ after) :
    earnedHours hourly before ≤ earnedHours hourly after :=
  min_le_min_right _ (Int.ediv_le_ediv positive grows)

theorem earnedHours_nonneg (most : 0 ≤ hourly.maxRewardsPerSession) {seconds : Int} (nonneg : 0 ≤ seconds) :
    0 ≤ earnedHours hourly seconds :=
  le_min (Int.ediv_nonneg nonneg positive.le) most

theorem hourlyEarned_grows (most : 0 ≤ hourly.maxRewardsPerSession) (on : hourly.active = true) {before after : Int}
    (nonneg : 0 ≤ before) (grows : before ≤ after) :
    hourlyEarned hourly after = hourlyEarned hourly before ++
      dueHours hourly (earnedHours hourly before) (earnedHours hourly after) := by
  rw [hourlyEarned, hourlyEarned, if_pos on, if_pos on]
  exact dueHours_append hourly (earnedHours_nonneg hourly positive most nonneg) (earnedHours_mono hourly positive grows)

end

theorem pricedHours (due : List (Int × Tier)) :
    (due.map fun hour => rt.priced hour.1 hour.2.reward).map Prod.fst = due.map Prod.fst := by
  rw [map_map]
  rfl

variable {step : Advance F} {start : Int}

variable (held : rt.Earned policy seconds record)

include held in
theorem hoursRecord_earned
    (positive : 0 < policy.hourly.intervalSeconds) (most : 0 ≤ policy.hourly.maxRewardsPerSession)
    (started : step.sessionStarted = some start) (nonneg : 0 ≤ seconds start)
    (grows : seconds start ≤ step.sessionSeconds) (rewarded : step.rewardedHours =
      if policy.hourly.active then earnedHours policy.hourly (seconds start) else 0) :
    rt.Earned policy (Function.update seconds start step.sessionSeconds) (rt.hoursRecord policy step record) := by
  have hours (other : Int) : (hourlyEarned policy.hourly (Function.update seconds start step.sessionSeconds other)) =
        if other = start then hourlyEarned policy.hourly step.sessionSeconds
        else hourlyEarned policy.hourly (seconds other) := by
    rw [Function.update_apply]
    split <;> rfl
  by_cases on : policy.hourly.active = true
  · rw [if_pos on] at rewarded
    have granted : rt.hoursRecord policy step record = record.addClaims .hourly
        (.session (some start)) ((dueHours policy.hourly (earnedHours policy.hourly (seconds start))
          (earnedHours policy.hourly step.sessionSeconds)).map fun due => rt.priced due.1 due.2.reward) := by
      rw [hoursRecord, if_pos on, started, rewarded]
      refine Record.grantAll_fresh (fun one due claimed => ?_) ?_
      · rw [held.hourly, hourlyEarned, if_pos on, pricedHours] at claimed
        obtain ⟨hour, fresh, rfl⟩ := mem_map.mp due
        obtain ⟨old, earlier, same⟩ := mem_map.mp claimed
        have below := (mem_dueHours.mp earlier).2.1
        have above := (mem_dueHours.mp fresh).1
        change old.1 = hour.1 at same
        omega
      · rw [pricedHours]
        exact dueHours_distinct _ _ _
    rw [granted]
    refine ⟨held.weekly, fun other => ?_, held.daily, held.streak, fun kind period misfit => ?_⟩
    · rw [hours]
      by_cases same : other = start
      · subst same
        rw [Record.addClaims_same, held.hourly, if_pos rfl, ← map_append,
          hourlyEarned_grows policy.hourly positive most on nonneg grows]
      · rw [Record.addClaims_other (by simpa using same), held.hourly, if_neg same]
    · rw [Record.addClaims_other]
      · exact held.others kind period misfit
      · rintro ⟨rfl, rfl⟩
        cases misfit
  · rw [hoursRecord, if_neg on]
    refine ⟨held.weekly, fun other => ?_, held.daily, held.streak, held.others⟩
    rw [held.hourly, hourlyEarned, hourlyEarned, if_neg on, if_neg on]

/-! The observation. -/

variable {row : EngagementCheckpoint F} {observed : Int}

/-- An observation goes on with the session, or is not active and leaves it. -/
theorem advance_cases {online : Bool} {current : Location F}
    (advanced : rt.advance policy row online observed current = .ok step) :
    (online = true ∧ row.wasOnline = true ∧
        (0 ≤ step.activeSeconds ∧ step.activeSeconds ≤ max 0 (observed - row.observedAt) ∧
          observed - row.observedAt ≤ policy.maxObservationGapSeconds) ∧
        step.sessionStarted = row.sessionStartedAt ∧
        step.sessionSeconds = row.sessionActiveSeconds + step.activeSeconds ∧
        step.rewardedHours = row.rewardedHours) ∨
      (step.activeSeconds = 0 ∧ step.sessionStarted = (if online then some observed else none) ∧
        step.sessionSeconds = 0 ∧ step.rewardedHours = 0) := by
  obtain ⟨⟨moved, distance⟩, -, done⟩ := result_bind.mp advanced
  cases done
  cases going : online && row.wasOnline && decide (observed - row.observedAt ≤ policy.maxObservationGapSeconds) with
  | true =>
    simp only [Bool.and_eq_true, decide_eq_true_eq] at going
    refine .inl ⟨going.1.1, going.1.2, ⟨?_, ?_, going.2⟩, rfl, rfl, rfl⟩ <;>
      simp only <;> split <;> omega
  | false =>
    right
    simp

theorem Tracked.shown (held : Tracked policy seconds record) (start : Int) :
    record.sessionSeconds start ≤ seconds start := by
  unfold Record.sessionSeconds
  cases present : record.checkpoint with
  | none => exact held.nonneg start
  | some row =>
    by_cases same : row.sessionStartedAt = some start
    · simp only [if_pos same]
      cases on : row.wasOnline with
      | true =>
        obtain ⟨other, session⟩ := held.online row present on
        cases Option.some.inj (session.started.symm.trans same)
        exact session.shown.le
      | false =>
        rw [held.offline row present on] at same
        cases same
    · simp only [if_neg same]
      exact held.nonneg start

def grown (seconds : Int → Int) (after : Record F) (start : Int) : Int :=
  max (seconds start) (after.sessionSeconds start)

theorem later_dated (held : Tracked policy seconds record)
    (present : record.checkpoint = some row) (newer : row.observedAt < observed)
    (active : ((rt.activityRecord policy observed step record).streak date).isSome) :
    date ≤ observed / 86400 := by
  rcases (rt.activityRecord_rest policy observed step record).2 date active with same | before
  · exact same.le
  · obtain ⟨other, found, early⟩ := held.dated date before
    cases present.symm.trans found
    exact early.trans (Int.ediv_le_ediv (by decide) newer.le)

theorem hoursAfter_session {before : Int}
    (enabled : policy.enabled = true) (positive : 0 < policy.hourly.intervalSeconds)
    (longer : step.sessionSeconds = before + step.activeSeconds) (active : 0 ≤ step.activeSeconds)
    (rewarded : step.rewardedHours =
      if policy.hourly.active then earnedHours policy.hourly before else 0) :
    hoursAfter policy step =
      if policy.hourly.active then earnedHours policy.hourly step.sessionSeconds else 0 := by
  have grows := earnedHours_mono policy.hourly positive (show before ≤ step.sessionSeconds by omega)
  unfold hoursAfter
  by_cases on : policy.hourly.active = true
  · rw [if_pos on] at rewarded
    rw [if_pos on, rewarded]
    split
    · exact max_eq_right grows
    · next idle =>
      have still : step.activeSeconds = 0 := by simpa [enabled, on] using idle
      rw [longer, still, Int.add_zero]
  · rw [if_neg on] at rewarded
    simp [on, rewarded]

variable {after : Record F}

section Continuing

variable (kept : Tracked policy seconds record)
    (present : record.checkpoint = some row) (newer : row.observedAt < observed)
    (enabled : policy.enabled = true) (positive : 0 < policy.hourly.intervalSeconds)
    (most : 0 ≤ policy.hourly.maxRewardsPerSession)
    (session : InSession policy seconds row start) (active : 0 ≤ step.activeSeconds)
    (started : step.sessionStarted = row.sessionStartedAt)
    (longer : step.sessionSeconds = row.sessionActiveSeconds + step.activeSeconds)
    (rewarded : step.rewardedHours = row.rewardedHours)
include held kept present newer enabled positive most session active started longer rewarded

theorem activityRecord_earned :
    rt.Earned policy (Function.update seconds start step.sessionSeconds)
      (rt.activityRecord policy observed step record) := by
  unfold activityRecord
  split
  · have upTo : ∀ date, (record.streak date).isSome → date ≤ observed / 86400 := by
      intro date before
      obtain ⟨other, found, early⟩ := kept.dated date before
      cases present.symm.trans found
      exact early.trans (Int.ediv_le_ediv (by decide) newer.le)
    have day := dayRecord_earned held upTo
    have week := weekRecord_earned day (Calendar.isoWeek (observed / 86400)) active
    refine hoursRecord_earned week positive most (started.trans session.started)
      (kept.nonneg start) ?_ (rewarded.trans session.rewarded)
    rw [longer, session.shown]
    omega
  · next idle =>
    have still : step.activeSeconds = 0 := by simpa [enabled] using idle
    have same : step.sessionSeconds = seconds start := by
      rw [longer, session.shown, still, Int.add_zero]
    rw [same, Function.update_eq_self]
    exact held

theorem continuing_keeps {account : Int} (current : Location F)
    (written : after = (rt.activityRecord policy observed step record).setCheckpoint
      (nextCheckpoint account observed true current step (hoursAfter policy step))) :
    rt.Earned policy (grown seconds after) after ∧ Tracked policy (grown seconds after) after := by
  have opened : step.sessionStarted = some start := started.trans session.started
  rw [session.shown] at longer
  have same : grown seconds after = Function.update seconds start step.sessionSeconds := by
    funext other
    subst written
    rw [grown, Function.update_apply]
    change max (seconds other) (if step.sessionStarted = some other then step.sessionSeconds else 0) = _
    rw [opened]
    by_cases at_ : other = start
    · subst at_
      rw [if_pos rfl, if_pos rfl]
      omega
    · rw [if_neg at_, if_neg fun same => at_ (Option.some.inj same).symm]
      exact max_eq_left (kept.nonneg other)
  rw [same]
  subst written
  refine ⟨?_, ?_⟩
  · obtain ⟨weekly, hourly, daily, streak, others⟩ := activityRecord_earned held kept present newer
      enabled positive most session active started (by rw [longer, session.shown]) rewarded
    exact ⟨weekly, hourly, daily, streak, others⟩
  · refine ⟨fun date active => ⟨_, rfl, later_dated kept present newer active⟩, fun other => ?_,
      fun other future => ?_, fun row found _ => ⟨start, ?_⟩, fun row found off => ?_⟩
    · rw [Function.update_apply]
      have before := kept.nonneg start
      split
      · omega
      · exact kept.nonneg other
    · have late : observed < other := future _ rfl
      have past := session.past
      rw [Function.update_of_ne (by omega)]
      refine kept.later other fun old found => ?_
      cases present.symm.trans found
      exact newer.trans late
    · cases found
      refine ⟨opened, session.past.trans newer.le, (Function.update_self start _ seconds).symm, ?_⟩
      rw [Function.update_self]
      exact hoursAfter_session enabled positive longer active (rewarded.trans session.rewarded)
    · cases found
      cases off

end Continuing

theorem earnedHours_zero (hourly : HourlyPolicy) (most : 0 ≤ hourly.maxRewardsPerSession) :
    earnedHours hourly 0 = 0 := by
  rw [earnedHours, Int.zero_ediv, min_eq_left most]

include held in
theorem opening_keeps
    (kept : Tracked policy seconds record) (most : 0 ≤ policy.hourly.maxRewardsPerSession)
    (newer : ∀ old ∈ record.checkpoint, old.observedAt < row.observedAt)
    (opened : row.sessionStartedAt = if row.wasOnline then some row.observedAt else none)
    (nothing : row.sessionActiveSeconds = 0) (unrewarded : row.rewardedHours = 0)
    (written : after = record.setCheckpoint row) :
    rt.Earned policy (grown seconds after) after ∧ Tracked policy (grown seconds after) after := by
  have same : grown seconds after = seconds := by
    funext start
    subst written
    rw [grown]
    change max (seconds start) (if row.sessionStartedAt = some start then
      row.sessionActiveSeconds else 0) = _
    rw [nothing, ite_self]
    exact max_eq_left (kept.nonneg start)
  rw [same]
  subst written
  obtain ⟨weekly, hourly, daily, streak, others⟩ := held
  refine ⟨⟨weekly, hourly, daily, streak, others⟩, fun date active => ⟨row, rfl, ?_⟩, kept.nonneg,
    fun start future => ?_, fun next found on => ⟨row.observedAt, ?_⟩, fun next found off => ?_⟩
  · obtain ⟨old, found, early⟩ := kept.dated date active
    exact early.trans (Int.ediv_le_ediv (by decide) (newer old found).le)
  · exact kept.later start fun old found => (newer old found).trans (future row rfl)
  · cases found
    have unseen : seconds row.observedAt = 0 := kept.later _ newer
    refine ⟨by rw [opened, on]; rfl, le_refl _, nothing.trans unseen.symm, ?_⟩
    rw [unrewarded, unseen, earnedHours_zero _ most, ite_self]
  · cases found
    rw [opened, off]
    rfl

include held in
theorem observed_keeps
    (kept : Tracked policy seconds record) (enabled : policy.enabled = true)
    (positive : 0 < policy.hourly.intervalSeconds)
    (most : 0 ≤ policy.hourly.maxRewardsPerSession) {account observed : Int} {online : Bool}
    (step : rt.Observed policy account online observed record after) :
    rt.Earned policy (grown seconds after) after ∧ Tracked policy (grown seconds after) after := by
  cases step with
  | first current absent =>
    refine opening_keeps held kept most (fun old found => ?_) rfl rfl rfl rfl
    rw [absent] at found
    cases found
  | replay row present stale =>
    have same : grown seconds record = seconds := by
      funext start
      exact max_eq_left (kept.shown start)
    rw [same]
    exact ⟨held, kept⟩
  | later row current step present newer advanced =>
    rcases advance_cases advanced with
      ⟨rfl, on, ⟨active, -, -⟩, started, longer, rewarded⟩ | ⟨still, opened, nothing, unrewarded⟩
    · obtain ⟨start, session⟩ := kept.online row present on
      exact continuing_keeps held kept present newer enabled positive most session active started
        longer rewarded current rfl
    · have idle : rt.activityRecord policy observed step record = record := by
        simp [activityRecord, still]
      have hours : hoursAfter policy step = 0 := by simp [hoursAfter, still, unrewarded]
      rw [idle, hours]
      refine opening_keeps held kept most (fun old found => ?_) ?_ ?_ ?_ rfl
      · cases present.symm.trans found
        exact newer
      · cases online <;> simp [nextCheckpoint, opened]
      · cases online <;> simp [nextCheckpoint, nothing]
      · cases online <;> simp [nextCheckpoint]

end Platform

/-- One call of `observe_engagement` under a fixed policy. -/
structure Observation (F : Type) where
  (duneAccountId online observedEpoch location : Value F)
  supply : Supply

namespace Platform

variable (rt : Platform F) (config : Value F)

def observe (db : Db F) (observation : Observation F) : Db F :=
  ((rt.observeEngagement observation.duneAccountId observation.online observation.observedEpoch
    observation.location config).commit ⟨db, observation.supply⟩).db

def observeAll (db : Db F) (observations : List (Observation F)) : Db F :=
  observations.foldl (rt.observe config) db

def observedStates : Db F → List (Observation F) → List (Db F)
  | db, [] => [db]
  | db, observation :: rest => db :: observedStates (rt.observe config db observation) rest

/-- The active seconds of a session: the most a checkpoint of the run shows for it. -/
def sessionSeconds (account : Int) (db : Db F) (observations : List (Observation F)) (start : Int) : Int :=
  ((rt.observedStates config db observations).map fun db =>
    (db.record account).sessionSeconds start).foldl max 0

/-- The claims of an account are exactly the earned ones. -/
structure ExactlyEarned (policy : EngagementPolicy F) (account : Int) (db : Db F)
    (seconds : Int → Int) : Prop where
  weekly : ∀ week, ((db.claimsOf account .weekly (.week week)).map Prod.fst).Nodup ∧
    ∀ mark reward, (mark, reward) ∈ db.claimsOf account .weekly (.week week) ↔
      policy.weekly.enabled = true ∧ mark ≤ db.weekSeconds account week ∧ ∃ row ∈ policy.weekly.thresholds.val,
          row.mark = mark ∧ rt.canonical row.reward.toValue = reward
  hourly : ∀ start, ((db.claimsOf account .hourly (.session (some start))).map Prod.fst).Nodup ∧
    ∀ hour reward, (hour, reward) ∈ db.claimsOf account .hourly (.session (some start)) ↔
      policy.hourly.enabled = true ∧ 1 ≤ hour ∧ hour ≤ min (seconds start / policy.hourly.intervalSeconds)
          policy.hourly.maxRewardsPerSession ∧
        ∃ row, Greatest policy.hourly.tiers.val hour row ∧ rt.canonical row.reward.toValue = reward
  daily : ∀ date, (db.claimsOf account .daily (.day date)).length ≤ 1 ∧
    ∀ mark reward, (mark, reward) ∈ db.claimsOf account .daily (.day date) ↔
      policy.daily.enabled = true ∧ ∃ day row, db.day? account date = some day ∧
        Greatest policy.daily.tiers.val day.streak row ∧
        (policy.daily.repeatLast = true ∨ row.mark = day.streak) ∧
        row.mark = mark ∧ rt.canonical row.reward.toValue = reward
  streak : ∀ date day, db.day? account date = some day → day.streak = 1 + match db.day? account (date - 1) with
      | some yesterday => yesterday.streak
      | none => 0
  others : ∀ kind period, kind.fits period = false → db.claimsOf account kind period = []

variable {rt config} {policy : EngagementPolicy F} {account : Int} {db : Db F}

theorem engagementConfig_ok {value : Value F} (read : rt.engagementConfig value = .ok policy) :
    (0 < policy.maxObservationGapSeconds ∧ 0 ≤ policy.movementGraceSeconds) ∧
      ∃ raw, rt.hourlyPolicy raw = .ok policy.hourly := by
  simp only [engagementConfig, result_bind, result_refuse] at read
  obtain ⟨-, gap, wide, distance, -, precision, -, grace, bounded, hourly, parsed, daily, -, weekly, -, -, -, -,
    done⟩ := read
  cases done
  refine ⟨?_, _, parsed⟩
  obtain ⟨_, -, same⟩ := result_bind.mp wide
  cases same
  obtain ⟨_, -, same⟩ := result_bind.mp bounded
  cases same
  exact ⟨Int.lt_of_lt_of_le Int.zero_lt_one (le_max_left _ _), le_max_left _ _⟩

theorem engagementConfig_hourly {value : Value F} (read : rt.engagementConfig value = .ok policy) :
    0 < policy.hourly.intervalSeconds ∧ 0 ≤ policy.hourly.maxRewardsPerSession := by
  obtain ⟨raw, parsed⟩ := (engagementConfig_ok read).2
  simp only [hourlyPolicy, result_bind] at parsed
  obtain ⟨section_, -, tiers, -, interval, positive, most, bounded, done⟩ := parsed
  rw [← Except.ok.inj done]
  refine ⟨(rt.positiveInt_ok positive).1, ?_⟩
  obtain ⟨number, -, clamped⟩ := result_bind.mp bounded
  rw [← Except.ok.inj clamped]
  exact le_max_left _ _

theorem observe_keeps {seconds : Int → Int}
    (read : rt.engagementConfig (.object [("engagementRewards", rt.orElse config (.dict []))]) =
      .ok policy) (enabled : policy.enabled = true)
    (held : rt.Earned policy seconds (db.record account))
    (kept : Tracked policy seconds (db.record account)) (observation : Observation F) :
    let after := (rt.observe config db observation).record account
    rt.Earned policy (grown seconds after) after ∧ Tracked policy (grown seconds after) after := by
  obtain ⟨positive, most⟩ := engagementConfig_hourly read
  have same : rt.Earned policy (grown seconds (db.record account)) (db.record account) ∧
      Tracked policy (grown seconds (db.record account)) (db.record account) := by
    have unchanged : grown seconds (db.record account) = seconds :=
      funext fun start => max_eq_left (kept.shown start)
    rw [unchanged]
    exact ⟨held, kept⟩
  refine Transaction.commit_induction (fun session : Session F => rt.Earned policy
    (grown seconds (session.db.record account)) (session.db.record account) ∧
      Tracked policy (grown seconds (session.db.record account)) (session.db.record account))
    same fun value after success => ?_
  simp only [observeEngagement, Transaction.lift_bind] at success
  obtain ⟨parsed, reread, observed, -, current, -, recorded⟩ := success
  cases Except.ok.inj (reread.symm.trans read)
  obtain ⟨own, -, step, apart⟩ := rt.recordObservation_ok policy recorded
  by_cases mine : account = own
  · subst mine
    exact observed_keeps held kept enabled positive most step
  · rw [apart account mine]
    exact same

section

variable (observations : List (Observation F)) (last : Observation F)
include observations last

theorem observedStates_append : rt.observedStates config db (observations ++ [last]) =
      rt.observedStates config db observations ++ [rt.observe config (rt.observeAll config db observations) last] := by
  induction observations generalizing db with
  | nil => rfl
  | cons observation rest ih => exact congrArg (db :: ·) ih

theorem sessionSeconds_append : rt.sessionSeconds config account db (observations ++ [last]) =
      grown (rt.sessionSeconds config account db observations)
        ((rt.observe config (rt.observeAll config db observations) last).record account) := by
  funext start
  rw [sessionSeconds, observedStates_append, map_append, foldl_append]
  rfl

theorem observeAll_append : rt.observeAll config db (observations ++ [last]) =
      rt.observe config (rt.observeAll config db observations) last :=
  foldl_append

end

theorem empty_keeps : rt.Earned policy (fun _ => 0) (.empty F) ∧ Tracked policy (fun _ => 0) (.empty F) := by
  have weeks : weeklyEarned policy.weekly 0 = [] := by
    refine eq_nil_iff_forall_not_mem.mpr fun row member => ?_
    obtain ⟨-, listed, low⟩ := mem_weeklyEarned.mp member
    have high := policy.weekly.thresholds.property.2 row listed
    omega
  have hours : hourlyEarned policy.hourly 0 = [] := by
    refine eq_nil_iff_forall_not_mem.mpr fun due member => ?_
    unfold hourlyEarned at member
    split at member
    · obtain ⟨after, upTo, -⟩ := mem_dueHours.mp member
      have none : earnedHours policy.hourly 0 ≤ 0 / policy.hourly.intervalSeconds := min_le_left _ _
      rw [Int.zero_ediv] at none
      omega
    · cases member
  refine ⟨⟨fun week => ?_, fun start => ?_, fun _ => rfl, fun _ _ found => ?_, fun _ _ _ => rfl⟩,
    fun _ active => ?_, fun _ => le_refl 0, fun _ _ => rfl, fun _ found => ?_, fun _ found => ?_⟩
  · change [] = (weeklyEarned policy.weekly 0).map rt.pricedTier
    rw [weeks]
    rfl
  · change [] = (hourlyEarned policy.hourly 0).map _
    rw [hours]
    rfl
  · cases found
  · cases active
  · cases found
  · cases found

theorem observeAll_keeps (read : rt.engagementConfig (.object [("engagementRewards", rt.orElse config (.dict []))]) =
      .ok policy) (enabled : policy.enabled = true) (fresh : db.record account = .empty F)
    (observations : List (Observation F)) :
    rt.Earned policy (rt.sessionSeconds config account db observations)
        ((rt.observeAll config db observations).record account) ∧
      Tracked policy (rt.sessionSeconds config account db observations)
        ((rt.observeAll config db observations).record account) := by
  induction observations using List.reverseRecOn with
  | nil =>
    have nothing : rt.sessionSeconds config account db [] = fun _ => 0 := by
      funext start
      rw [sessionSeconds, observedStates, map_singleton, fresh]
      rfl
    rw [nothing]
    change rt.Earned policy _ (db.record account) ∧ Tracked policy _ (db.record account)
    rw [fresh]
    exact empty_keeps
  | append_singleton observations last ih =>
    rw [sessionSeconds_append, observeAll_append]
    exact observe_keeps read enabled ih.1 ih.2 last

theorem dailyTier_some {daily : DailyPolicy} {streak : Int} {row : Tier} :
    dailyTier daily streak = some row ↔ daily.enabled = true ∧
      Greatest daily.tiers.val streak row ∧ (daily.repeatLast = true ∨ row.mark = streak) := by
  unfold dailyTier
  rw [← tierFor_some daily.tiers.property.1]
  split <;> simp_all [Option.filter_eq_some_iff]

theorem mem_hourlyEarned {hourly : HourlyPolicy} {seconds : Int} {due : Int × Tier} :
    due ∈ hourlyEarned hourly seconds ↔ hourly.enabled = true ∧ 1 ≤ due.1 ∧
      due.1 ≤ min (seconds / hourly.intervalSeconds) hourly.maxRewardsPerSession ∧
      Greatest hourly.tiers.val due.1 due.2 := by
  unfold hourlyEarned
  by_cases on : hourly.active = true
  · have enabled : hourly.enabled = true := (Bool.and_eq_true_iff.mp on).1
    rw [if_pos on, mem_dueHours, enabled]
    exact (and_iff_right rfl).symm
  · rw [if_neg on]
    refine ⟨fun member => (not_mem_nil member).elim, ?_⟩
    rintro ⟨enabled, first, last, -⟩
    have none : hourly.maxRewardsPerSession = 0 := by
      simpa [HourlyPolicy.active, enabled] using on
    omega

theorem mem_dailyEarned {daily : DailyPolicy} {streak : Option Int} {row : Tier} :
    row ∈ dailyEarned daily streak ↔ ∃ days, streak = some days ∧ daily.enabled = true ∧
      Greatest daily.tiers.val days row ∧ (daily.repeatLast = true ∨ row.mark = days) := by
  simp [dailyEarned, Option.mem_toList, Option.bind_eq_some_iff, dailyTier_some]

section Exactly

variable {seconds : Int → Int} (held : rt.Earned policy seconds (db.record account))
include held

theorem weekly_exactly (week : Int × Int) : ((db.claimsOf account .weekly (.week week)).map Prod.fst).Nodup ∧
      ∀ mark reward, (mark, reward) ∈ db.claimsOf account .weekly (.week week) ↔
        policy.weekly.enabled = true ∧ mark ≤ db.weekSeconds account week ∧ ∃ row ∈ policy.weekly.thresholds.val,
            row.mark = mark ∧ rt.canonical row.reward.toValue = reward := by
  have claims : db.claimsOf account .weekly (.week week) =
      (weeklyEarned policy.weekly (db.weekSeconds account week)).map rt.pricedTier :=
    held.weekly week
  rw [claims]
  refine ⟨pricedMarks_distinct (weeklyEarned_rising _ _), fun mark reward => ?_⟩
  simp only [mem_map, mem_weeklyEarned, pricedTier, priced, Prod.mk.injEq]
  constructor
  · rintro ⟨row, ⟨enabled, listed, reached⟩, rfl, same⟩
    exact ⟨enabled, reached, row, listed, rfl, same⟩
  · rintro ⟨enabled, reached, row, listed, rfl, same⟩
    exact ⟨row, ⟨enabled, listed, reached⟩, rfl, same⟩

theorem hourly_exactly (start : Int) : ((db.claimsOf account .hourly (.session (some start))).map Prod.fst).Nodup ∧
      ∀ hour reward, (hour, reward) ∈ db.claimsOf account .hourly (.session (some start)) ↔
        policy.hourly.enabled = true ∧ 1 ≤ hour ∧ hour ≤ min (seconds start / policy.hourly.intervalSeconds)
            policy.hourly.maxRewardsPerSession ∧
          ∃ row, Greatest policy.hourly.tiers.val hour row ∧ rt.canonical row.reward.toValue = reward := by
  have claims : db.claimsOf account .hourly (.session (some start)) =
      (hourlyEarned policy.hourly (seconds start)).map fun due => rt.priced due.1 due.2.reward :=
    held.hourly start
  rw [claims, pricedHours]
  refine ⟨?_, fun hour reward => ?_⟩
  · unfold hourlyEarned
    split
    · exact dueHours_distinct _ _ _
    · exact nodup_nil
  · simp only [mem_map, mem_hourlyEarned, priced, Prod.mk.injEq]
    constructor
    · rintro ⟨due, ⟨enabled, first, last, selected⟩, rfl, same⟩
      exact ⟨enabled, first, last, due.2, selected, same⟩
    · rintro ⟨enabled, first, last, row, selected, same⟩
      exact ⟨(hour, row), ⟨enabled, first, last, selected⟩, rfl, same⟩

theorem daily_exactly (date : Int) : (db.claimsOf account .daily (.day date)).length ≤ 1 ∧
      ∀ mark reward, (mark, reward) ∈ db.claimsOf account .daily (.day date) ↔
        policy.daily.enabled = true ∧ ∃ day row, db.day? account date = some day ∧
          Greatest policy.daily.tiers.val day.streak row ∧
          (policy.daily.repeatLast = true ∨ row.mark = day.streak) ∧
          row.mark = mark ∧ rt.canonical row.reward.toValue = reward := by
  have claims : db.claimsOf account .daily (.day date) = (dailyEarned policy.daily
      ((db.day? account date).map EngagementDay.streak)).map rt.pricedTier :=
    held.daily date
  rw [claims]
  refine ⟨?_, fun mark reward => ?_⟩
  · rw [length_map]
    exact Option.length_toList_le
  · simp only [mem_map, mem_dailyEarned, Option.map_eq_some_iff, pricedTier, priced, Prod.mk.injEq]
    constructor
    · rintro ⟨row, ⟨days, ⟨day, found, rfl⟩, enabled, selected, exact_⟩, rfl, same⟩
      exact ⟨enabled, day, row, found, selected, exact_, rfl, same⟩
    · rintro ⟨enabled, day, row, found, selected, exact_, rfl, same⟩
      exact ⟨row, ⟨day.streak, ⟨day, found, rfl⟩, enabled, selected, exact_⟩, rfl, same⟩

theorem streak_exactly {date : Int} {day : EngagementDay} (found : db.day? account date = some day) :
    day.streak = 1 + match db.day? account (date - 1) with
      | some yesterday => yesterday.streak
      | none => 0 := by
  have counted : day.streak = ((db.day? account (date - 1)).map EngagementDay.streak).getD 0 + 1 := by
    refine held.streak date day.streak ?_
    simp [Db.record, found]
  rw [counted, Int.add_comm]
  cases db.day? account (date - 1) <;> rfl

end Exactly

/-- After any calls under an enabled policy the claims are exactly the earned ones. -/
theorem engagement_claims_exactly_earned
    (read : rt.engagementConfig (.object [("engagementRewards", rt.orElse config (.dict []))]) =
      .ok policy) (enabled : policy.enabled = true) (fresh : db.record account = .empty F)
    (observations : List (Observation F)) :
    rt.ExactlyEarned policy account (rt.observeAll config db observations)
      (rt.sessionSeconds config account db observations) := by
  have held := (observeAll_keeps read enabled fresh observations).1
  exact ⟨weekly_exactly held, hourly_exactly held, daily_exactly held,
    fun date day found => streak_exactly held found, held.others⟩

end Platform

def tierValue (key : String) (mark credits : Int) : Value FloatText :=
  .object [(key, .int mark), ("reward", .object [("credits", .int credits)])]

def creditPolicy : Value FloatText :=
  .object [("enabled", .bool true), ("hourly", .object [("enabled", .bool true), ("intervalSeconds", .int 50),
      ("tiers", .list [tierValue "fromHour" 1 1])]),
    ("daily", .object [("enabled", .bool true), ("tiers", .list [tierValue "day" 1 5])]),
    ("weekly", .object [("enabled", .bool true), ("thresholds", .list [tierValue "activeSeconds" 60 7])])]

def seenOn (map : String) (observed : Int) (ids : List Uuid) : Observation FloatText :=
  ⟨.int 7, .bool true, .int observed, .object [("map", .str map)], supplyOf "2024-01-01T00:00:00Z" ids⟩

def mapChange : List (Observation FloatText) :=
  [seenOn "Hagga Basin" 1000 [], seenOn "Arrakeen" 1100 [.repeated 'a' (.refl true),
    .repeated 'b' (.refl true), .repeated 'c' (.refl true), .repeated 'd' (.refl true),
    .repeated 'e' (.refl true), .repeated 'f' (.refl true), .repeated '1' (.refl true),
    .repeated '2' (.refl true)]]

theorem config_reads {α : Type} {config : Value FloatText} {value : α} (field : EngagementPolicy FloatText → α)
    (evaluated : (plain.engagementConfig config).toOption.map field = some value) :
    ∃ policy, plain.engagementConfig config = .ok policy ∧ field policy = value := by
  cases read : plain.engagementConfig config with
  | error why =>
    rw [read] at evaluated
    cases evaluated
  | ok policy =>
    rw [read] at evaluated
    exact ⟨policy, rfl, Option.some.inj evaluated⟩

theorem engagement_claims_map_change : ∃ policy, plain.engagementConfig
        (.object [("engagementRewards", plain.orElse creditPolicy (.dict []))]) = .ok policy ∧
      plain.ExactlyEarned policy 7 (plain.observeAll creditPolicy (.empty FloatText) mapChange)
        (plain.sessionSeconds creditPolicy 7 (.empty FloatText) mapChange) := by
  obtain ⟨policy, read, enabled⟩ := @config_reads Bool
    (.object [("engagementRewards", plain.orElse creditPolicy (.dict []))]) true EngagementPolicy.enabled (by decide)
  exact ⟨policy, read, Platform.engagement_claims_exactly_earned read enabled rfl mapChange⟩

end Dash.Community
