import Dash.Community.Effects

/-! The engagement of one account, as a pure record.

`Record.observe` is `observe_engagement` on the record of the observed account; the
store commits exactly what it computes and leaves the other records alone.
-/

set_option autoImplicit false

namespace Dash.Community

open Dash.Python Dash.Foundation
open Foundation.Transaction (bind_ok lift_bind pure_ok)

variable {F : Type}

structure Record (F : Type) where
  checkpoint : Option (EngagementCheckpoint F)
  streak : Int → Option Int
  weekSeconds : Int × Int → Int
  claims : RewardKind → Period → List (Int × Result String)

def Record.empty (F : Type) : Record F := ⟨none, fun _ => none, fun _ => 0, fun _ _ => []⟩

def Db.claimsOf (db : Db F) (account : Int) (kind : RewardKind) (period : Period) : List (Int × Result String) :=
  (db.engagementClaims.filter fun row =>
    (row.duneAccountId, row.kind, row.periodKey) = (account, kind, period)).map
      fun row => (row.tier, .ok row.rewardJson)

def Db.record (db : Db F) (account : Int) : Record F where
  checkpoint := db.engagement? account
  streak date := (db.day? account date).map EngagementDay.streak
  weekSeconds week := db.weekSeconds account week
  claims kind period := db.claimsOf account kind period

namespace Record

variable (record : Record F)

def addClaims (kind : RewardKind) (period : Period) (due : List (Int × Result String)) : Record F :=
  { record with claims := fun other time =>
      if (other, time) = (kind, period) then record.claims other time ++ due
      else record.claims other time }

def grant (kind : RewardKind) (period : Period) (due : Int × Result String) : Record F :=
  if due.1 ∈ (record.claims kind period).map Prod.fst then record
  else record.addClaims kind period [due]

def grantAll (kind : RewardKind) (period : Period) (due : List (Int × Result String)) : Record F :=
  due.foldl (fun record one => record.grant kind period one) record

def setStreak (date streak : Int) : Record F :=
  { record with streak := fun other => if other = date then some streak else record.streak other }

def setWeek (week : Int × Int) (seconds : Int) : Record F :=
  { record with
    weekSeconds := fun other => if other = week then seconds else record.weekSeconds other }

def setCheckpoint (row : EngagementCheckpoint F) : Record F := { record with checkpoint := some row }

end Record

def HourlyPolicy.active (hourly : HourlyPolicy) : Bool :=
  hourly.enabled && decide (hourly.maxRewardsPerSession ≠ 0)

namespace Platform

variable (rt : Platform F)

def priced (mark : Int) (reward : EngagementReward) : Int × Result String :=
  (mark, rt.canonical reward.toValue)

def pricedTier (row : Tier) : Int × Result String := rt.priced row.mark row.reward

variable (policy : EngagementPolicy F)

def hoursAfter (policy : EngagementPolicy F) (step : Advance F) : Int :=
  if policy.enabled && decide (step.activeSeconds ≠ 0) && policy.hourly.active then
    max step.rewardedHours (earnedHours policy.hourly step.sessionSeconds)
  else step.rewardedHours

def dayRecord (date : Int) (record : Record F) : Record F :=
  match record.streak date with
  | some _ => record
  | none =>
    let streak := (record.streak (date - 1)).getD 0 + 1
    (record.setStreak date streak).grantAll .daily (.day date)
      ((dailyTier policy.daily streak).toList.map rt.pricedTier)

def weekRecord (week : Int × Int) (seconds : Int) (record : Record F) : Record F :=
  let current := record.weekSeconds week + seconds
  (record.setWeek week current).grantAll .weekly (.week week)
    ((crossed policy.weekly (record.weekSeconds week) current).map rt.pricedTier)

def hoursRecord (step : Advance F) (record : Record F) : Record F :=
  if policy.hourly.active then
    record.grantAll .hourly (.session step.sessionStarted) ((dueHours policy.hourly step.rewardedHours
        (earnedHours policy.hourly step.sessionSeconds)).map fun due => rt.priced due.1 due.2.reward)
  else record

def activityRecord (observed : Int) (step : Advance F) (record : Record F) : Record F :=
  if policy.enabled && decide (step.activeSeconds ≠ 0) then
    let date := observed / 86400
    rt.hoursRecord policy step (rt.weekRecord policy (Calendar.isoWeek date) step.activeSeconds
      (rt.dayRecord policy date record))
  else record

inductive Observed (account : Int) (online : Bool) (observed : Int) (record : Record F) :
    Record F → Prop where
  | first (current : Location F) (absent : record.checkpoint = none) :
      Observed account online observed record (record.setCheckpoint
        ⟨account, observed, online, current, none, if online then some observed else none, 0, 0⟩)
  | replay (row : EngagementCheckpoint F) (present : record.checkpoint = some row)
      (stale : observed ≤ row.observedAt) : Observed account online observed record record
  | later (row : EngagementCheckpoint F) (current : Location F) (step : Advance F)
      (present : record.checkpoint = some row) (newer : row.observedAt < observed)
      (advanced : rt.advance policy row online observed current = .ok step) :
      Observed account online observed record ((rt.activityRecord policy observed step record).setCheckpoint
          (nextCheckpoint account observed online current step (hoursAfter policy step)))

end Platform

/-- The record of the account changes by `change`, the others stay. -/
structure Moves (account : Int) (change : Record F → Record F) (db other : Db F) : Prop where
  own : other.record account = change (db.record account)
  apart : ∀ another, another ≠ account → other.record another = db.record another

theorem Moves.trans {account : Int} {change next : Record F → Record F} {db middle other : Db F}
    (before : Moves account change db middle) (after : Moves account next middle other) :
    Moves account (fun record => next (change record)) db other :=
  ⟨by rw [after.own, before.own], fun another apart =>
    (after.apart another apart).trans (before.apart another apart)⟩

structure SameEngagement (db other : Db F) : Prop where
  checkpoints : other.engagementCheckpoints = db.engagementCheckpoints
  days : other.engagementDays = db.engagementDays
  weeks : other.engagementWeeks = db.engagementWeeks
  claims : other.engagementClaims = db.engagementClaims

namespace SameEngagement

theorem refl (db : Db F) : SameEngagement db db := ⟨rfl, rfl, rfl, rfl⟩

theorem trans {db middle other : Db F} (before : SameEngagement db middle)
    (after : SameEngagement middle other) : SameEngagement db other :=
  ⟨after.checkpoints.trans before.checkpoints, after.days.trans before.days,
    after.weeks.trans before.weeks, after.claims.trans before.claims⟩

theorem record {db other : Db F} (same : SameEngagement db other) (account : Int) :
    other.record account = db.record account := by
  obtain ⟨checkpoints, days, weeks, claims⟩ := same
  simp [Db.record, Db.engagement?, Db.day?, Db.weekSeconds, Db.week?, Db.claimsOf, checkpoints, days, weeks, claims]

theorem followed {db middle other : Db F} (same : SameEngagement db middle) {account : Int}
    {change : Record F → Record F} (moves : Moves account change middle other) :
    Moves account change db other :=
  ⟨by rw [moves.own, same.record], fun another apart => by
    rw [moves.apart another apart, same.record]⟩

end SameEngagement

/-! The statements that write an engagement table. -/

theorem appendClaim_moves (db : Db F) (row : EngagementClaim) : Moves row.duneAccountId
      (·.addClaims row.kind row.periodKey [(row.tier, .ok row.rewardJson)]) db
      (db.appendClaim row) := by
  have grows (account : Int) (kind : RewardKind) (period : Period) : (db.appendClaim row).claimsOf account kind period =
        if (row.duneAccountId, row.kind, row.periodKey) = (account, kind, period) then
          db.claimsOf account kind period ++ [(row.tier, .ok row.rewardJson)]
        else db.claimsOf account kind period := by
    simp only [Db.claimsOf, Db.appendClaim, List.filter_append, List.map_append, List.filter_cons,
      List.filter_nil, decide_eq_true_eq]
    split
    · rfl
    · exact List.append_nil _
  constructor
  · refine congrArg (Record.mk _ _ _) (funext fun kind => funext fun period => ?_)
    simp only [grows, Prod.mk.injEq, true_and, eq_comm]
    rfl
  · intro another apart
    refine congrArg (Record.mk _ _ _) (funext fun kind => funext fun period => ?_)
    simp [grows, Prod.mk.injEq, Ne.symm apart]

theorem appendDay_moves (db : Db F) (row : EngagementDay) (fresh : db.day? row.duneAccountId row.day = none) :
    Moves row.duneAccountId (·.setStreak row.day row.streak) db (db.appendDay row) := by
  have grows (account date : Int) : (db.appendDay row).day? account date =
      if (account, date) = row.key then some row else db.day? account date :=
    Table.find_append fresh (account, date)
  constructor
  · refine congrArg (Record.mk _ · _ _) (funext fun date => ?_)
    simp only [grows, EngagementDay.key, Prod.mk.injEq, true_and]
    split <;> rfl
  · intro another apart
    refine congrArg (Record.mk _ · _ _) (funext fun date => ?_)
    simp [grows, EngagementDay.key, apart]

theorem extendDay_record (db : Db F) (account date seconds observed another : Int) :
    (db.extendDay account date seconds observed).record another = db.record another := by
  have kept (wanted : Int) : ((db.extendDay account date seconds observed).day? another wanted).map
      EngagementDay.streak = (db.day? another wanted).map EngagementDay.streak := by
    change ((update EngagementDay.key (account, date) _ db.engagementDays).find? fun row =>
      row.key = (another, wanted)).map _ = _
    rw [Table.find_update]
    · split
      · rw [Option.map_map]
        rfl
      · rfl
    · exact fun _ same => same
  exact congrArg (Record.mk _ · _ _) (funext kept)

def Db.writeWeek (db : Db F) (account : Int) (week : Int × Int) (seconds observed : Int) : Db F :=
  if (db.week? account week).isSome then db.setWeek account week seconds observed
  else db.appendWeek ⟨account, week, seconds, observed, observed⟩

theorem writeWeek_moves (db : Db F) (account : Int) (week : Int × Int) (seconds observed : Int) :
    Moves account (·.setWeek week seconds) db (db.writeWeek account week seconds observed) := by
  have grows (another : Int) (other : Int × Int) :
      (db.writeWeek account week seconds observed).weekSeconds another other =
        if (another, other) = (account, week) then seconds else db.weekSeconds another other := by
    unfold Db.writeWeek Db.weekSeconds
    cases found : db.week? account week with
    | none =>
      have appended : (db.appendWeek ⟨account, week, seconds, observed, observed⟩).week? another
          other = if (another, other) = (account, week) then some _ else db.week? another other :=
        Table.find_append (by exact found) (another, other)
      rw [if_neg (by simp), appended]
      split <;> rfl
    | some row =>
      have changed : (db.setWeek account week seconds observed).week? another other =
          if (another, other) = (account, week) then (db.week? another other).map _
          else db.week? another other :=
        Table.find_update (by exact fun _ same => same) (another, other)
      rw [if_pos (by simp), changed]
      split
      · next same =>
        obtain ⟨rfl, rfl⟩ := Prod.mk.inj same
        rw [found]
        rfl
      · rfl
  have checkpoints : (db.writeWeek account week seconds observed).engagementCheckpoints =
      db.engagementCheckpoints := by
    unfold Db.writeWeek
    split <;> rfl
  have days : (db.writeWeek account week seconds observed).engagementDays = db.engagementDays := by
    unfold Db.writeWeek
    split <;> rfl
  have claims : (db.writeWeek account week seconds observed).engagementClaims = db.engagementClaims := by
    unfold Db.writeWeek
    split <;> rfl
  constructor
  · simp [Db.record, Record.setWeek, Db.engagement?, Db.day?, Db.claimsOf, checkpoints, days, claims, grows,
      Prod.mk.injEq]
  · intro another apart
    simp [Db.record, Db.engagement?, Db.day?, Db.claimsOf, checkpoints, days, claims, grows, Prod.mk.injEq, apart]

theorem appendEngagement_moves (db : Db F) (row : EngagementCheckpoint F)
    (fresh : db.engagement? row.duneAccountId = none) :
    Moves row.duneAccountId (·.setCheckpoint row) db (db.appendEngagement row) := by
  have grows (account : Int) : (db.appendEngagement row).engagement? account =
      if account = row.duneAccountId then some row else db.engagement? account :=
    Table.find_append (by exact fresh) account
  constructor
  · exact congrArg (Record.mk · _ _ _) ((grows _).trans (if_pos rfl))
  · intro another apart
    exact congrArg (Record.mk · _ _ _) ((grows _).trans (if_neg apart))

theorem setEngagement_moves (db : Db F) (row : EngagementCheckpoint F)
    {old : EngagementCheckpoint F} (present : db.engagement? row.duneAccountId = some old) :
    Moves row.duneAccountId (·.setCheckpoint row) db (db.setEngagement row) := by
  have changes (account : Int) : (db.setEngagement row).engagement? account =
      if account = row.duneAccountId then (db.engagement? account).map fun _ => row
      else db.engagement? account :=
    Table.find_update (by exact fun _ _ => rfl) account
  constructor
  · refine congrArg (Record.mk · _ _ _) ((changes _).trans ?_)
    rw [if_pos rfl, present]
    rfl
  · intro another apart
    exact congrArg (Record.mk · _ _ _) ((changes _).trans (if_neg apart))

/-! The statements that leave engagement alone. -/

def Idle (session after : Session F) : Prop := SameEngagement session.db after.db

namespace Platform

open Transaction (Within)

variable (rt : Platform F)

theorem idle_same {α : Type} {body : Action F α} (idle : Within Idle body) {session after : Session F}
    {value : α} (success : body session = .ok (value, after)) :
    SameEngagement session.db after.db := by
  have path := idle _ _ _ success
  clear success
  induction path with
  | refl => exact .refl _
  | tail _ step ih => exact ih.trans step

theorem now_idle : Within Idle (Action.now : Action F String) := by
  intro session value after success
  have same : after.db = session.db := Action.now_ok success
  refine .single ?_
  rw [Idle, same]
  exact .refl _

theorem uuid4_idle : Within Idle (Action.uuid4 : Action F Uuid) := by
  intro session value after success
  have same : after.db = session.db := Action.uuid4_ok success
  refine .single ?_
  rw [Idle, same]
  exact .refl _

theorem ensureAccount_idle (duneAccountId : Value F) : Within Idle (rt.ensureAccount duneAccountId) := by
  intro session account after success
  obtain ⟨-, now, opened⟩ := rt.ensureAccount_ok success
  refine .single ?_
  rw [Idle, opened]
  exact ⟨rfl, rfl, rfl, rfl⟩

theorem appendLedger_idle (account delta : Int) (kind reference metadata : Value F) :
    Within Idle (rt.appendLedger account delta kind reference metadata) := by
  intro session entry after success
  obtain ⟨row, -, -, changed⟩ := rt.appendLedger_ok success
  refine .single ?_
  rw [Idle, changed]
  exact ⟨rfl, rfl, rfl, rfl⟩

theorem insertDelivery_idle (row : Delivery) : Within Idle (insertDelivery row : Action F Unit) := by
  intro session value after success
  obtain ⟨-, -, changed⟩ := insertDelivery_ok success
  refine .single ?_
  rw [Idle, changed]
  exact ⟨rfl, rfl, rfl, rfl⟩

theorem addTrackXp_idle (account : Int) (track amount reference : Value F) :
    Within Idle (rt.addTrackXp account track amount reference) := by
  refine .bind (.lift _) fun amount => .bind (.read _) fun found => ?_
  cases found with
  | none => exact .raise _
  | some track =>
    exact .bind (.lift _) fun reference => .bind (.read _) fun marked =>
      .ite (fun _ => .bind (.read _) fun xp => .pure _) fun _ => .bind now_idle fun now =>
      .bind (.write fun _ => ⟨rfl, rfl, rfl, rfl⟩) fun _ =>
      .bind (.write fun _ => ⟨rfl, rfl, rfl, rfl⟩) fun _ => .bind (.read _) fun xp => .pure _

theorem creditReward_idle (account : Int) (kind : RewardKind) (period : Period) (tier credits : Int)
    (source : String) : Within Idle (rt.creditReward account kind period tier credits source) :=
  .ite (fun _ => .pure _) fun _ => .bind (rt.appendLedger_idle _ _ _ _ _) fun _ => .pure _

theorem progressReward_idle (account : Int) (track : Option TrackReward) (source : String) :
    Within Idle (rt.progressReward account track source) := by
  cases track with
  | none => exact .pure _
  | some track => exact rt.addTrackXp_idle _ _ _ _

theorem deliverReward_idle (account : Int) (kind : RewardKind) (items : List Reward)
    (source : String) : Within Idle (rt.deliverReward account kind items source) :=
  .ite (fun _ => .pure _) fun _ => .bind uuid4_idle fun _ => .bind (.lift _) fun _ =>
    .bind now_idle fun _ => .bind now_idle fun _ => .bind (insertDelivery_idle _) fun _ => .pure _

variable {session after : Session F}

variable {kind : RewardKind} {period : Period} {account tier : Int} {value : Value F}

theorem recordReward_moves {reward : EngagementReward}
    (success : rt.recordReward account kind period tier reward session = .ok (value, after)) :
    Moves account (·.addClaims kind period [rt.priced tier reward]) session.db after.db := by
  obtain ⟨entry, credited, posted, rest⟩ := bind_ok.mp success
  obtain ⟨track, progressed, counted, rest⟩ := bind_ok.mp rest
  obtain ⟨deliveryId, delivered, queued, rest⟩ := bind_ok.mp rest
  have same : SameEngagement session.db delivered.db :=
    ((idle_same (rt.creditReward_idle _ _ _ _ _ _) posted).trans
      (idle_same (rt.progressReward_idle _ _ _) counted)).trans
      (idle_same (rt.deliverReward_idle _ _ _ _) queued)
  simp only [Action.uuid4_bind, lift_bind, Action.now_bind, Action.select_bind,
    Action.unique_bind, Action.execute_bind, pure_ok] at rest
  obtain ⟨text, encoded, -, done⟩ := rest
  cases done
  rw [priced, encoded]
  have claimed := appendClaim_moves delivered.db ⟨(delivered.supply.uuid4 0).text, account, kind,
    period, tier, text, deliveryId, entry.map LedgerEntry.id, delivered.supply.now 0⟩
  exact same.followed claimed

theorem claim?_none {db : Db F} : db.claim? account kind period tier = none ↔
      tier ∉ ((db.record account).claims kind period).map Prod.fst := by
  simp [Db.claim?, Db.record, Db.claimsOf, EngagementClaim.key]

theorem grantEngagementReward_moves {reward : EngagementReward}
    (success : rt.grantEngagementReward account kind period tier reward session = .ok (value, after)) :
    Moves account (·.grant kind period (rt.priced tier reward)) session.db after.db := by
  unfold grantEngagementReward at success
  rw [Action.select_bind] at success
  cases found : session.db.claim? account kind period tier with
  | none =>
    rw [found] at success
    obtain ⟨own, apart⟩ := rt.recordReward_moves success
    refine ⟨own.trans (Eq.symm ?_), apart⟩
    exact if_neg (claim?_none.mp found)
  | some row =>
    rw [found] at success
    cases pure_ok.mp success
    refine ⟨Eq.symm (if_pos ?_), fun another _ => rfl⟩
    by_contra unclaimed
    have free : session.db.claim? account kind period tier = none := claim?_none.mpr unclaimed
    rw [free] at found
    cases found

variable {values : List (Value F)}

theorem grants_moves {α : Type} {account : Int} {tier : α → Int} {reward : α → EngagementReward} {due : List α}
    (success : Transaction.each (fun row => rt.grantEngagementReward account kind period (tier row)
      (reward row)) due session = .ok (values, after)) :
    Moves account (·.grantAll kind period (due.map fun row => rt.priced (tier row) (reward row)))
      session.db after.db := by
  induction due generalizing session values with
  | nil =>
    cases pure_ok.mp success
    exact ⟨rfl, fun _ _ => rfl⟩
  | cons row rest ih =>
    obtain ⟨value, middle, granted, others⟩ := bind_ok.mp success
    obtain ⟨values, final, grantedRest, same⟩ := bind_ok.mp others
    cases pure_ok.mp same
    exact (rt.grantEngagementReward_moves granted).trans (ih grantedRest)

variable (policy : EngagementPolicy F)

theorem dayBefore_ok {date yesterday : Int} (before : Calendar.dayBefore date = .ok yesterday) :
    yesterday = date - 1 := by
  unfold Calendar.dayBefore at before
  split at before
  · exact (Except.ok.inj before).symm
  · cases before

theorem dateOf_ok {epoch date : Int} (read : Calendar.dateOf epoch = .ok date) : date = epoch / 86400 := by
  unfold Calendar.dateOf at read
  split at read
  · exact (Except.ok.inj read).symm
  · cases read

theorem recordDay_moves {account date observed seconds : Int}
    (success : rt.recordDay policy account date observed seconds session = .ok (values, after)) :
    Moves account (rt.dayRecord policy date) session.db after.db := by
  unfold recordDay at success
  rw [Action.select_bind] at success
  cases found : session.db.day? account date with
  | some row =>
    rw [found] at success
    simp only [Action.execute_bind, pure_ok] at success
    cases success
    have present : (session.db.record account).streak date = some row.streak := by
      simp [Db.record, found]
    constructor
    · rw [dayRecord, present]
      exact extendDay_record _ _ _ _ _ _
    · exact fun another _ => extendDay_record _ _ _ _ _ _
  | none =>
    rw [found] at success
    simp only [lift_bind, Action.select_bind, Action.execute_bind] at success
    obtain ⟨yesterday, before, granted⟩ := success
    cases dayBefore_ok before
    have absent : (session.db.record account).streak date = none := by
      simp [Db.record, found]
    have written := appendDay_moves session.db
      ⟨account, date, seconds, session.db.streak account (date - 1) + 1, observed, observed⟩ found
    obtain ⟨own, apart⟩ := written.trans (rt.grants_moves granted)
    refine ⟨own.trans ?_, apart⟩
    rw [dayRecord, absent]
    rfl

theorem recordWeek_moves {account : Int} {week : Int × Int} {observed seconds : Int}
    (success : rt.recordWeek policy account week observed seconds session = .ok (values, after)) :
    Moves account (rt.weekRecord policy week seconds) session.db after.db := by
  simp only [recordWeek, Action.select_bind, Action.execute_bind] at success
  have written := writeWeek_moves session.db account week (session.db.weekSeconds account week + seconds) observed
  obtain ⟨own, apart⟩ := written.trans (rt.grants_moves success)
  exact ⟨own, apart⟩

theorem recordHours_moves {account : Int} {step : Advance F} {result : Int × List (Value F)}
    (success : rt.recordHours policy account step session = .ok (result, after)) :
    Moves account (rt.hoursRecord policy step) session.db after.db ∧
      result.1 = if policy.hourly.active then
        max step.rewardedHours (earnedHours policy.hourly step.sessionSeconds)
        else step.rewardedHours := by
  unfold recordHours at success
  unfold hoursRecord HourlyPolicy.active
  split at success
  · next active =>
    obtain ⟨values, middle, granted, same⟩ := bind_ok.mp success
    cases pure_ok.mp same
    simp only [active, if_true]
    exact ⟨rt.grants_moves granted, trivial⟩
  · next idle =>
    cases pure_ok.mp success
    simp only [idle, Bool.false_eq_true, if_false]
    exact ⟨⟨rfl, fun _ _ => rfl⟩, trivial⟩

theorem recordActivity_moves {account observed : Int} {step : Advance F} {result : Int × List (Value F)}
    (success : rt.recordActivity policy account observed step session = .ok (result, after)) :
    Moves account (rt.activityRecord policy observed step) session.db after.db ∧ result.1 = hoursAfter policy step := by
  unfold recordActivity at success
  unfold activityRecord hoursAfter
  split at success
  · next active =>
    simp only [lift_bind] at success
    obtain ⟨date, read, rest⟩ := success
    cases dateOf_ok read
    obtain ⟨daily, middle, day, rest⟩ := bind_ok.mp rest
    obtain ⟨weekly, later, week, rest⟩ := bind_ok.mp rest
    obtain ⟨⟨hours, hourly⟩, final, hour, same⟩ := bind_ok.mp rest
    cases pure_ok.mp same
    obtain ⟨moved, kept⟩ := rt.recordHours_moves policy hour
    simp only [active, if_true, Bool.true_and]
    exact ⟨((rt.recordDay_moves policy day).trans (rt.recordWeek_moves policy week)).trans moved, kept⟩
  · next idle =>
    cases pure_ok.mp success
    simp only [idle, Bool.false_and, Bool.false_eq_true, if_false]
    exact ⟨⟨rfl, fun _ _ => rfl⟩, trivial⟩

theorem grantAll_rest (record : Record F) (kind : RewardKind) (period : Period) (due : List (Int × Result String)) :
    (record.grantAll kind period due).checkpoint = record.checkpoint ∧
      (record.grantAll kind period due).streak = record.streak := by
  induction due generalizing record with
  | nil => exact ⟨rfl, rfl⟩
  | cons one rest ih =>
    have granted : (record.grant kind period one).checkpoint = record.checkpoint ∧
        (record.grant kind period one).streak = record.streak := by
      unfold Record.grant
      split <;> exact ⟨rfl, rfl⟩
    obtain ⟨checkpoint, streak⟩ := ih (record.grant kind period one)
    exact ⟨checkpoint.trans granted.1, streak.trans granted.2⟩

theorem hoursRecord_rest (step : Advance F) (record : Record F) :
    (rt.hoursRecord policy step record).checkpoint = record.checkpoint ∧
      (rt.hoursRecord policy step record).streak = record.streak := by
  unfold hoursRecord
  split
  · exact grantAll_rest _ _ _ _
  · exact ⟨rfl, rfl⟩

theorem weekRecord_rest (week : Int × Int) (seconds : Int) (record : Record F) :
    (rt.weekRecord policy week seconds record).checkpoint = record.checkpoint ∧
      (rt.weekRecord policy week seconds record).streak = record.streak :=
  grantAll_rest (record.setWeek week _) _ _ _

theorem dayRecord_rest (date : Int) (record : Record F) :
    (rt.dayRecord policy date record).checkpoint = record.checkpoint ∧
      ∀ other, ((rt.dayRecord policy date record).streak other).isSome →
        other = date ∨ (record.streak other).isSome := by
  unfold dayRecord
  split
  · exact ⟨rfl, fun _ active => .inr active⟩
  · obtain ⟨checkpoint, streak⟩ := grantAll_rest (record.setStreak date _) .daily (.day date) _
    refine ⟨checkpoint, fun other active => ?_⟩
    rw [streak] at active
    by_cases same : other = date
    · exact .inl same
    · exact .inr (by simpa [Record.setStreak, same] using active)

theorem activityRecord_rest (observed : Int) (step : Advance F) (record : Record F) :
    (rt.activityRecord policy observed step record).checkpoint = record.checkpoint ∧
      ∀ date, ((rt.activityRecord policy observed step record).streak date).isSome →
        date = observed / 86400 ∨ (record.streak date).isSome := by
  unfold activityRecord
  split
  · obtain ⟨checkpoint, days⟩ := rt.dayRecord_rest policy (observed / 86400) record
    obtain ⟨weekCheckpoint, weekDays⟩ := rt.weekRecord_rest policy
      (Calendar.isoWeek (observed / 86400)) step.activeSeconds
      (rt.dayRecord policy (observed / 86400) record)
    obtain ⟨hourCheckpoint, hourDays⟩ := rt.hoursRecord_rest policy step (rt.weekRecord policy
      (Calendar.isoWeek (observed / 86400)) step.activeSeconds
      (rt.dayRecord policy (observed / 86400) record))
    refine ⟨hourCheckpoint.trans (weekCheckpoint.trans checkpoint), fun date active => days date ?_⟩
    rwa [hourDays, weekDays] at active
  · exact ⟨rfl, fun _ active => .inr active⟩

/-- What the store commits for the observed account is an observation of its record. -/
theorem recordObservation_ok {duneAccountId : Value F} {online : Bool} {observed : Int} {current : Location F}
    (success : rt.recordObservation policy duneAccountId online observed current session = .ok (value, after)) :
    ∃ account, rt.accountId duneAccountId = .ok account ∧
      rt.Observed policy account online observed (session.db.record account) (after.db.record account) ∧
      ∀ another, another ≠ account → after.db.record another = session.db.record another := by
  obtain ⟨account, middle, ensured, rest⟩ := bind_ok.mp success
  obtain ⟨parsed, -⟩ := rt.ensureAccount_ok ensured
  have same := idle_same (rt.ensureAccount_idle _) ensured
  refine ⟨account, parsed, ?_⟩
  rw [← same.record account]
  rw [Action.select_bind] at rest
  cases found : middle.db.engagement? account with
  | none =>
    rw [found] at rest
    simp only [bindLocation, Action.bind_bind, Action.execute_bind, pure_ok] at rest
    obtain ⟨-, -, done⟩ := rest
    cases done
    have opened := appendEngagement_moves middle.db ⟨account, observed, online, current, none,
      if online then some observed else none, 0, 0⟩ found
    refine ⟨opened.own ▸ .first current found, fun another apart => ?_⟩
    exact (opened.apart another apart).trans (same.record another)
  | some row =>
    rw [found] at rest
    simp only at rest
    split at rest
    · next stale =>
      cases pure_ok.mp rest
      exact ⟨.replay row found stale, fun another _ => same.record another⟩
    · next newer =>
      simp only [continueEngagement, lift_bind] at rest
      obtain ⟨step, advanced, rest⟩ := rest
      obtain ⟨⟨hours, rewards⟩, final, recorded, rest⟩ := bind_ok.mp rest
      obtain ⟨moved, kept⟩ := rt.recordActivity_moves policy recorded
      simp only [bindLocation, Action.bind_bind, Action.execute_bind, pure_ok] at rest
      obtain ⟨-, -, done⟩ := rest
      cases done
      have present : final.db.engagement? account = some row := by
        refine (congrArg Record.checkpoint moved.own).trans ?_
        rw [(rt.activityRecord_rest policy observed step _).1]
        exact found
      have kept : hours = hoursAfter policy step := kept
      subst kept
      obtain ⟨own, apart⟩ := moved.trans (setEngagement_moves final.db
        (nextCheckpoint account observed online current step (hoursAfter policy step)) present)
      refine ⟨own ▸ .later row current step found (not_le.mp newer) advanced, ?_⟩
      exact fun another other => (apart another other).trans (same.record another)

end Platform

end Dash.Community
