import Dash.Community.Earned

/-! The active seconds that observations return against those that are kept.

An accepted observation adds the seconds it returns to the row of its day and to the row
of its week, and to the session of the checkpoint. Every other call returns no seconds
and keeps the three as they are.
-/

set_option autoImplicit false

namespace Dash.Community

open Dash.Python Dash.Foundation List
open Foundation.Transaction (bind_ok lift_bind pure_ok)

variable {F : Type}

def Db.dayTotal (db : Db F) : Int → Int :=
  totalOf EngagementDay.duneAccountId EngagementDay.activeSeconds db.engagementDays

def Db.weekTotal (db : Db F) : Int → Int :=
  totalOf EngagementWeek.duneAccountId EngagementWeek.activeSeconds db.engagementWeeks

structure Db.Keyed (db : Db F) : Prop where
  days : (db.engagementDays.map EngagementDay.key).Nodup
  weeks : (db.engagementWeeks.map EngagementWeek.key).Nodup

structure SameTotals (db other : Db F) : Prop where
  days : other.engagementDays = db.engagementDays
  weeks : other.engagementWeeks = db.engagementWeeks

structure Gains (account seconds : Int) (db other : Db F) : Prop where
  keyed : other.Keyed
  days : ∀ another, other.dayTotal another = db.dayTotal another + if account = another then seconds else 0
  weeks : ∀ another, other.weekTotal another = db.weekTotal another + if account = another then seconds else 0

namespace SameTotals

variable {db middle other : Db F}

theorem refl (db : Db F) : SameTotals db db := ⟨rfl, rfl⟩

theorem trans (before : SameTotals db middle) (after : SameTotals middle other) : SameTotals db other :=
  ⟨after.days.trans before.days, after.weeks.trans before.weeks⟩

section

variable (same : SameTotals db other)
include same

theorem keyed (keyed : db.Keyed) : other.Keyed :=
  ⟨same.days ▸ keyed.days, same.weeks ▸ keyed.weeks⟩

theorem dayTotal : other.dayTotal = db.dayTotal := by
  rw [Db.dayTotal, same.days, Db.dayTotal]

theorem weekTotal : other.weekTotal = db.weekTotal := by
  rw [Db.weekTotal, same.weeks, Db.weekTotal]

theorem gains (keyed : db.Keyed) (account : Int) : Gains account 0 db other :=
  ⟨same.keyed keyed, fun another => by rw [same.dayTotal, ite_self, Int.add_zero],
    fun another => by rw [same.weekTotal, ite_self, Int.add_zero]⟩

end

end SameTotals

namespace Gains

variable {account seconds : Int} {db middle other : Db F}

theorem before (gains : Gains account seconds db middle) (same : SameTotals middle other) :
    Gains account seconds db other :=
  ⟨same.keyed gains.keyed, by rw [same.dayTotal]; exact gains.days, by rw [same.weekTotal]; exact gains.weeks⟩

end Gains

def Uncounted (session after : Session F) : Prop := SameTotals session.db after.db

namespace Platform

open Transaction (Within)

variable (rt : Platform F) {session after : Session F}

theorem idle_uncounted {α : Type} {body : Action F α} (idle : Within Idle body) : Within Uncounted body :=
  idle.mono fun _ _ same => ⟨same.days, same.weeks⟩

theorem uncounted_same {α : Type} {body : Action F α} (uncounted : Within Uncounted body)
    {value : α} (success : body session = .ok (value, after)) : SameTotals session.db after.db := by
  have path := uncounted _ _ _ success
  clear success
  induction path with
  | refl => exact .refl _
  | tail _ step ih => exact ih.trans step

theorem recordReward_uncounted (account tier : Int) (kind : RewardKind) (period : Period) (reward : EngagementReward) :
    Within Uncounted (rt.recordReward account kind period tier reward) := by
  refine .bind (idle_uncounted (rt.creditReward_idle _ _ _ _ _ _)) fun entry => ?_
  refine .bind (idle_uncounted (rt.progressReward_idle _ _ _)) fun track => ?_
  refine .bind (idle_uncounted (rt.deliverReward_idle _ _ _ _)) fun deliveryId => ?_
  refine .bind (idle_uncounted uuid4_idle) fun claimId => .bind (.lift _) fun rewardJson => ?_
  refine .bind (idle_uncounted now_idle) fun now => .bind (.read _) fun ids => ?_
  exact .bind (.check _ _) fun _ => .bind (.write fun _ => ⟨rfl, rfl⟩) fun _ => .pure _

theorem grantEngagementReward_uncounted (account tier : Int) (kind : RewardKind) (period : Period)
    (reward : EngagementReward) :
    Within Uncounted (rt.grantEngagementReward account kind period tier reward) := by
  refine .bind (.read _) fun existing => ?_
  cases existing with
  | some row => exact .pure _
  | none => exact rt.recordReward_uncounted _ _ _ _ _

variable (policy : EngagementPolicy F)

theorem extendDay_gains {db : Db F} (keyed : db.Keyed) {account date seconds observed : Int}
    {row : EngagementDay} (found : db.day? account date = some row) (another : Int) :
    (db.extendDay account date seconds observed).dayTotal another =
      db.dayTotal another + if account = another then seconds else 0 := by
  have same : row.key = (account, date) := by simpa using List.find?_some found
  have owner : row.duneAccountId = account := congrArg Prod.fst same
  rw [Db.dayTotal, Db.extendDay, ← same, Table.totalOf_update keyed.days
    (List.mem_of_find?_eq_some found) rfl rfl, owner]
  rfl

theorem recordDay_gains (keyed : session.db.Keyed) {account date observed seconds : Int} {values : List (Value F)}
    (success : rt.recordDay policy account date observed seconds session = .ok (values, after)) :
    after.db.Keyed ∧ after.db.engagementWeeks = session.db.engagementWeeks ∧ ∀ another, after.db.dayTotal another =
        session.db.dayTotal another + if account = another then seconds else 0 := by
  unfold recordDay at success
  rw [Action.select_bind] at success
  cases found : session.db.day? account date with
  | some row =>
    rw [found] at success
    simp only [Action.execute_bind, pure_ok] at success
    cases success
    have keys : ((session.db.extendDay account date seconds observed).engagementDays.map
        EngagementDay.key) = session.db.engagementDays.map EngagementDay.key :=
      Table.update_keys fun _ => rfl
    exact ⟨⟨keys ▸ keyed.days, keyed.weeks⟩, rfl, extendDay_gains keyed found⟩
  | none =>
    rw [found] at success
    simp only [lift_bind, Action.select_bind, Action.execute_bind] at success
    obtain ⟨yesterday, -, granted⟩ := success
    have same := uncounted_same (.each (fun row => rt.grantEngagementReward_uncounted _ _ _ _ _) _) granted
    have fresh : (account, date) ∉ session.db.engagementDays.map EngagementDay.key := Table.find_none.mp found
    refine ⟨same.keyed ⟨Table.insert_keys keyed.days fresh, keyed.weeks⟩, same.weeks, fun another => ?_⟩
    rw [same.dayTotal]
    exact Table.totalOf_append _

theorem recordWeek_gains (keyed : session.db.Keyed) {account : Int} {week : Int × Int}
    {observed seconds : Int} {values : List (Value F)}
    (success : rt.recordWeek policy account week observed seconds session = .ok (values, after)) :
    after.db.Keyed ∧ after.db.engagementDays = session.db.engagementDays ∧ ∀ another, after.db.weekTotal another =
        session.db.weekTotal another + if account = another then seconds else 0 := by
  simp only [recordWeek, Action.select_bind, Action.execute_bind] at success
  have same := uncounted_same (.each (fun row => rt.grantEngagementReward_uncounted _ _ _ _ _) _) success
  cases found : session.db.week? account week with
  | some row =>
    simp only [found, Option.isSome_some, if_true, Db.weekSeconds, Option.map_some, Option.getD_some] at same
    have hit : row.key = (account, week) := by simpa using List.find?_some found
    have owner : row.duneAccountId = account := congrArg Prod.fst hit
    have member := List.mem_of_find?_eq_some found
    have keys : ((session.db.setWeek account week (row.activeSeconds + seconds)
        observed).engagementWeeks.map EngagementWeek.key) = session.db.engagementWeeks.map EngagementWeek.key :=
      Table.update_keys fun _ => rfl
    refine ⟨same.keyed ⟨keyed.days, keys ▸ keyed.weeks⟩, same.days, fun another => ?_⟩
    rw [same.weekTotal, Db.weekTotal, Db.setWeek, ← hit, Table.totalOf_update keyed.weeks member rfl rfl, owner]
    rfl
  | none =>
    simp only [found, Option.isSome_none, Bool.false_eq_true, if_false, Db.weekSeconds,
      Option.map_none, Option.getD_none, Int.zero_add] at same
    have fresh : (account, week) ∉ session.db.engagementWeeks.map EngagementWeek.key := Table.find_none.mp found
    refine ⟨same.keyed ⟨keyed.days, Table.insert_keys keyed.weeks fresh⟩, same.days, fun another => ?_⟩
    rw [same.weekTotal]
    exact Table.totalOf_append _

theorem recordHours_uncounted (account : Int) (step : Advance F) :
    Within Uncounted (rt.recordHours policy account step) :=
  .ite (fun _ => .bind (.each (fun _ => rt.grantEngagementReward_uncounted _ _ _ _ _) _)
    fun _ => .pure _) fun _ => .pure _

theorem recordActivity_gains (keyed : session.db.Keyed) (enabled : policy.enabled = true)
    {account observed : Int} {step : Advance F} {result : Int × List (Value F)}
    (success : rt.recordActivity policy account observed step session = .ok (result, after)) :
    Gains account step.activeSeconds session.db after.db := by
  unfold recordActivity at success
  split at success
  · simp only [lift_bind] at success
    obtain ⟨date, -, rest⟩ := success
    obtain ⟨daily, middle, day, rest⟩ := bind_ok.mp rest
    obtain ⟨weekly, later, week, rest⟩ := bind_ok.mp rest
    obtain ⟨⟨hours, hourly⟩, final, hour, same⟩ := bind_ok.mp rest
    cases pure_ok.mp same
    obtain ⟨dayKeyed, dayWeeks, days⟩ := rt.recordDay_gains policy keyed day
    obtain ⟨weekKeyed, weekDays, weeks⟩ := rt.recordWeek_gains policy dayKeyed week
    have rewarded := uncounted_same (rt.recordHours_uncounted policy account step) hour
    refine Gains.before ⟨weekKeyed, fun another => ?_, fun another => ?_⟩ rewarded
    · rw [← days, Db.dayTotal, weekDays]
      rfl
    · rw [weeks, Db.weekTotal, dayWeeks]
      rfl
  · next idle =>
    have still : step.activeSeconds = 0 := by simpa [enabled] using idle
    cases pure_ok.mp success
    rw [still]
    exact (SameTotals.refl _).gains keyed account

def activeSeconds (value : Value F) : Int :=
  match value.get "activeSeconds" with
  | .int seconds => seconds
  | _ => 0

/-- What one observation does to the database of its account, with the seconds it returns. -/
inductive Answered (account : Int) (online : Bool) (observed : Int) (current : Location F)
    (db : Db F) : Int → Db F → Prop where
  | first (absent : db.engagement? account = none) :
      Answered account online observed current db 0 (db.appendEngagement
        ⟨account, observed, online, current, none, if online then some observed else none, 0, 0⟩)
  | replay (row : EngagementCheckpoint F) (present : db.engagement? account = some row)
      (stale : observed ≤ row.observedAt) : Answered account online observed current db 0 db
  | later (row : EngagementCheckpoint F) (step : Advance F) (hours : Int) (recorded : Db F) (present : db.engagement? account = some row)
      (newer : row.observedAt < observed)
      (advanced : rt.advance policy row online observed current = .ok step)
      (gains : db.Keyed → policy.enabled = true → Gains account step.activeSeconds db recorded)
      (kept : recorded.engagement? account = some row)
      (apart : ∀ another, another ≠ account → recorded.engagement? another = db.engagement? another) :
      Answered account online observed current db step.activeSeconds
        (recorded.setEngagement (nextCheckpoint account observed online current step hours))

theorem recordObservation_answered {duneAccountId : Value F} {online : Bool} {observed : Int}
    {current : Location F} {value : Value F}
    (success : rt.recordObservation policy duneAccountId online observed current session = .ok (value, after)) :
    ∃ account opened, rt.accountId duneAccountId = .ok account ∧ SameEngagement session.db opened ∧
      rt.Answered policy account online observed current opened (activeSeconds value) after.db := by
  obtain ⟨account, middle, ensured, rest⟩ := bind_ok.mp success
  obtain ⟨parsed, -⟩ := rt.ensureAccount_ok ensured
  have same := idle_same (rt.ensureAccount_idle _) ensured
  refine ⟨account, middle.db, parsed, same, ?_⟩
  rw [Action.select_bind] at rest
  cases found : middle.db.engagement? account with
  | none =>
    rw [found] at rest
    simp only [bindLocation, Action.bind_bind, Action.execute_bind, pure_ok] at rest
    obtain ⟨-, -, done⟩ := rest
    cases done
    exact .first found
  | some row =>
    rw [found] at rest
    simp only at rest
    split at rest
    · next stale =>
      cases pure_ok.mp rest
      exact .replay row found stale
    · next newer =>
      simp only [continueEngagement, lift_bind] at rest
      obtain ⟨step, advanced, rest⟩ := rest
      obtain ⟨⟨hours, rewards⟩, final, recorded, rest⟩ := bind_ok.mp rest
      have moved := (rt.recordActivity_moves policy recorded).1
      have gains := fun keyed enabled => rt.recordActivity_gains policy keyed enabled recorded
      simp only [bindLocation, Action.bind_bind, Action.execute_bind, pure_ok] at rest
      obtain ⟨-, -, done⟩ := rest
      cases done
      have present : final.db.engagement? account = some row := by
        refine (congrArg Record.checkpoint moved.own).trans ?_
        rw [(rt.activityRecord_rest policy observed step _).1]
        exact found
      exact .later row step hours final.db found (not_le.mp newer) advanced gains present
        fun another other => congrArg Record.checkpoint (moved.apart another other)

theorem engagementConfig_gap {value : Value F} (read : rt.engagementConfig value = .ok policy) :
    0 < policy.maxObservationGapSeconds :=
  (engagementConfig_ok read).1.1

variable {rt policy}

/-- The seconds of an observation that follows the checkpoint. -/
theorem advance_seconds {row : EngagementCheckpoint F} {online : Bool} {observed : Int}
    {current : Location F} {step : Advance F}
    (advanced : rt.advance policy row online observed current = .ok step)
    (newer : row.observedAt < observed) (positive : 0 < policy.maxObservationGapSeconds) :
    0 ≤ step.activeSeconds ∧ step.activeSeconds ≤ min (observed - row.observedAt) policy.maxObservationGapSeconds ∧
      (row.wasOnline = false ∨ online = false → step.activeSeconds = 0) ∧
      (policy.maxObservationGapSeconds < observed - row.observedAt → step.activeSeconds = 0) := by
  rcases advance_cases advanced with ⟨rfl, was, ⟨nonneg, most, near⟩, -⟩ | ⟨none, -⟩
  · exact ⟨nonneg, by omega, fun off => by simp [was] at off, fun far => by omega⟩
  · rw [none]
    exact ⟨le_refl 0, le_min (by omega) positive.le, fun _ => rfl, fun _ => rfl⟩

end Platform

structure Answer (F : Type) where
  observed : Int
  online : Bool
  location : Location F
  seconds : Int

def total (answers : List (Answer F)) : Int := (answers.map Answer.seconds).sum

def accept (seen : List (Answer F)) (answer : Answer F) : List (Answer F) :=
  if seen.getLast?.all fun last => last.observed < answer.observed then seen ++ [answer] else seen

def accepted (answers : List (Answer F)) : List (Answer F) := answers.foldl accept []

structure Credited (policy : EngagementPolicy F) (last : Option (Answer F)) (answer : Answer F) : Prop where
  nonneg : 0 ≤ answer.seconds
  first : last = none → answer.seconds = 0
  stale : ∀ before ∈ last, answer.observed ≤ before.observed → answer.seconds = 0
  offline : ∀ before ∈ last, before.online = false ∨ answer.online = false → answer.seconds = 0
  late : ∀ before ∈ last, policy.maxObservationGapSeconds < answer.observed - before.observed → answer.seconds = 0
  bounded : ∀ before ∈ last, before.observed < answer.observed → answer.seconds ≤
    min (answer.observed - before.observed) policy.maxObservationGapSeconds

structure Followed (seen : List (Answer F)) (checkpoint : Option (EngagementCheckpoint F)) : Prop where
  last : checkpoint.map (fun row => (row.observedAt, row.wasOnline)) =
    seen.getLast?.map fun answer => (answer.observed, answer.online)
  upTo : ∀ row ∈ checkpoint, ∀ answer ∈ seen, answer.observed ≤ row.observedAt
  span : ∀ first ∈ seen.head?, ∀ last ∈ seen.getLast?, total seen ≤ last.observed - first.observed
  session : ∀ row ∈ checkpoint, ∀ start, row.sessionStartedAt = some start → start ≤ row.observedAt ∧
      row.sessionActiveSeconds = total (seen.filter fun answer => start < answer.observed) ∧
      row.sessionActiveSeconds ≤ row.observedAt - start

theorem total_append (answers : List (Answer F)) (answer : Answer F) :
    total (answers ++ [answer]) = total answers + answer.seconds := by
  simp [total]

theorem accepted_append (answers : List (Answer F)) (answer : Answer F) :
    accepted (answers ++ [answer]) = accept (accepted answers) answer :=
  foldl_append

theorem accepted_later {answers : List (Answer F)} {answer : Answer F}
    (later : ∀ last ∈ (accepted answers).getLast?, last.observed < answer.observed) :
    accepted (answers ++ [answer]) = accepted answers ++ [answer] := by
  rw [accepted_append, accept]
  refine if_pos ?_
  cases found : (accepted answers).getLast? with
  | none => rfl
  | some last => exact decide_eq_true (later last found)

theorem accepted_stale {answers : List (Answer F)} {answer last : Answer F}
    (found : (accepted answers).getLast? = some last) (stale : answer.observed ≤ last.observed) :
    accepted (answers ++ [answer]) = accepted answers := by
  rw [accepted_append, accept, found]
  exact if_neg (by simpa using stale)

/-- An answer after the last accepted one keeps the seconds within the span. -/
theorem span_append {seen : List (Answer F)} {answer : Answer F}
    (span : ∀ first ∈ seen.head?, ∀ last ∈ seen.getLast?, total seen ≤ last.observed - first.observed)
    (alone : seen.getLast? = none → answer.seconds = 0)
    (within : ∀ last ∈ seen.getLast?, answer.seconds ≤ answer.observed - last.observed) :
    ∀ first ∈ (seen ++ [answer]).head?, ∀ last ∈ (seen ++ [answer]).getLast?,
      total (seen ++ [answer]) ≤ last.observed - first.observed := by
  intro first head last found
  rw [List.getLast?_concat] at found
  cases found
  rw [total_append]
  cases earlier : seen.getLast? with
  | none =>
    rw [List.getLast?_eq_none_iff] at earlier
    subst earlier
    cases head
    have still := alone rfl
    simp only [total, map_nil, sum_nil]
    omega
  | some before =>
    have begins : first ∈ seen.head? := by
      cases seen with
      | nil => cases earlier
      | cons other rest => exact head
    have old := span first begins before earlier
    have new := within before earlier
    omega

namespace Followed

variable {seen : List (Answer F)} {row next : EngagementCheckpoint F} {answer : Answer F}

theorem shown (followed : Followed seen (some row)) :
    ∃ last, seen.getLast? = some last ∧ last.observed = row.observedAt ∧ last.online = row.wasOnline := by
  obtain ⟨last, found, same⟩ := Option.map_eq_some_iff.mp followed.last.symm
  exact ⟨last, found, congrArg Prod.fst same, congrArg Prod.snd same⟩

theorem unseen (followed : Followed seen none) : seen = [] := by
  have nothing := followed.last.symm
  rw [Option.map_none, Option.map_eq_none_iff, List.getLast?_eq_none_iff] at nothing
  exact nothing

theorem nil : Followed ([] : List (Answer F)) none :=
  ⟨rfl, fun _ same => (nomatch same), fun _ same => (nomatch same), fun _ same => (nomatch same)⟩

/-- The checkpoint after an accepted answer, whose session is a new one, none or the same. -/
theorem appends (upTo : ∀ other ∈ seen, other.observed < answer.observed)
    (span : ∀ first ∈ (seen ++ [answer]).head?, ∀ last ∈ (seen ++ [answer]).getLast?,
      total (seen ++ [answer]) ≤ last.observed - first.observed)
    (observed : next.observedAt = answer.observed) (online : next.wasOnline = answer.online)
    (session : ∀ start, next.sessionStartedAt = some start → start ≤ next.observedAt ∧
      next.sessionActiveSeconds = total ((seen ++ [answer]).filter fun other => start < other.observed) ∧
      next.sessionActiveSeconds ≤ next.observedAt - start) :
    Followed (seen ++ [answer]) (some next) := by
  refine ⟨?_, fun _ same other member => ?_, span, fun _ same start opened => ?_⟩
  · rw [List.getLast?_concat]
    exact congrArg some (Prod.ext observed online)
  · cases same
    rcases mem_append.mp member with old | new
    · exact (upTo other old).le.trans observed.ge
    · rw [mem_singleton.mp new]
      exact observed.ge
  · cases same
    exact session start opened

theorem new_session (upTo : ∀ other ∈ seen, other.observed < answer.observed) :
    (seen ++ [answer]).filter (fun other => answer.observed < other.observed) = [] := by
  refine filter_eq_nil_iff.mpr fun other member => ?_
  rcases mem_append.mp member with old | new
  · simpa using (upTo other old).le
  · simp [mem_singleton.mp new]

theorem same_session {start : Int} (before : start < answer.observed) :
    total ((seen ++ [answer]).filter fun other => start < other.observed) =
      total (seen.filter fun other => start < other.observed) + answer.seconds := by
  rw [filter_append, filter_singleton, decide_eq_true before]
  exact total_append _ _

end Followed

namespace Platform

variable (rt : Platform F) (config : Value F)

def seenAt (observation : Observation F) : Result (Location F) := do
  let policy ← rt.engagementConfig (.object [("engagementRewards", rt.orElse config (.dict []))])
  rt.location observation.location policy.coordinatePrecision

/-- What a call returned, where it was for the account and did not raise. -/
def answer (account : Int) (db : Db F) (observation : Observation F) : Option (Answer F) :=
  match rt.accountId observation.duneAccountId, rt.int observation.observedEpoch,
    rt.seenAt config observation,
    rt.observeEngagement observation.duneAccountId observation.online observation.observedEpoch
      observation.location config ⟨db, observation.supply⟩ with
  | .ok own, .ok observed, .ok current, .ok (value, _) =>
    if own = account then
      some ⟨observed, rt.truthy observation.online, current, activeSeconds value⟩
    else none
  | _, _, _, _ => none

def answers (account : Int) : Db F → List (Observation F) → List (Answer F)
  | _, [] => []
  | db, observation :: rest => (rt.answer config account db observation).toList ++
      answers account (rt.observe config db observation) rest

/-- The checkpoint, the totals and what the calls returned agree. -/
structure Accounted (policy : EngagementPolicy F) (account : Int) (db : Db F)
    (answers : List (Answer F)) : Prop where
  days : db.dayTotal account = total answers
  weeks : db.weekTotal account = total answers
  calls : ∀ before answer after, answers = before ++ answer :: after →
    Credited policy (accepted before).getLast? answer
  span : ∀ first ∈ (accepted answers).head?, ∀ last ∈ (accepted answers).getLast?,
    total answers ≤ last.observed - first.observed
  checkpoint : (db.engagement? account).map (fun row => (row.observedAt, row.wasOnline)) =
    (accepted answers).getLast?.map fun answer => (answer.observed, answer.online)
  session : ∀ row ∈ db.engagement? account, ∀ start, row.sessionStartedAt = some start → row.sessionActiveSeconds =
      total ((accepted answers).filter fun answer => start < answer.observed) ∧
    row.sessionActiveSeconds ≤ row.observedAt - start

structure Unseen (db : Db F) (account : Int) : Prop where
  checkpoint : db.engagement? account = none
  days : ∀ row ∈ db.engagementDays, row.duneAccountId ≠ account
  weeks : ∀ row ∈ db.engagementWeeks, row.duneAccountId ≠ account

structure Books (policy : EngagementPolicy F) (account : Int) (db : Db F)
    (answers : List (Answer F)) : Prop where
  keyed : db.Keyed
  days : db.dayTotal account = total answers
  weeks : db.weekTotal account = total answers
  kept : total (accepted answers) = total answers
  followed : Followed (accepted answers) (db.engagement? account)
  calls : ∀ before answer after, answers = before ++ answer :: after →
    Credited policy (accepted before).getLast? answer

variable {rt config} {policy : EngagementPolicy F} {account : Int} {db other : Db F} {answers : List (Answer F)}

theorem Books.begin_ (keyed : db.Keyed) (unseen : Unseen db account) : Books policy account db [] where
  keyed := keyed
  days := Table.totalOf_none unseen.days
  weeks := Table.totalOf_none unseen.weeks
  kept := rfl
  followed := unseen.checkpoint ▸ Followed.nil
  calls before answer after same := absurd same (by simp)

theorem Books.frame (books : Books policy account db answers) (same : SameTotals db other)
    (keyed : other.Keyed) (checkpoint : other.engagement? account = db.engagement? account) :
    Books policy account other answers :=
  ⟨keyed, by rw [same.dayTotal, books.days], by rw [same.weekTotal, books.weeks], books.kept,
    checkpoint ▸ books.followed, books.calls⟩

theorem calls_append {answer : Answer F} (calls : ∀ before answer after, answers = before ++ answer :: after →
      Credited policy (accepted before).getLast? answer)
    (last : Credited policy (accepted answers).getLast? answer) :
    ∀ before other after, answers ++ [answer] = before ++ other :: after →
      Credited policy (accepted before).getLast? other := by
  intro before other after same
  rcases eq_nil_or_concat after with rfl | ⟨rest, final, rfl⟩
  · obtain ⟨earlier, final⟩ := append_inj' same rfl
    rw [← earlier, ← singleton_inj.mp final]
    exact last
  · rw [concat_eq_append, ← cons_append, ← append_assoc] at same
    exact calls before other rest (append_inj' same rfl).1

section

variable (books : Books policy account db answers)
include books

theorem Books.stale {row : EngagementCheckpoint F} (present : db.engagement? account = some row) {answer : Answer F}
    (stale : answer.observed ≤ row.observedAt) (still : answer.seconds = 0) :
    Books policy account db (answers ++ [answer]) := by
  have followed := books.followed
  rw [present] at followed
  obtain ⟨last, found, same, -⟩ := followed.shown
  have refused : accepted (answers ++ [answer]) = accepted answers := accepted_stale found (same ▸ stale)
  refine ⟨books.keyed, ?_, ?_, ?_, refused ▸ books.followed, calls_append books.calls ?_⟩
  · rw [books.days, total_append, still, Int.add_zero]
  · rw [books.weeks, total_append, still, Int.add_zero]
  · rw [refused, books.kept, total_append, still, Int.add_zero]
  · exact ⟨still.ge, fun _ => still, fun _ _ _ => still, fun _ _ _ => still, fun _ _ _ => still,
      fun before known newer => by
        cases found.symm.trans known
        omega⟩

theorem Books.accepts {answer : Answer F}
    {next : EngagementCheckpoint F} (gains : Gains account answer.seconds db other)
    (stored : other.engagement? account = some next)
    (later : ∀ last ∈ (accepted answers).getLast?, last.observed < answer.observed)
    (credited : Credited policy (accepted answers).getLast? answer)
    (follows : Followed (accepted answers ++ [answer]) (some next)) :
    Books policy account other (answers ++ [answer]) := by
  have added := accepted_later later
  refine ⟨gains.keyed, ?_, ?_, ?_, ?_, calls_append books.calls credited⟩
  · rw [gains.days, if_pos rfl, books.days, total_append]
  · rw [gains.weeks, if_pos rfl, books.weeks, total_append]
  · rw [added, total_append, books.kept, total_append]
  · rw [added, stored]
    exact follows

theorem Books.answered (enabled : policy.enabled = true)
    (positive : 0 < policy.maxObservationGapSeconds) {online : Bool} {observed seconds : Int}
    {current : Location F} (step : rt.Answered policy account online observed current db seconds other) :
    Books policy account other (answers ++ [⟨observed, online, current, seconds⟩]) := by
  have followed := books.followed
  cases step with
  | first absent =>
    rw [absent] at followed
    have none_ := followed.unseen
    have stored : (db.appendEngagement ⟨account, observed, online, current, none,
        if online then some observed else none, 0, 0⟩).engagement? account = some _ :=
      (Table.find_append (by exact absent) account).trans (if_pos rfl)
    have same (row : EngagementCheckpoint F) : SameTotals db (db.appendEngagement row) := ⟨rfl, rfl⟩
    refine books.accepts ((same _).gains books.keyed account) stored ?_ ?_ ?_
    all_goals rw [none_]
    · exact fun _ same => (nomatch same)
    · exact ⟨le_refl 0, fun _ => rfl, fun _ same => (nomatch same), fun _ same => (nomatch same),
        fun _ same => (nomatch same), fun _ same => (nomatch same)⟩
    · refine Followed.appends (fun _ member => (nomatch member)) ?_ rfl rfl fun start opened => ?_
      · exact span_append (fun _ same => (nomatch same)) (fun _ => rfl) fun _ same => (nomatch same)
      · obtain rfl : start = observed := by
          cases online <;> simp_all
        have unspent := @Followed.new_session F [] ⟨start, online, current, 0⟩ fun _ member => (nomatch member)
        exact ⟨le_refl start, (congrArg total unspent).symm, (Int.sub_self start).ge⟩
  | replay row present stale => exact books.stale present stale rfl
  | later row step hours recorded present newer advanced gains kept rest =>
    have gains := gains books.keyed enabled
    rw [present] at followed
    obtain ⟨last, found, at_, was⟩ := followed.shown
    obtain ⟨nonneg, bounded, offline, late⟩ := advance_seconds advanced newer positive
    have earlier : ∀ before ∈ (accepted answers).getLast?, before = last := fun before known =>
      Option.some.inj (known.symm.trans found)
    have upTo : ∀ answer ∈ accepted answers, answer.observed < observed := fun answer member =>
      (followed.upTo row rfl answer member).trans_lt newer
    have stored : (recorded.setEngagement (nextCheckpoint account observed online current step
        hours)).engagement? account = some (nextCheckpoint account observed online current step hours) :=
      congrArg Record.checkpoint (setEngagement_moves recorded
        (nextCheckpoint account observed online current step hours) kept).own
    refine books.accepts (gains.before ⟨rfl, rfl⟩) stored (fun before known => ?_) ⟨nonneg, fun none_ => ?_,
      fun before known stale => ?_, fun before known off => ?_, fun before known far => ?_,
      fun before known _ => ?_⟩ (Followed.appends upTo ?_ rfl rfl fun start opened => ?_)
    · rw [earlier before known, at_]
      exact newer
    · rw [none_] at found
      cases found
    · rw [earlier before known, at_] at stale
      exact absurd newer (not_lt.mpr stale)
    · rw [earlier before known, was] at off
      exact offline off
    · rw [earlier before known, at_] at far
      exact late far
    · rw [earlier before known, at_]
      exact bounded
    · refine span_append followed.span (fun none_ => ?_) fun before known => ?_
      · rw [none_] at found
        cases found
      · rw [earlier before known, at_]
        exact bounded.trans (min_le_left _ _)
    · rcases advance_cases advanced with
        ⟨rfl, -, -, started, longer, -⟩ | ⟨still, started, nothing, -⟩
      · -- the session goes on
        have same : row.sessionStartedAt = some start := started.symm.trans opened
        obtain ⟨past, shown, within⟩ := followed.session row rfl start same
        have longer : (nextCheckpoint account observed true current step hours).sessionActiveSeconds =
            row.sessionActiveSeconds + step.activeSeconds := longer
        rw [Followed.same_session (past.trans_lt newer), longer, shown]
        rw [shown] at within
        refine ⟨past.trans newer.le, rfl, ?_⟩
        change _ ≤ observed - start
        omega
      · -- a session starts, or there is none
        have new : start = observed ∧
            (nextCheckpoint account observed online current step hours).sessionActiveSeconds = 0 := by
          cases online <;> simp_all [nextCheckpoint]
        have unspent := @Followed.new_session F (accepted answers) ⟨observed, online, current, step.activeSeconds⟩ upTo
        rw [new.2, new.1]
        exact ⟨le_refl observed, (congrArg total unspent).symm, (Int.sub_self observed).ge⟩

/-- What is answered for another account leaves the books alone. -/
theorem Books.others (enabled : policy.enabled = true)
    {own : Int} (apart : own ≠ account) {online : Bool} {observed seconds : Int} {current : Location F}
    (step : rt.Answered policy own online observed current db seconds other) :
    Books policy account other answers := by
  have other_ : account ≠ own := fun same => apart same.symm
  cases step with
  | first absent =>
    have kept := appendEngagement_moves db ⟨own, observed, online, current, none,
      if online then some observed else none, 0, 0⟩ absent
    exact books.frame ⟨rfl, rfl⟩ ⟨books.keyed.days, books.keyed.weeks⟩
      (congrArg Record.checkpoint (kept.apart account other_))
  | replay row present stale => exact books
  | later row step hours recorded present newer advanced gains kept rest =>
    have gains := gains books.keyed enabled
    have stored := setEngagement_moves recorded (nextCheckpoint own observed online current step hours) kept
    have checkpoint : (recorded.setEngagement (nextCheckpoint own observed online current step
        hours)).engagement? account = db.engagement? account :=
      (congrArg Record.checkpoint (stored.apart account other_)).trans (rest account other_)
    refine ⟨⟨gains.keyed.days, gains.keyed.weeks⟩, ?_, ?_, books.kept, checkpoint ▸ books.followed, books.calls⟩
    · rw [← books.days]
      exact (gains.days account).trans (by rw [if_neg apart, Int.add_zero])
    · rw [← books.weeks]
      exact (gains.weeks account).trans (by rw [if_neg apart, Int.add_zero])

end

theorem observe_answered (read : rt.engagementConfig (.object [("engagementRewards", rt.orElse config (.dict []))]) =
      .ok policy) (account : Int) (observation : Observation F) :
    (rt.observe config db observation = db ∧ rt.answer config account db observation = none) ∨
      ∃ own online observed current seconds opened, SameEngagement db opened ∧
        rt.Answered policy own online observed current opened seconds (rt.observe config db observation) ∧
        rt.answer config account db observation =
          if own = account then some ⟨observed, online, current, seconds⟩ else none := by
  unfold observe Transaction.commit answer
  cases called : rt.observeEngagement observation.duneAccountId observation.online
      observation.observedEpoch observation.location config ⟨db, observation.supply⟩ with
  | error why =>
    refine .inl ⟨rfl, ?_⟩
    cases rt.accountId observation.duneAccountId <;> cases rt.int observation.observedEpoch <;>
      cases rt.seenAt config observation <;> rfl
  | ok result =>
    obtain ⟨value, after⟩ := result
    simp only [observeEngagement, lift_bind] at called
    obtain ⟨parsed, reread, observed, seen, current, located, recorded⟩ := called
    cases Except.ok.inj (reread.symm.trans read)
    obtain ⟨own, opened, known, same, step⟩ := rt.recordObservation_answered policy recorded
    have there : rt.seenAt config observation = .ok current := by
      simp only [seenAt, result_bind]
      exact ⟨policy, read, located⟩
    refine .inr ⟨own, rt.truthy observation.online, observed, current, activeSeconds value, opened, same, step, ?_⟩
    simp [known, seen, there]

section

variable (books : Books policy account db answers)
  (read : rt.engagementConfig (.object [("engagementRewards", rt.orElse config (.dict []))]) = .ok policy)
  (enabled : policy.enabled = true)
include books read enabled

/-- One call keeps the books, whatever account it is for and whether or not it raises. -/
theorem Books.called (observation : Observation F) : Books policy account (rt.observe config db observation)
      (answers ++ (rt.answer config account db observation).toList) := by
  rcases observe_answered read account observation with
    ⟨unchanged, unanswered⟩ | ⟨own, online, observed, current, seconds, opened, same, step, answered⟩
  · rw [unchanged, unanswered, Option.toList_none, append_nil]
    exact books
  · have totals : SameTotals db opened := ⟨same.days, same.weeks⟩
    have framed : Books policy account opened answers :=
      books.frame totals (totals.keyed books.keyed) (congrArg Record.checkpoint (same.record account))
    rw [answered]
    by_cases mine : own = account
    · subst mine
      rw [if_pos rfl]
      exact framed.answered enabled (rt.engagementConfig_gap policy read) step
    · rw [if_neg mine, Option.toList_none, append_nil]
      exact framed.others enabled mine step

theorem Books.run (observations : List (Observation F)) : Books policy account (rt.observeAll config db observations)
      (answers ++ rt.answers config account db observations) := by
  induction observations generalizing db answers with
  | nil => exact (append_nil answers).symm ▸ books
  | cons observation rest ih =>
    rw [Platform.answers, ← append_assoc]
    exact ih (books.called read enabled observation)

end

/-- Under an enabled policy the seconds the calls return are the ones the days, the weeks and
the sessions of the account hold. -/
theorem engagement_accounted
    (read : rt.engagementConfig (.object [("engagementRewards", rt.orElse config (.dict []))]) =
      .ok policy) (enabled : policy.enabled = true) (keyed : db.Keyed) (unseen : Unseen db account)
    (observations : List (Observation F)) :
    Accounted policy account (rt.observeAll config db observations) (rt.answers config account db observations) := by
  have books := (Books.begin_ keyed unseen).run read enabled observations
  rw [nil_append] at books
  refine ⟨books.days, books.weeks, books.calls, ?_, books.followed.last, fun row there start opened => ?_⟩
  · rw [← books.kept]
    exact books.followed.span
  · exact (books.followed.session row there start opened).2

end Platform

theorem empty_keyed : (Db.empty F).Keyed := ⟨nodup_nil, nodup_nil⟩

theorem empty_unseen (account : Int) : Platform.Unseen (Db.empty F) account :=
  ⟨rfl, fun _ member => absurd member not_mem_nil, fun _ member => absurd member not_mem_nil⟩

theorem engagement_accounted_map_change : ∃ policy, plain.engagementConfig
        (.object [("engagementRewards", plain.orElse creditPolicy (.dict []))]) = .ok policy ∧
      Platform.Accounted policy 7 (plain.observeAll creditPolicy (.empty FloatText) mapChange)
        (plain.answers creditPolicy 7 (.empty FloatText) mapChange) := by
  obtain ⟨policy, read, enabled⟩ := @config_reads Bool
    (.object [("engagementRewards", plain.orElse creditPolicy (.dict []))]) true EngagementPolicy.enabled (by decide)
  exact ⟨policy, read, Platform.engagement_accounted read enabled empty_keyed (empty_unseen 7) mapChange⟩

end Dash.Community
