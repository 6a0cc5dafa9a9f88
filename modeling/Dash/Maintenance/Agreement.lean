import Dash.Maintenance.Jobs
import Mathlib.Data.List.Nodup

/-! What the job tables keep: one restart at a time, ended restarts stay ended, and a countdown stands
for a restart that is still to come.

The first two hold in every run. The third needs every restart that takes another's place to bring
a countdown of its own, where that other had one.
-/

set_option autoImplicit false
set_option linter.unusedSectionVars false

namespace Dash.Maintenance

open Python List

variable {T : Type}

def Exclusive (board : Board T) : Prop := (board.restarts.filter Restart.active).length ≤ 1

def Linked (board : Board T) : Prop :=
  ∀ job ∈ board.announcements, job.active = true → ∀ id, job.restartJobId = some id →
    ∃ restart ∈ board.restarts, restart.id = id ∧ restart.active = true

def Settled (before after : Board T) : Prop :=
  ∀ job ∈ before.restarts, job.active = false →
    job ∈ after.restarts ∧ (∀ other ∈ after.restarts, other.id = job.id → other = job) ∧
      ∃ executed, after.executions = before.executions ++ executed ∧ job.id ∉ executed

def Call.readings : Call T → List T
  | .scheduleRestart _ _ _ now announcedAt => [now, announcedAt]
  | .cancelRestart _ now => [now]
  | .scheduleAnnouncement _ _ now => [now]
  | .cancelAnnouncement _ now => [now]
  | .mark now => [now]
  | .deliver _ readings => [readings.sent, readings.interval, readings.checked, readings.stamped]
  | .setStatus _ now => [now]
  | .finish _ now => [now]

section Conditions

variable [LinearOrder T]

def Timed (calls : List (Call T)) : Prop := (calls.flatMap Call.readings).Pairwise (· ≤ ·)

/-- A token that is drawn for a restart has no spaces around it and was not drawn before. -/
def Fresh (board : Board T) : Call T → Prop
  | .scheduleRestart _ id _ _ _ => strip id = id ∧ id ∉ board.restarts.map Restart.id
  | _ => True

def Places (settings : JobSettings T) (request : RestartRequest T) (id : String) (now : T)
    (board : Board T) (job : Restart T) : Prop :=
  ∃ policy, checkRestart settings request = .ok policy ∧ dailyJob (dailyKey request) board = none ∧
    restartOf settings request policy id now = .ok job ∧
    board.restarts.find? Restart.inFlight = none

/-- A restart that takes the place of an announced one is announced itself, and an announcement made
for a restart is made for a scheduled one, and not for a later time. -/
def Careful (settings : JobSettings T) (board : Board T) : Call T → Prop
  | .scheduleRestart request id announcementId now announcedAt =>
    (∃ job ∈ board.announcements, job.active = true ∧ job.restartJobId.isSome = true) →
      ∀ job, Places settings request id now board job → announces request = true ∧
        ∃ announced, announcementOf settings (countdown settings request job now) announcementId
          announcedAt = .ok announced
  | .scheduleAnnouncement request id now =>
    ∀ job, announcementOf settings request id now = .ok job → ∀ wanted, job.restartJobId = some wanted →
      ∃ restart ∈ board.restarts, restart.id = wanted ∧ restart.status = .scheduled ∧ job.restartAt ≤ restart.runAt
  | _ => True

end Conditions

def Moved (before after : Board T) : Prop :=
  ∃ change added, after.restarts = before.restarts.map change ++ added ∧ (∀ job, (change job).id = job.id) ∧
    (∀ job ∈ before.restarts, job.active = false → change job = job) ∧
    ∃ executed, after.executions = before.executions ++ executed ∧
      ∀ id ∈ executed, ∃ job ∈ before.restarts, job.id = id ∧ job.active = true

variable {before after : Board T}

theorem Moved.of_same (restarts : after.restarts = before.restarts)
    (executions : after.executions = before.executions) : Moved before after :=
  ⟨id, [], by simp [restarts], fun _ => rfl, fun _ _ _ => rfl, [], by simp [executions], fun _ member => nomatch member⟩

theorem Moved.of_change {change : Restart T → Restart T} (restarts : after.restarts = before.restarts.map change)
    (executions : after.executions = before.executions) (ids : ∀ job, (change job).id = job.id)
    (ended : ∀ job ∈ before.restarts, job.active = false → change job = job) : Moved before after :=
  ⟨change, [], by simp [restarts], ids, ended, [], by simp [executions], fun _ member => nomatch member⟩

structure Queued (board : Board T) : Prop where
  distinct : (board.restarts.map Restart.id).Nodup
  exclusive : Exclusive board
  due : ∀ due ∈ board.dueRestarts, ∃ job ∈ board.restarts, job.id = due.id ∧ job.inFlight = true
  single : board.dueRestarts.length ≤ 1

theorem inFlight_active {job : Restart T} (busy : job.inFlight = true) : job.active = true := by
  simp only [Restart.inFlight, Restart.active, Bool.or_eq_true] at *
  exact busy.elim (fun is => .inl (.inr is)) .inr

theorem exclusive_map {rows : List (Restart T)} {change : Restart T → Restart T}
    (fewer : ∀ job ∈ rows, (change job).active = true → job.active = true) :
    ((rows.map change).filter Restart.active).length ≤ (rows.filter Restart.active).length := by
  rw [← countP_eq_length_filter, ← countP_eq_length_filter, countP_map]
  exact countP_mono_left fewer

theorem ids_map {rows : List (Restart T)} {change : Restart T → Restart T} (ids : ∀ job, (change job).id = job.id) :
    (rows.map change).map Restart.id = rows.map Restart.id := by
  rw [map_map]
  exact map_congr_left fun job _ => ids job

theorem Queued.map (queued : Queued before)
    {change : Restart T → Restart T} (restarts : after.restarts = before.restarts.map change)
    (ids : ∀ job, (change job).id = job.id)
    (fewer : ∀ job ∈ before.restarts, (change job).active = true → job.active = true)
    (due : ∀ due ∈ after.dueRestarts, ∃ job ∈ before.restarts, (change job).id = due.id ∧ (change job).inFlight = true)
    (single : after.dueRestarts.length ≤ 1) : Queued after := by
  refine ⟨?_, ?_, ?_, single⟩
  · rw [restarts, ids_map ids]
    exact queued.distinct
  · rw [Exclusive, restarts]
    exact (exclusive_map fewer).trans queued.exclusive
  · intro copy member
    obtain ⟨job, present, same, busy⟩ := due copy member
    exact ⟨change job, restarts ▸ mem_map_of_mem present, same, busy⟩

theorem Queued.of_same (queued : Queued before)
    (restarts : after.restarts = before.restarts) (due : after.dueRestarts = before.dueRestarts) :
    Queued after := by
  refine ⟨restarts ▸ queued.distinct, ?_, ?_, due ▸ queued.single⟩
  · rw [Exclusive, restarts]
    exact queued.exclusive
  · rw [restarts, due]
    exact queued.due

theorem placed_exclusive {board : Board T} (idle : board.restarts.find? Restart.inFlight = none) (job : Restart T)
    (scheduled : job.status = .scheduled) :
    (board.restarts.map supersedeRestart ++ [job]).filter Restart.active = [job] := by
  have ended : (board.restarts.map supersedeRestart).filter Restart.active = [] := by
    rw [filter_eq_nil_iff]
    intro row member active
    obtain ⟨before, present, rfl⟩ := mem_map.mp member
    have busy := List.find?_eq_none.mp idle before present
    unfold supersedeRestart at active
    split at active
    · cases active
    · rename_i other
      simp only [Restart.active, Restart.inFlight, Bool.or_eq_true, decide_eq_true_eq] at active busy
      exact busy (active.elim (fun is => is.elim (fun is => absurd is other) .inl) .inr)
  rw [filter_append, ended, nil_append, filter_cons_of_pos, filter_nil]
  simp [Restart.active, scheduled]

theorem Queued.place {board : Board T} (queued : Queued board)
    {job : Restart T} (idle : board.restarts.find? Restart.inFlight = none) (scheduled : job.status = .scheduled)
    (fresh : job.id ∉ board.restarts.map Restart.id) :
    Queued { board with restarts := board.restarts.map supersedeRestart ++ [job] } ∧
      Moved board { board with restarts := board.restarts.map supersedeRestart ++ [job] } := by
  have ids : ∀ row : Restart T, (supersedeRestart row).id = row.id := by
    intro row
    unfold supersedeRestart
    split <;> rfl
  have none : board.dueRestarts = [] := by
    rw [eq_nil_iff_forall_not_mem]
    intro due member
    obtain ⟨row, present, -, busy⟩ := queued.due due member
    exact List.find?_eq_none.mp idle row present busy
  refine ⟨⟨?_, ?_, ?_, queued.single⟩, supersedeRestart, [job], rfl, ids, ?_, [], by simp,
    fun _ member => nomatch member⟩
  · rw [map_append, ids_map ids]
    refine queued.distinct.append (nodup_singleton _) fun other member last => fresh ?_
    rwa [mem_singleton.mp last] at member
  · rw [Exclusive, placed_exclusive idle job scheduled]
    exact Nat.le_refl 1
  · intro due member
    rw [none] at member
    cases member
  · intro row _ ended
    unfold supersedeRestart
    split
    · rename_i pending
      simp [Restart.active, pending] at ended
    · rfl

section Operations

variable [LinearOrder T] {settings : JobSettings T} {board : Board T}

variable {job : Announcement T} {now : T} {id : String}

theorem announcementOf_ok {request : AnnouncementRequest T} (made : announcementOf settings request id now = .ok job) :
    job.active = true ∧ job.nextSendAt ≤ job.restartAt ∧
      (∀ runAt, request.restartAt = some runAt → job.restartAt = runAt) ∧
      job.restartJobId =
        if strip request.restartJobId = "" then none else some (strip request.restartJobId) := by
  simp only [announcementOf, bind, Except.bind, pure, Except.pure, throw, throwThe, MonadExceptOf.throw] at made
  repeat' split at made
  all_goals cases made
  all_goals exact ⟨rfl, min_le_right _ _, fun runAt same => by simp [same], by simp [*]⟩

variable {request : RestartRequest T}

theorem restartOf_ok {policy id : String} {job : Restart T}
    (made : restartOf settings request policy id now = .ok job) :
    job.id = id ∧ job.status = .scheduled := by
  simp only [restartOf, bind, Except.bind, pure, Except.pure] at made
  repeat' split at made
  all_goals cases made
  all_goals exact ⟨rfl, rfl⟩

/-- A request for a restart changes nothing, or places a restart of its own, announced or not. -/
theorem scheduleRestart_cases (settings : JobSettings T) (request : RestartRequest T)
    (id announcementId : String) (now announcedAt : T) (board : Board T) :
    (scheduleRestart settings request id announcementId now announcedAt board).1 = board ∨
    ∃ job, Places settings request id now board job ∧ ((∃ announced, announces request = true ∧
          announcementOf settings (countdown settings request job now) announcementId announcedAt = .ok announced ∧
          (scheduleRestart settings request id announcementId now announcedAt board).1 = placeAnnouncement announced
              { board with restarts := board.restarts.map supersedeRestart ++ [job] }) ∨
        (¬(announces request = true ∧ ∃ announced, announcementOf settings
            (countdown settings request job now) announcementId announcedAt = .ok announced) ∧
          (scheduleRestart settings request id announcementId now announcedAt board).1 =
            { board with restarts := board.restarts.map supersedeRestart ++ [job] })) := by
  unfold scheduleRestart
  cases checked : checkRestart settings request with
  | error error => exact .inl rfl
  | ok policy =>
    cases daily : dailyJob (dailyKey request) board with
    | some existing => exact .inl rfl
    | none =>
      cases made : restartOf settings request policy id now with
      | error error => exact .inl (by simp only [made])
      | ok job =>
        cases busy : board.restarts.find? Restart.inFlight with
        | some other => exact .inl (by simp [made, placeRestart, busy])
        | none =>
          refine .inr ⟨job, ⟨policy, checked, daily, made, busy⟩, ?_⟩
          simp only [made, placeRestart, busy]
          cases wanted : announces request with
          | false => exact .inr ⟨fun both => (nomatch both.1), rfl⟩
          | true =>
            simp only [if_true, scheduleAnnouncement]
            cases announced : announcementOf settings (countdown settings request job now)
              announcementId announcedAt with
            | error error => exact .inr ⟨fun both => (nomatch both.2.choose_spec), rfl⟩
            | ok announcement => exact .inl ⟨announcement, trivial, rfl, rfl⟩

theorem cancelRestart_cases (wanted : Option String) (now : T) (board : Board T) :
    (cancelRestart wanted now board).1 = board ∨
    ∃ cancels : Restart T → Bool, (∀ job, cancels job = true → job.status = .scheduled) ∧
      (cancelRestart wanted now board).1 = cancelMatching (fun job => job.restartJobId.any fun id =>
            id ∈ (board.restarts.filter cancels).map Restart.id) now
          { board with restarts := board.restarts.map fun job =>
              if cancels job then { job with status := .cancelled, cancelledAt := some now }
              else job } := by
  unfold cancelRestart
  split
  · exact .inl rfl
  · refine .inr ⟨fun job => named wanted job.id && decide (job.status = .scheduled), ?_, rfl⟩
    intro job both
    exact of_decide_eq_true (Bool.and_eq_true_iff.mp both).2

variable {rest : List (Restart T)} {due : Restart T}

theorem Queued.head (queued : Queued board) (copies : board.dueRestarts = due :: rest) :
    rest = [] ∧ ∃ job ∈ board.restarts, job.id = due.id ∧ job.inFlight = true ∧
      ∀ other ∈ board.restarts, other.id = due.id → other = job := by
  have single := queued.single
  rw [copies] at single
  obtain ⟨job, member, same, busy⟩ := queued.due due (copies ▸ mem_cons_self)
  refine ⟨eq_nil_of_length_eq_zero (by simpa using single), job, member, same, busy, ?_⟩
  intro other present named
  exact inj_on_of_nodup_map queued.distinct present member (named.trans same.symm)

theorem Queued.cancelRestart (queued : Queued board) (wanted : Option String) (now : T) :
    Queued (cancelRestart wanted now board).1 ∧ Moved board (cancelRestart wanted now board).1 := by
  rcases cancelRestart_cases wanted now board with same | ⟨cancels, scheduled, same⟩
  · rw [same]
    exact ⟨queued, .of_same rfl rfl⟩
  · rw [same]
    have spared : ∀ job : Restart T, job.status ≠ .scheduled →
        (if cancels job then { job with status := .cancelled, cancelledAt := some now } else job)
          = job := by
      intro job other
      rw [if_neg fun cancelled => other (scheduled job cancelled)]
    refine ⟨queued.map rfl (fun job => ?_) (fun job _ active => ?_) (fun due member => ?_)
      queued.single, .of_change rfl rfl (fun job => ?_) fun job _ ended => ?_⟩
    · split <;> rfl
    · split at active
      · cases active
      · exact active
    · obtain ⟨job, present, named, busy⟩ := queued.due due member
      have other : job.status ≠ .scheduled := by
        intro is
        simp [Restart.inFlight, is] at busy
      exact ⟨job, present, by rw [spared job other]; exact named, by rw [spared job other]; exact busy⟩
    · split <;> rfl
    · refine spared job fun is => ?_
      simp [Restart.active, is] at ended

theorem dueRestart_active {job : Restart T} (due : dueRestart now job = true) : job.active = true := by
  simp only [dueRestart, Bool.and_eq_true] at due
  exact due.1.1

theorem markRestart_id (now : T) (job : Restart T) : (markRestart now job).id = job.id := by
  unfold markRestart
  split <;> rfl

theorem Queued.mark (queued : Queued board) (now : T) : Queued (mark now board) ∧ Moved board (mark now board) := by
  unfold Maintenance.mark
  split
  · refine ⟨queued.map rfl (markRestart_id now) (fun job _ active => ?_) (fun due member => ?_) ?_,
      .of_change rfl rfl (markRestart_id now) fun job _ ended => ?_⟩
    · unfold markRestart at active
      split at active
      · rename_i due
        exact dueRestart_active due
      · exact active
    · obtain ⟨job, present, rfl⟩ := mem_map.mp member
      obtain ⟨present, due⟩ := mem_filter.mp present
      refine ⟨job, present, rfl, ?_⟩
      rw [markRestart, if_pos due]
      rfl
    · rw [length_map]
      have fewer : (board.restarts.filter (dueRestart now)).length ≤ (board.restarts.filter Restart.active).length := by
        rw [← countP_eq_length_filter, ← countP_eq_length_filter]
        exact countP_mono_left fun job _ => dueRestart_active
      exact fewer.trans queued.exclusive
    · rw [markRestart, if_neg fun due => by rw [dueRestart_active due] at ended; cases ended]
  · exact ⟨queued, .of_same rfl rfl⟩

theorem Queued.setStatus (queued : Queued board) (awaiting : Bool) (now : T) :
    Queued (setStatus awaiting now board) ∧ Moved board (setStatus awaiting now board) := by
  unfold Maintenance.setStatus
  split
  · rename_i due rest _ copies
    obtain ⟨-, row, present, same, busy, only⟩ := queued.head copies
    have marked : ∀ job : Restart T, job.id = due.id → ∀ awaiting : Bool, (if job.id = due.id then
        if awaiting then { job with status := .awaitingReboot, rebootRequestedAt := some now }
        else { job with status := .executing } else job).inFlight = true := by
      intro job named awaiting
      rw [if_pos named]
      cases awaiting <;> rfl
    refine ⟨queued.map rfl (fun job => ?_) (fun job member active => ?_) (fun copy member => ?_)
      queued.single, .of_change rfl rfl (fun job => ?_) fun job member ended => ?_⟩
    · split
      · split <;> rfl
      · rfl
    · by_cases named : job.id = due.id
      · rw [only job member named]
        exact inFlight_active busy
      · rwa [if_neg named] at active
    · obtain ⟨job, member, named, inFlight⟩ := queued.due copy member
      refine ⟨job, member, ?_, ?_⟩
      · rw [← named]
        split
        · split <;> rfl
        · rfl
      · by_cases named : job.id = due.id
        · exact marked job named awaiting
        · rwa [if_neg named]
    · split
      · split <;> rfl
      · rfl
    · rw [if_neg]
      intro named
      rw [only job member named, inFlight_active busy] at ended
      cases ended
  · exact ⟨queued, .of_same rfl rfl⟩

def concluded (settings : JobSettings T) (result : Execution) (id : String) (now : T)
    (job : Restart T) : Restart T :=
  if result.operationDeferred then
    if job.id = id && decide (job.status = .executing) then { job with
      status := .scheduled
      runAt := settings.add now (max 30 (min (if result.retrySeconds = 0 then
        settings.operationRetrySeconds else result.retrySeconds) 3600))
      operationDeferrals := job.operationDeferrals + 1
      lastDeferredAt := some now
      lastError := none }
    else job
  else if job.id = id && job.inFlight && !(job.status = .awaitingReboot && result.deferred) then
    { job with
      executedAt := some now
      status := if result.ok then .executed else .failed
      lastError := Delivery.lastError ⟨result.ok, result.error, result.output⟩ }
  else job

theorem concluded_id (settings : JobSettings T) (result : Execution) (id : String) (now : T)
    (job : Restart T) : (concluded settings result id now job).id = job.id := by
  unfold concluded
  split <;> split <;> rfl

variable {result : Execution}

theorem concluded_other {job : Restart T}
    (other : job.id ≠ id ∨ job.inFlight = false) : concluded settings result id now job = job := by
  unfold concluded
  split
  · rw [if_neg]
    simp only [Bool.and_eq_true, decide_eq_true_eq]
    rintro ⟨named, executing⟩
    rcases other with other | idle
    · exact other named
    · simp [Restart.inFlight, executing] at idle
  · rw [if_neg]
    simp only [Bool.and_eq_true, decide_eq_true_eq]
    rintro ⟨⟨named, busy⟩, -⟩
    rcases other with other | idle
    · exact other named
    · rw [busy] at idle
      cases idle

theorem finish_eq (sent : board.dueJobs = []) (copies : board.dueRestarts = due :: rest) :
    finish settings result now board = { board with
      dueRestarts := rest
      executions := board.executions ++ [due.id]
      restarts := board.restarts.map (concluded settings result due.id now) } := by
  have rows : (if result.operationDeferred = true then
      deferRestartOperation settings result due.id now board.restarts
      else recordExecution result due.id now board.restarts) =
      board.restarts.map (concluded settings result due.id now) := by
    cases deferred : result.operationDeferred with
    | true =>
      refine map_congr_left fun job _ => ?_
      rw [concluded, if_pos deferred]
    | false =>
      refine map_congr_left fun job _ => ?_
      rw [concluded, deferred, if_neg Bool.false_ne_true]
  unfold finish
  rw [sent, copies]
  simp only [rows]

theorem finish_idle (idle : board.dueJobs ≠ [] ∨ board.dueRestarts = []) :
    finish settings result now board = board := by
  unfold finish
  split
  · rename_i sent copies
    rcases idle with pending | none
    · exact absurd sent pending
    · rw [none] at copies
      cases copies
  · rfl

theorem Queued.finish (queued : Queued board) (result : Execution) (now : T) :
    Queued (finish settings result now board) ∧ Moved board (finish settings result now board) := by
  by_cases idle : board.dueJobs ≠ [] ∨ board.dueRestarts = []
  · rw [finish_idle idle]
    exact ⟨queued, .of_same rfl rfl⟩
  · rw [not_or, not_not] at idle
    obtain ⟨due, rest, copies⟩ := exists_cons_of_ne_nil idle.2
    rw [finish_eq idle.1 copies]
    obtain ⟨rfl, row, present, same, busy, only⟩ := queued.head copies
    refine ⟨queued.map rfl (concluded_id settings result due.id now) (fun job member active => ?_)
      (fun _ member => nomatch member) (Nat.zero_le 1), concluded settings result due.id now, [],
      by simp, concluded_id settings result due.id now, fun job member ended => concluded_other ?_,
      [due.id], rfl, ?_⟩
    · by_cases named : job.id = due.id
      · rw [only job member named]
        exact inFlight_active busy
      · rwa [concluded_other (.inl named)] at active
    · refine .inr (Bool.eq_false_iff.mpr fun inFlight => ?_)
      rw [inFlight_active inFlight] at ended
      cases ended
    · intro id member
      rw [mem_singleton.mp member]
      exact ⟨row, present, same, inFlight_active busy⟩

theorem Queued.perform (queued : Queued board) {call : Call T} (fresh : Fresh board call) :
    Queued (perform settings board call) ∧ Moved board (perform settings board call) := by
  cases call with
  | scheduleRestart request id announcementId now announcedAt =>
    simp only [Maintenance.perform]
    rcases scheduleRestart_cases settings request id announcementId now announcedAt board with
      same | ⟨job, ⟨policy, -, -, made, idle⟩, placed⟩
    · rw [same]
      exact ⟨queued, .of_same rfl rfl⟩
    · obtain ⟨named, scheduled⟩ := restartOf_ok made
      obtain ⟨ready, moved⟩ := queued.place idle scheduled (named ▸ fresh.2)
      rcases placed with ⟨announced, -, -, same⟩ | ⟨-, same⟩
      · rw [same]
        exact ⟨ready.of_same rfl rfl, moved⟩
      · rw [same]
        exact ⟨ready, moved⟩
  | cancelRestart wanted now => exact queued.cancelRestart wanted now
  | scheduleAnnouncement request id now =>
    simp only [Maintenance.perform, scheduleAnnouncement]
    split
    · exact ⟨queued, .of_same rfl rfl⟩
    · exact ⟨queued.of_same rfl rfl, .of_same rfl rfl⟩
  | cancelAnnouncement wanted now => exact ⟨queued.of_same rfl rfl, .of_same rfl rfl⟩
  | mark now => exact queued.mark now
  | deliver result readings =>
    simp only [Maintenance.perform, deliver]
    split
    · exact ⟨queued, .of_same rfl rfl⟩
    · exact ⟨queued.of_same rfl rfl, .of_same rfl rfl⟩
  | setStatus awaiting now => exact queued.setStatus awaiting now
  | finish result now => exact queued.finish result now

/-- A countdown's restart is still to be marked, and not before the countdown has run out; or it has
been marked, the countdown has run out, and its last delivery is among the worker's copies. -/
def Awaits (past : List T) (dueJobs : List (Announcement T)) (job : Announcement T) (restart : Restart T) : Prop :=
  restart.status = .scheduled ∧ job.restartAt ≤ restart.runAt ∨
  restart.inFlight = true ∧ job.id ∈ dueJobs.map Announcement.id ∧ ∃ reading ∈ past, job.restartAt ≤ reading

structure Tied (past : List T) (board : Board T) : Prop where
  sends : ∀ job ∈ board.announcements, job.nextSendAt ≤ job.restartAt
  linked : ∀ job ∈ board.announcements, job.active = true → ∀ id, job.restartJobId = some id →
    ∃ restart ∈ board.restarts, restart.id = id ∧ Awaits past board.dueJobs job restart

variable {past : List T}

theorem Tied.agree (tied : Tied past board) : Linked board := by
  intro job member active id linked
  obtain ⟨restart, present, named, awaits⟩ := tied.linked job member active id linked
  refine ⟨restart, present, named, ?_⟩
  rcases awaits with ⟨scheduled, -⟩ | ⟨busy, -⟩
  · simp [Restart.active, scheduled]
  · exact inFlight_active busy

theorem Awaits.mono (more : List T) {dueJobs : List (Announcement T)}
    {restart : Restart T} (awaits : Awaits past dueJobs job restart) :
    Awaits (past ++ more) dueJobs job restart := by
  refine awaits.imp_right ?_
  rintro ⟨busy, copied, reading, member, reached⟩
  exact ⟨busy, copied, reading, mem_append_left _ member, reached⟩

theorem Tied.mono (tied : Tied past board) (more : List T) : Tied (past ++ more) board := by
  refine ⟨tied.sends, fun job member active id linked => ?_⟩
  obtain ⟨restart, present, named, awaits⟩ := tied.linked job member active id linked
  exact ⟨restart, present, named, awaits.mono more⟩

theorem Tied.pending (tied : Tied past board) (sent : board.dueJobs = [])
    (member : job ∈ board.announcements) (active : job.active = true)
    (linked : job.restartJobId = some id) :
    ∃ restart ∈ board.restarts, restart.id = id ∧ restart.status = .scheduled ∧ job.restartAt ≤ restart.runAt := by
  obtain ⟨restart, present, named, ⟨scheduled, later⟩ | ⟨-, copied, -⟩⟩ :=
    tied.linked job member active id linked
  · exact ⟨restart, present, named, scheduled, later⟩
  · rw [sent] at copied
    cases copied

theorem supersede_ended (job : Announcement T) : (supersedeAnnouncement job).active = false := by
  unfold supersedeAnnouncement
  split
  · rfl
  · exact Bool.eq_false_iff.mpr ‹_›

theorem supersede_sends (sends : job.nextSendAt ≤ job.restartAt) :
    (supersedeAnnouncement job).nextSendAt ≤ (supersedeAnnouncement job).restartAt := by
  unfold supersedeAnnouncement
  split <;> exact sends

theorem Tied.announce (board : Board T)
    (sends : ∀ job ∈ board.announcements, job.nextSendAt ≤ job.restartAt) {announced : Announcement T}
    (ahead : announced.nextSendAt ≤ announced.restartAt)
    (linked : ∀ id, announced.restartJobId = some id → ∃ restart ∈ board.restarts,
      restart.id = id ∧ restart.status = .scheduled ∧ announced.restartAt ≤ restart.runAt) :
    Tied past (placeAnnouncement announced board) := by
  refine ⟨fun job member => ?_, fun job member active id wanted => ?_⟩
  · rcases mem_append.mp member with member | member
    · obtain ⟨before, present, rfl⟩ := mem_map.mp member
      exact supersede_sends (sends before present)
    · rw [mem_singleton.mp member]
      exact ahead
  · rcases mem_append.mp member with member | member
    · obtain ⟨before, -, rfl⟩ := mem_map.mp member
      rw [supersede_ended] at active
      cases active
    · rw [mem_singleton.mp member] at wanted ⊢
      obtain ⟨restart, present, named, scheduled, later⟩ := linked id wanted
      exact ⟨restart, present, named, .inl ⟨scheduled, later⟩⟩

theorem cancelMatching_active {condition : Announcement T → Bool}
    (member : job ∈ (cancelMatching condition now board).announcements) (active : job.active = true) :
    job ∈ board.announcements ∧ condition job = false := by
  obtain ⟨before, present, rfl⟩ := mem_map.mp member
  by_cases both : (before.active && condition before) = true
  · rw [if_pos both] at active
    cases active
  · rw [if_neg both] at active ⊢
    rw [active, Bool.true_and] at both
    exact ⟨present, Bool.eq_false_iff.mpr both⟩

theorem cancelMatching_sends {condition : Announcement T → Bool}
    (sends : ∀ job ∈ board.announcements, job.nextSendAt ≤ job.restartAt) :
    ∀ job ∈ (cancelMatching condition now board).announcements, job.nextSendAt ≤ job.restartAt := by
  intro job member
  obtain ⟨before, present, rfl⟩ := mem_map.mp member
  split <;> exact sends before present

theorem Tied.cancelRestart (tied : Tied past board) (wanted : Option String)
    (now : T) : Tied past (cancelRestart wanted now board).1 := by
  rcases cancelRestart_cases wanted now board with same | ⟨cancels, -, same⟩
  · rw [same]
    exact tied
  · rw [same]
    refine ⟨cancelMatching_sends tied.sends, fun job member active id linked => ?_⟩
    obtain ⟨present, kept⟩ := cancelMatching_active member active
    obtain ⟨restart, there, named, awaits⟩ := tied.linked job present active id linked
    refine ⟨restart, mem_map.mpr ⟨restart, there, if_neg fun cancelled => ?_⟩, named, awaits⟩
    rw [linked, Option.any_some, decide_eq_false_iff_not] at kept
    exact kept (named ▸ mem_map_of_mem (mem_filter.mpr ⟨there, cancelled⟩))

theorem markAnnouncement_active (active : (markAnnouncement now job).active = true) :
    job.active = true ∧ expires now job = false := by
  unfold markAnnouncement at active
  split at active
  · rename_i ended
    rw [Bool.not_eq_true'] at ended
    rw [ended] at active
    cases active
  · rename_i alive
    split at active
    · cases active
    · exact ⟨by simpa using alive, Bool.eq_false_iff.mpr ‹_›⟩

theorem markAnnouncement_fields (now : T) (job : Announcement T) :
    (markAnnouncement now job).id = job.id ∧ (markAnnouncement now job).restartAt = job.restartAt ∧
      (markAnnouncement now job).nextSendAt = job.nextSendAt ∧
      (markAnnouncement now job).restartJobId = job.restartJobId := by
  unfold markAnnouncement
  split
  · exact ⟨rfl, rfl, rfl, rfl⟩
  · split
    · exact ⟨rfl, rfl, rfl, rfl⟩
    · split <;> exact ⟨rfl, rfl, rfl, rfl⟩

/-- A restart that is marked has its countdown marked with it: it ran out no later. -/
theorem Tied.mark (tied : Tied past board) (now : T) : Tied (past ++ [now]) (mark now board) := by
  unfold Maintenance.mark
  split
  · rename_i begins
    refine ⟨fun job member => ?_, fun job member active id linked => ?_⟩
    · obtain ⟨before, present, rfl⟩ := mem_map.mp member
      rw [(markAnnouncement_fields now before).2.1, (markAnnouncement_fields now before).2.2.1]
      exact tied.sends before present
    · obtain ⟨before, present, rfl⟩ := mem_map.mp member
      obtain ⟨alive, unexpired⟩ := markAnnouncement_active active
      rw [(markAnnouncement_fields now before).2.2.2] at linked
      obtain ⟨restart, there, named, scheduled, later⟩ := tied.pending begins.1 present alive linked
      refine ⟨markRestart now restart, mem_map_of_mem there, (markRestart_id now restart).trans named, ?_⟩
      by_cases runs : restart.runAt ≤ now
      · have due : dueRestart now restart = true := by
          simp [dueRestart, Restart.active, scheduled, runs]
        have sends : before.nextSendAt ≤ now := (tied.sends before present).trans (later.trans runs)
        refine .inr ⟨by rw [markRestart, if_pos due]; rfl, ?_, now, by simp, ?_⟩
        · refine mem_map_of_mem (mem_map_of_mem (mem_filter.mpr ⟨present, ?_⟩))
          simp [dueAnnouncement, alive, unexpired, sends]
        · rw [(markAnnouncement_fields now before).2.1]
          exact later.trans runs
      · have undue : markRestart now restart = restart := by
          rw [markRestart, if_neg]
          simp [dueRestart, runs]
        rw [undue]
        exact .inl ⟨scheduled, (markAnnouncement_fields now before).2.1 ▸ later⟩
  · exact tied.mono [now]

theorem delivered_fields (settings : JobSettings T) (result : Delivery) (readings : Readings T) (job : Announcement T) :
    (delivered settings result readings job).id = job.id ∧
      (delivered settings result readings job).restartAt = job.restartAt ∧
      (delivered settings result readings job).restartJobId = job.restartJobId := by
  unfold delivered
  dsimp only
  split_ifs <;> exact ⟨rfl, rfl, rfl⟩

theorem delivered_sends {result : Delivery} {readings : Readings T} (sends : job.nextSendAt ≤ job.restartAt) :
    (delivered settings result readings job).nextSendAt ≤ (delivered settings result readings job).restartAt := by
  unfold delivered
  dsimp only
  split_ifs
  · exact sends
  · exact sends
  · exact sends
  · exact min_le_right _ _

theorem delivered_active {result : Delivery} {readings : Readings T}
    (active : (delivered settings result readings job).active = true) :
    ¬job.restartAt ≤ readings.checked := by
  intro spent
  simp only [delivered, spent, if_true] at active
  cases active

theorem Tied.deliver (tied : Tied past board) (result : Delivery)
    (readings : Readings T) (later : ∀ reading ∈ past, reading ≤ readings.checked) :
    Tied past (deliver settings result readings board) := by
  unfold Maintenance.deliver
  split
  · exact tied
  · rename_i due rest copies
    refine ⟨fun job member => ?_, fun job member active id linked => ?_⟩
    · obtain ⟨before, present, rfl⟩ := mem_map.mp member
      split
      · exact delivered_sends (tied.sends before present)
      · exact tied.sends before present
    · obtain ⟨before, present, rfl⟩ := mem_map.mp member
      by_cases sent : (decide (before.id = due.id) && before.active) = true
      · rw [if_pos sent] at active linked ⊢
        obtain ⟨named, reached, link⟩ := delivered_fields settings result readings before
        obtain ⟨restart, there, same, awaits⟩ :=
          tied.linked before present (Bool.and_eq_true_iff.mp sent).2 id (link ▸ linked)
        refine ⟨restart, there, same, ?_⟩
        rcases awaits with ⟨scheduled, ahead⟩ | ⟨-, -, reading, member, spent⟩
        · exact .inl ⟨scheduled, reached ▸ ahead⟩
        · exact absurd (spent.trans (later reading member)) (delivered_active active)
      · rw [if_neg sent] at active linked ⊢
        obtain ⟨restart, there, same, awaits⟩ := tied.linked before present active id linked
        refine ⟨restart, there, same, awaits.imp_right ?_⟩
        rintro ⟨busy, copied, spent⟩
        rw [copies, map_cons, mem_cons] at copied
        refine ⟨busy, copied.resolve_left fun named => sent ?_, spent⟩
        simp [named, active]

theorem Tied.change (tied : Tied past board) (queued : Queued board) (sent : board.dueJobs = [])
    (copies : board.dueRestarts = due :: rest) {change : Restart T → Restart T}
    (others : ∀ job, job.id ≠ due.id → change job = job) {after : Board T}
    (announcements : after.announcements = board.announcements)
    (restarts : after.restarts = board.restarts.map change) : Tied past after := by
  obtain ⟨-, row, -, -, busy, only⟩ := queued.head copies
  refine ⟨announcements ▸ tied.sends, fun job member active id linked => ?_⟩
  obtain ⟨restart, there, named, scheduled, later⟩ := tied.pending sent (announcements ▸ member) active linked
  refine ⟨restart, restarts ▸ mem_map.mpr ⟨restart, there, others restart fun same => ?_⟩,
    named, .inl ⟨scheduled, later⟩⟩
  rw [← only restart there same] at busy
  simp [Restart.inFlight, scheduled] at busy

theorem countdown_link {job : Restart T} {now announcedAt : T}
    {announced : Announcement T} (plain : strip job.id = job.id)
    (made : announcementOf settings (countdown settings request job now) id announcedAt = .ok announced) :
    announced.nextSendAt ≤ announced.restartAt ∧ announced.restartAt = job.runAt ∧
      ∀ wanted, announced.restartJobId = some wanted → wanted = job.id := by
  obtain ⟨-, sends, runs, link⟩ := announcementOf_ok made
  refine ⟨sends, runs job.runAt rfl, fun wanted linked => ?_⟩
  change announced.restartJobId = if strip job.id = "" then none else some (strip job.id) at link
  rw [link, plain] at linked
  split at linked
  · cases linked
  · exact (Option.some.inj linked).symm

theorem Tied.scheduleRestart (tied : Tied past board) {id announcementId : String} {now announcedAt : T}
    (fresh : Fresh board (.scheduleRestart request id announcementId now announcedAt))
    (careful : Careful settings board (.scheduleRestart request id announcementId now announcedAt)) :
    Tied past (scheduleRestart settings request id announcementId now announcedAt board).1 := by
  rcases scheduleRestart_cases settings request id announcementId now announcedAt board with
    same | ⟨job, places, placed⟩
  · rw [same]
    exact tied
  · have whole := places
    obtain ⟨policy, -, -, restart, -⟩ := whole
    obtain ⟨named, scheduled⟩ := restartOf_ok restart
    rcases placed with ⟨announced, -, made, same⟩ | ⟨silent, same⟩
    · rw [same]
      obtain ⟨sends, runs, link⟩ := countdown_link (named ▸ fresh.1) made
      refine Tied.announce { board with restarts := board.restarts.map supersedeRestart ++ [job] }
        tied.sends sends fun wanted linked => ?_
      exact ⟨job, mem_append_right _ (mem_singleton_self _), (link wanted linked).symm, scheduled, runs ▸ le_refl _⟩
    · -- no countdown of an active restart is left behind, as none was there
      rw [same]
      refine ⟨tied.sends, fun announced member active wanted linked => ?_⟩
      exact absurd (careful ⟨announced, member, active, by rw [linked]; rfl⟩ job places) silent

theorem Tied.perform (tied : Tied past board) (queued : Queued board)
    {call : Call T} (fresh : Fresh board call) (careful : Careful settings board call)
    (later : ∀ reading ∈ past, ∀ next ∈ call.readings, reading ≤ next) :
    Tied (past ++ call.readings) (perform settings board call) := by
  cases call with
  | scheduleRestart request id announcementId now announcedAt =>
    exact (tied.scheduleRestart fresh careful).mono _
  | cancelRestart wanted now => exact (tied.cancelRestart wanted now).mono _
  | scheduleAnnouncement request id now =>
    simp only [Maintenance.perform, Maintenance.scheduleAnnouncement]
    cases made : announcementOf settings request id now with
    | error error => exact tied.mono _
    | ok job =>
      exact Tied.announce board tied.sends (announcementOf_ok made).2.1 fun wanted linked =>
        careful job made wanted linked
  | cancelAnnouncement wanted now =>
    refine Tied.mono ⟨cancelMatching_sends tied.sends, fun job member active id linked => ?_⟩ _
    exact tied.linked job (cancelMatching_active member active).1 active id linked
  | mark now => exact tied.mark now
  | deliver result readings =>
    refine (tied.deliver result readings fun reading member => ?_).mono _
    exact later reading member readings.checked (by simp [Call.readings])
  | setStatus awaiting now =>
    refine Tied.mono ?_ _
    simp only [Maintenance.perform, Maintenance.setStatus]
    split
    · rename_i due rest sent copies
      exact tied.change queued sent copies (fun job other => if_neg other) rfl rfl
    · exact tied
  | finish result now =>
    refine Tied.mono ?_ _
    simp only [Maintenance.perform]
    by_cases idle : board.dueJobs ≠ [] ∨ board.dueRestarts = []
    · rw [finish_idle idle]
      exact tied
    · rw [not_or, not_not] at idle
      obtain ⟨due, rest, copies⟩ := exists_cons_of_ne_nil idle.2
      rw [finish_eq idle.1 copies]
      exact tied.change queued idle.1 copies (fun job other => concluded_other (.inl other)) rfl rfl

theorem run_snoc (settings : JobSettings T) (calls : List (Call T)) (call : Call T) :
    run settings (calls ++ [call]) = perform settings (run settings calls) call := by
  simp [run]

variable {calls : List (Call T)}

theorem queued_run (fresh : ∀ before call, before ++ [call] <+: calls →
    Fresh (run settings before) call) : Queued (run settings calls) := by
  induction calls using List.reverseRecOn with
  | nil => exact ⟨nodup_nil, Nat.zero_le 1, (fun _ member => nomatch member), Nat.zero_le 1⟩
  | append_singleton before call ih =>
    rw [run_snoc]
    exact ((ih fun earlier next inside => fresh earlier next
      (inside.trans (prefix_append _ _))).perform (fresh before call (prefix_refl _))).1

theorem Settled.refl (board : Board T) (queued : Queued board) : Settled board board := by
  intro job member _
  exact ⟨member, fun other present same => inj_on_of_nodup_map queued.distinct present member
    same, [], (append_nil _).symm, not_mem_nil⟩

theorem Settled.next {before after : Board T} (settled : Settled before board)
    (queued : Queued board) (next : Queued after) (moved : Moved board after) :
    Settled before after := by
  obtain ⟨change, added, restarts, -, kept, executed, executions, alive⟩ := moved
  intro job member ended
  obtain ⟨present, -, earlier, logged, absent⟩ := settled job member ended
  have still : job ∈ after.restarts := by
    rw [restarts]
    exact mem_append_left _ (mem_map.mpr ⟨job, present, kept job present ended⟩)
  refine ⟨still, fun other there same => inj_on_of_nodup_map next.distinct there still same,
    earlier ++ executed, by rw [executions, logged, append_assoc], fun again => ?_⟩
  rcases mem_append.mp again with again | again
  · exact absent again
  · obtain ⟨row, there, same, active⟩ := alive job.id again
    rw [inj_on_of_nodup_map queued.distinct there present same, ended] at active
    cases active

theorem settled_run {before : List (Call T)} (inside : before <+: calls)
    (fresh : ∀ before call, before ++ [call] <+: calls → Fresh (run settings before) call) :
    Settled (run settings before) (run settings calls) := by
  obtain ⟨after, rfl⟩ := inside
  induction after using List.reverseRecOn with
  | nil =>
    rw [append_nil] at fresh ⊢
    exact Settled.refl _ (queued_run fresh)
  | append_singleton after call ih =>
    have earlier : ∀ first next, first ++ [next] <+: before ++ after →
        Fresh (run settings first) next := fun first next inside =>
      fresh first next (inside.trans (by rw [← append_assoc]; exact prefix_append _ _))
    have queued := queued_run earlier
    rw [← append_assoc, run_snoc]
    obtain ⟨next, moved⟩ := queued.perform (fresh (before ++ after) call (by simp only [append_assoc, prefix_refl]))
    exact (ih earlier).next queued next moved

theorem tied_run (timed : Timed calls)
    (fresh : ∀ before call, before ++ [call] <+: calls → Fresh (run settings before) call)
    (careful : ∀ before call, before ++ [call] <+: calls → Careful settings (run settings before) call) :
    Tied (calls.flatMap Call.readings) (run settings calls) := by
  induction calls using List.reverseRecOn with
  | nil => exact ⟨fun _ member => (nomatch member), fun _ member => (nomatch member)⟩
  | append_singleton before call ih =>
    have earlier : ∀ first next, first ++ [next] <+: before → first ++ [next] <+: before ++ [call] :=
      fun _ _ inside => inside.trans (prefix_append _ _)
    rw [Timed, flatMap_append, flatMap_singleton, pairwise_append] at timed
    rw [run_snoc, flatMap_append, flatMap_singleton]
    exact (ih timed.1 (fun first next inside => fresh first next (earlier first next inside))
      fun first next inside => careful first next (earlier first next inside)).perform
      (queued_run fun first next inside => fresh first next (earlier first next inside))
      (fresh before call (prefix_refl _)) (careful before call (prefix_refl _)) timed.2.2

/-- In every state that the calls reach: one restart at a time, countdowns of active restarts only,
and what had ended before has stayed as it was and was not executed again. -/
def JobsAgree (settings : JobSettings T) (calls : List (Call T)) : Prop :=
  ∀ before after, before <+: after → after <+: calls →
    Exclusive (run settings after) ∧ Settled (run settings before) (run settings after) ∧
      Linked (run settings after)

/-- The job tables agree in every run in which the clock does not go back, tokens are not drawn twice,
and the calls are careful. -/
theorem jobs_agree (timed : Timed calls)
    (fresh : ∀ before call, before ++ [call] <+: calls → Fresh (run settings before) call)
    (careful : ∀ before call, before ++ [call] <+: calls →
      Careful settings (run settings before) call) : JobsAgree settings calls := by
  intro before after earlier inside
  have freshly : ∀ first next, first ++ [next] <+: after → Fresh (run settings first) next :=
    fun first next within => fresh first next (within.trans inside)
  have clocked : Timed after := by
    obtain ⟨rest, rfl⟩ := inside
    rw [Timed, flatMap_append, pairwise_append] at timed
    exact timed.1
  refine ⟨(queued_run freshly).exclusive, settled_run earlier freshly, (tied_run clocked freshly
    fun first next within => careful first next (within.trans inside)).agree⟩

end Operations

def wholeSeconds : JobSettings Int where
  add := (· + ·)
  remainsWithin restartAt now seconds := decide (max 0 (restartAt - now) ≤ seconds)
  targets := ["all", "survival"]

def announcedRestart : RestartRequest Int :=
  { target := "all", delay := "1hr", message := "Maintenance" }

def silentRestart : RestartRequest Int := { target := "all", delay := "2hr", announce := false }

theorem jobs_agree_announced : JobsAgree wholeSeconds [.scheduleRestart announcedRestart "first" "countdown" 0 0] := by
  have only : ∀ before (call : Call Int),
      before ++ [call] <+: [.scheduleRestart announcedRestart "first" "countdown" 0 0] →
      before = [] ∧ call = .scheduleRestart announcedRestart "first" "countdown" 0 0 := by
    intro before call inside
    have same : before ++ [call] = [] ++ [.scheduleRestart announcedRestart "first" "countdown" 0 0] :=
      inside.eq_of_length_le (by simp)
    obtain ⟨none, one⟩ := append_inj' same rfl
    exact ⟨none, singleton_inj.mp one⟩
  refine jobs_agree (by simp [Timed, Call.readings]) (fun before call inside => ?_) fun before call inside => ?_
  · obtain ⟨rfl, rfl⟩ := only before call inside
    exact ⟨by decide, not_mem_nil⟩
  · obtain ⟨rfl, rfl⟩ := only before call inside
    rintro ⟨job, member, -⟩
    cases member

theorem silent_tables :
    let board := run wholeSeconds [.scheduleRestart announcedRestart "first" "countdown" 0 0,
      .scheduleRestart silentRestart "second" "unused" 10 10]
    board.announcements.map (fun job => (job.active, job.restartJobId)) = [(true, some "first")] ∧
      board.restarts.map (fun job => (job.id, job.active)) = [("first", false), ("second", true)] := by
  decide

/-- A restart that is not announced leaves the countdown of the restart it takes the place of. -/
theorem silent_restart_leaves_countdown :
    ¬JobsAgree wholeSeconds [.scheduleRestart announcedRestart "first" "countdown" 0 0,
      .scheduleRestart silentRestart "second" "unused" 10 10] := by
  intro agree
  obtain ⟨-, -, linked⟩ := agree _ _ (prefix_refl _) (prefix_refl _)
  obtain ⟨countdowns, rows⟩ := silent_tables
  obtain ⟨job, member, same⟩ := mem_map.mp (countdowns ▸ mem_singleton_self (true, some "first"))
  obtain ⟨restart, present, named, active⟩ := linked job member (Prod.ext_iff.mp same).1 "first"
    (Prod.ext_iff.mp same).2
  have row := rows ▸ mem_map_of_mem present
  rw [named, active] at row
  simp at row

end Dash.Maintenance
