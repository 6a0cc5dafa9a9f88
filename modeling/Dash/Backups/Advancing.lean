import Dash.Backups.Retention

/-! A tick's backup takes long: the schedule may be configured meanwhile, and an old backup may not
be removable. What the tick leaves of either. -/

set_option autoImplicit false

namespace Dash.Backups

open Dash.Python

variable {F T κ : Type}

structure Clock (F T : Type) [LinearOrder T] extends Platform F T where
  plus_later : ∀ (now : T) (seconds : Int), 0 < seconds → now < plus now seconds
  plus_earlier : ∀ (now : T) (seconds : Int), seconds < 0 → plus now seconds < now
  nextTime_later : ∀ (hour minute : Nat) (now : T), now < nextTime hour minute now

structure Episode (F T κ : Type) [LinearOrder T] where
  now : T
  attempt : Attempt κ
  /-- The calls of `configure_backup_schedule` while the backup runs, and when. -/
  configured : List (Value F × T)
  configured_later : ∀ call ∈ configured, now ≤ call.2
  /-- The backup directories that are there once the backup is done. -/
  directories : List κ
  /-- What the removal of a directory raises. -/
  fails : κ → Option String

section Removal

variable [LT T] [DecidableLT T] [DecidableEq κ]

/-- The loop over `runs` as `pruneRuns` has it, where a removal may raise. -/
def removeRuns (fails : κ → Option String) (cutoff : T) : List (Run T κ) → List κ →
    Except String (List (Run T κ) × List (Run T κ) × List κ)
  | [], directories => .ok ([], [], directories)
  | run :: rest, directories =>
    match run.path with
    | some path =>
      if run.ok = true ∧ run.createdAt < cutoff ∧ path ∈ directories then
        match fails path with
        | some error => .error error
        | none => do
          let (removed, retained, left) ←
            removeRuns fails cutoff rest (directories.filter fun other => other ≠ path)
          .ok (run :: removed, retained, left)
      else do
        let (removed, retained, left) ← removeRuns fails cutoff rest directories
        .ok (removed, run :: retained, left)
    | none => do
      let (removed, retained, left) ← removeRuns fails cutoff rest directories
      .ok (removed, run :: retained, left)

def Stuck (fails : κ → Option String) (cutoff : T) (directories : List κ) (run : Run T κ) : Prop :=
  run.ok = true ∧ run.createdAt < cutoff ∧ ∃ path ∈ directories, run.path = some path ∧ fails path ≠ none

end Removal

namespace Platform

variable (rt : Platform F T)

/-- The schedule that calls of `configure_backup_schedule` set last, if any of them set one. -/
def setMeanwhile : List (Value F × T) → State T κ → Option (State T κ)
  | [], _ => none
  | (body, now) :: rest, state =>
    match rt.configureBackupSchedule body now state with
    | .ok set => some ((setMeanwhile rest set).getD set)
    | .error _ => setMeanwhile rest state

def reread (calls : List (Value F × T)) (state : State T κ) : State T κ :=
  (rt.setMeanwhile calls state).getD state

variable [LinearOrder T] [DecidableEq κ]

/-- `prune_scheduled_backups`, where a removal may raise. -/
def removeScheduledBackups (now : T) (fails : κ → Option String) (directories : List κ)
    (state : State T κ) : Except String (State T κ) :=
  if state.retentionDays ≤ 0 then .ok state
  else do
    let (removed, retained, _) ← removeRuns fails (rt.cutoff state now) state.runs directories
    .ok { state with
      runs := last200 retained
      lastPruned := if removed = [] then state.lastPruned else removed.filterMap (·.path) }

variable [Zero T]

/-- A turn of `backup_schedule_worker`. The lock is released while the backup runs, and the handler of
the worker writes what a removal raised. -/
def backupScheduleWorker (episode : Episode F T κ) (state : State T κ) : State T κ :=
  let now := episode.now
  let current := rt.reread episode.configured state
  if due state now then
    match episode.attempt, episode.attempt.report with
    | .busy detail, _ =>
      { current with
        -- The retry is the one that was read before the backup.
        nextRun := some (rt.plus now (orInt state.retryMinutes 15 * 60))
        lastDeferredAt := some now
        lastDeferral := some detail
        deferrals := current.deferrals + 1 }
    | _, some report =>
      match rt.removeScheduledBackups now episode.fails episode.directories
          (rt.recorded now report current) with
      | .ok pruned => pruned
      | .error error => { current with lastResult := some ⟨false, none, none, some error⟩ }
    | _, none => current
  else current

end Platform

/-- What may happen to the schedule. -/
inductive Event (F T κ : Type) [LinearOrder T] where
  | configure (body : Value F) (now : T)
  | worker (episode : Episode F T κ)

namespace Platform

variable [LinearOrder T] [Zero T] [DecidableEq κ] (rt : Platform F T)

def happen (state : State T κ) : Event F T κ → State T κ
  | .configure body now => rt.reread [(body, now)] state
  | .worker episode => rt.backupScheduleWorker episode state

def history (events : List (Event F T κ)) : State T κ :=
  events.foldl rt.happen defaultBackupSchedule

end Platform

section Removal

variable [LinearOrder T] [DecidableEq κ] {fails : κ → Option String} {cutoff : T}
  {directories : List κ} {run : Run T κ} {path : κ}

theorem stuck_filter (removable : fails path = none) :
    Stuck fails cutoff (directories.filter fun other => other ≠ path) run ↔
      Stuck fails cutoff directories run := by
  refine and_congr_right fun _ => and_congr_right fun _ => exists_congr fun other => ?_
  constructor
  · exact fun ⟨member, named⟩ => ⟨List.mem_of_mem_filter member, named⟩
  · rintro ⟨member, named, failing⟩
    refine ⟨List.mem_filter.mpr ⟨member, decide_eq_true fun same => failing ?_⟩, named, failing⟩
    rw [same, removable]

/-- Where no removal raises, the loop is the one of `pruneRuns`. -/
theorem removeRuns_ok {runs : List (Run T κ)} (free : ∀ run ∈ runs, ¬ Stuck fails cutoff directories run) :
    removeRuns fails cutoff runs directories = .ok (pruneRuns cutoff runs directories) := by
  induction runs generalizing directories with
  | nil => rfl
  | cons run rest ih =>
    have later : ∀ run ∈ rest, ¬ Stuck fails cutoff directories run :=
      fun other member => free other (List.mem_cons_of_mem _ member)
    unfold removeRuns pruneRuns
    cases named : run.path with
    | none =>
      rw [ih later]
      rfl
    | some path =>
      dsimp only
      split
      · rename_i expired
        have removable : fails path = none := by
          by_contra failing
          exact free run List.mem_cons_self ⟨expired.1, expired.2.1, path, expired.2.2, named, failing⟩
        rw [removable]
        dsimp only
        rw [ih fun other member => (stuck_filter removable).not.mpr (later other member)]
        rfl
      · rw [ih later]
        rfl

/-- One directory that cannot be removed makes the loop raise. -/
theorem removeRuns_error {runs : List (Run T κ)} (held : ∃ run ∈ runs, Stuck fails cutoff directories run) :
    ∃ error, removeRuns fails cutoff runs directories = .error error := by
  induction runs generalizing directories with
  | nil => simp at held
  | cons run rest ih =>
    unfold removeRuns
    cases named : run.path with
    | none =>
      obtain ⟨other, member, stuck⟩ := held
      rcases List.mem_cons.mp member with rfl | inside
      · obtain ⟨-, -, path, -, same, -⟩ := stuck
        rw [named] at same
        cases same
      · obtain ⟨error, raised⟩ := ih ⟨other, inside, stuck⟩
        exact ⟨error, by dsimp only; rw [raised]; rfl⟩
    | some path =>
      dsimp only
      obtain ⟨other, member, stuck⟩ := held
      split
      · cases removable : fails path with
        | some error => exact ⟨error, rfl⟩
        | none =>
          rcases List.mem_cons.mp member with rfl | inside
          · obtain ⟨-, -, found, -, same, failing⟩ := stuck
            rw [named] at same
            cases same
            exact absurd removable failing
          · obtain ⟨error, raised⟩ := ih ⟨other, inside, (stuck_filter removable).mpr stuck⟩
            exact ⟨error, by dsimp only; rw [raised]; rfl⟩
      · rename_i spared
        rcases List.mem_cons.mp member with rfl | inside
        · obtain ⟨ok, old, found, there, same, -⟩ := stuck
          rw [named] at same
          cases same
          exact absurd ⟨ok, old, there⟩ spared
        · obtain ⟨error, raised⟩ := ih ⟨other, inside, stuck⟩
          exact ⟨error, by rw [raised]; rfl⟩

end Removal

structure Spaced (state : State T κ) : Prop where
  interval : 1 ≤ state.intervalHours
  retry : 1 ≤ state.retryMinutes

theorem Spaced.interval_pos {state : State T κ} (spaced : Spaced state) : 0 < orInt state.intervalHours 24 * 3600 := by
  have := spaced.interval
  rw [orInt, if_neg (by omega)]
  omega

theorem Spaced.retry_pos {state : State T κ} (spaced : Spaced state) : 0 < orInt state.retryMinutes 15 * 60 := by
  have := spaced.retry
  rw [orInt, if_neg (by omega)]
  omega

namespace Clock

variable [LinearOrder T] {rt : Clock F T} {state after : State T κ} {body : Value F} {now : T}

theorem nextBackupScheduleTime_later {clock : String} {next : T}
    (found : rt.nextBackupScheduleTime clock now = .ok next) : now < next := by
  unfold Platform.nextBackupScheduleTime at found
  dsimp only at found
  split at found
  · split at found
    · split at found
      · cases found
        exact rt.nextTime_later _ _ now
      · cases found
    · cases found
  · cases found

structure Set (now : T) (own : State T κ) : Prop extends Spaced own where
  next : (own.enabled = false ∧ own.nextRun = none) ∨ ∃ next, own.nextRun = some next ∧ now < next

theorem configure_set (configured : rt.configureBackupSchedule body now state = .ok after) : Set now after := by
  obtain ⟨-, hours, minutes, found⟩ := Platform.configure_ok configured
  refine ⟨⟨hours, minutes⟩, ?_⟩
  split at found
  · cases run : rt.nextBackupScheduleTime after.time now with
    | error why =>
      rw [run] at found
      cases found
    | ok next =>
      rw [run] at found
      exact .inr ⟨next, (Except.ok.inj found).symm, nextBackupScheduleTime_later run⟩
  · rename_i disabled
    exact .inl ⟨Bool.eq_false_iff.mpr disabled, (Except.ok.inj found).symm⟩

theorem Set.mono {earlier : T} {own : State T κ} (set : Set now own) (before : earlier ≤ now) :
    Set earlier own :=
  ⟨set.toSpaced, set.next.imp_right fun ⟨next, same, later⟩ => ⟨next, same, before.trans_lt later⟩⟩

theorem setMeanwhile_set {calls : List (Value F × T)} {own : State T κ}
    (later : ∀ call ∈ calls, now ≤ call.2) (set : rt.setMeanwhile calls state = some own) :
    Set now own := by
  induction calls generalizing state with
  | nil => cases set
  | cons call rest ih =>
    obtain ⟨body, time⟩ := call
    have rest_later := fun call member => later call (List.mem_cons_of_mem _ member)
    unfold Platform.setMeanwhile at set
    split at set
    · rename_i first configured
      cases last : rt.setMeanwhile rest first with
      | none =>
        rw [last] at set
        cases set
        exact (configure_set configured).mono (later _ List.mem_cons_self)
      | some other =>
        rw [last] at set
        cases set
        exact ih rest_later last
    · exact ih rest_later set

/-- The next run is later than the tick, and what was configured meanwhile stands. -/
structure Honored (now : T) (set : Option (State T κ)) (after : State T κ) : Prop where
  advanced : (after.nextRun = none ∧ ∃ own, set = some own ∧ own.enabled = false) ∨
    ∃ next, after.nextRun = some next ∧ now < next
  followed : ∀ own, set = some own → after.enabled = own.enabled ∧ after.time = own.time ∧
    after.intervalHours = own.intervalHours ∧ after.nextRun = own.nextRun

def Concurs (next : T) (set : Option (State T κ)) : Prop :=
  ∀ own, set = some own → own.nextRun = some next

theorem honored_iff_concurs {set : Option (State T κ)} {next : T} (later : now < next)
    (same : after.nextRun = some next) (enabled : after.enabled = (set.getD state).enabled)
    (time : after.time = (set.getD state).time)
    (interval : after.intervalHours = (set.getD state).intervalHours) :
    Honored now set after ↔ Concurs next set := by
  constructor
  · intro honored own configured
    rw [← same]
    exact (honored.followed own configured).2.2.2.symm
  · intro concurs
    refine ⟨.inr ⟨next, same, later⟩, fun own configured => ?_⟩
    subst configured
    exact ⟨enabled, time, interval, same.trans (concurs own rfl).symm⟩

theorem honored_iff_set {set : Option (State T κ)} (past : ∃ next, state.nextRun = some next ∧ next ≤ now)
    (own_set : ∀ own, set = some own → Set now own)
    (next : after.nextRun = (set.getD state).nextRun)
    (enabled : after.enabled = (set.getD state).enabled) (time : after.time = (set.getD state).time)
    (interval : after.intervalHours = (set.getD state).intervalHours) :
    Honored now set after ↔ set ≠ none := by
  cases set with
  | none =>
    refine iff_of_false (fun honored => ?_) (not_not.mpr rfl)
    obtain ⟨before, same, early⟩ := past
    rcases honored.advanced with ⟨-, own, configured, -⟩ | ⟨found, here, later⟩
    · cases configured
    · rw [next, Option.getD_none, same] at here
      cases here
      exact absurd later (not_lt.mpr early)
  | some own =>
    refine iff_of_true ⟨?_, ?_⟩ (Option.some_ne_none own)
    · rcases (own_set own rfl).next with ⟨disabled, idle⟩ | ⟨found, here, later⟩
      · exact .inl ⟨next.trans idle, own, rfl, disabled⟩
      · exact .inr ⟨found, next.trans here, later⟩
    · rintro other ⟨⟩
      exact ⟨enabled, time, interval, next⟩

def delay (report : Report κ) (state : State T κ) : Int :=
  if report.ok then orInt state.intervalHours 24 * 3600 else orInt state.retryMinutes 15 * 60

omit [LinearOrder T] in
theorem delay_pos {report : Report κ} (spaced : Spaced state) : 0 < delay report state := by
  unfold delay
  split
  · exact spaced.interval_pos
  · exact spaced.retry_pos

omit [LinearOrder T] in
theorem recorded_nextRun {rt : Platform F T} (report : Report κ) :
    (rt.recorded now report state).nextRun = some (rt.plus now (delay report state)) := by
  unfold Platform.recorded delay
  cases report.ok <;> rfl

omit [LinearOrder T] in
theorem recorded_settings (rt : Platform F T) (now : T) (report : Report κ) (state : State T κ) :
    (rt.recorded now report state).enabled = state.enabled ∧ (rt.recorded now report state).time = state.time ∧
      (rt.recorded now report state).intervalHours = state.intervalHours ∧
      (rt.recorded now report state).retryMinutes = state.retryMinutes := by
  unfold Platform.recorded
  cases report.ok <;> exact ⟨rfl, rfl, rfl, rfl⟩

section Worker

variable [DecidableEq κ]

def Blocked (rt : Clock F T) (episode : Episode F T κ) (state : State T κ) : Prop :=
  0 < state.retentionDays ∧ ∃ run ∈ state.runs,
    Stuck episode.fails (rt.cutoff state episode.now) episode.directories run

omit [DecidableEq κ] in
/-- The new run is not old, so the removal is over the runs that were there. -/
theorem stuck_recorded (episode : Episode F T κ) (report : Report κ) (limited : 0 < state.retentionDays) :
    (∃ run ∈ (rt.recorded episode.now report state).runs, Stuck episode.fails
      (rt.cutoff (rt.recorded episode.now report state) episode.now) episode.directories run) ↔
    Blocked rt episode state := by
  have recent : ¬ episode.now < rt.cutoff state episode.now := not_lt.mpr (rt.plus_earlier _ _ (by omega)).le
  have same : rt.cutoff (rt.recorded episode.now report state) episode.now = rt.cutoff state episode.now := by
    rw [Platform.cutoff, Platform.cutoff, Platform.recorded_retention]
  rw [same, Platform.recorded_runs]
  constructor
  · rintro ⟨run, member, stuck⟩
    rcases List.mem_append.mp member with before | new
    · exact ⟨limited, run, before, stuck⟩
    · cases List.mem_singleton.mp new
      exact absurd stuck.2.1 recent
  · rintro ⟨-, run, member, stuck⟩
    exact ⟨run, List.mem_append_left _ member, stuck⟩

variable {episode : Episode F T κ}

theorem removeScheduledBackups_blocked (report : Report κ) (blocked : Blocked rt episode state) :
    ∃ error, rt.removeScheduledBackups episode.now episode.fails episode.directories
      (rt.recorded episode.now report state) = .error error := by
  obtain ⟨error, raised⟩ := removeRuns_error ((stuck_recorded episode report blocked.1).mpr blocked)
  refine ⟨error, ?_⟩
  rw [Platform.removeScheduledBackups, Platform.recorded_retention, if_neg (not_le.mpr blocked.1), raised]
  rfl

theorem removeScheduledBackups_free (report : Report κ) (free : ¬ Blocked rt episode state) :
    ∃ runs pruned, rt.removeScheduledBackups episode.now episode.fails episode.directories
      (rt.recorded episode.now report state) =
      .ok { rt.recorded episode.now report state with runs := runs, lastPruned := pruned } := by
  have retention : (rt.recorded episode.now report state).retentionDays = state.retentionDays :=
    Platform.recorded_retention rt.toPlatform state
  unfold Platform.removeScheduledBackups
  rcases le_or_gt state.retentionDays 0 with unlimited | limited
  · rw [if_pos (retention.trans_le unlimited)]
    exact ⟨_, _, rfl⟩
  · have removable := (stuck_recorded episode report limited).not.mpr free
    rw [if_neg (not_le.mpr (limited.trans_eq retention.symm)),
      removeRuns_ok fun run member stuck => removable ⟨run, member, stuck⟩]
    exact ⟨_, _, rfl⟩

variable [Zero T]

/-- No removal raises unless a schedule was configured, and else what was configured runs next when the
tick would have it run. -/
def Undisturbed (rt : Clock F T) (episode : Episode F T κ) (state : State T κ) : Prop :=
  let set := rt.setMeanwhile episode.configured state
  let current := rt.reread episode.configured state
  match episode.attempt.report with
  | none => Concurs (rt.plus episode.now (orInt state.retryMinutes 15 * 60)) set
  | some report =>
    (Blocked rt episode current → set ≠ none) ∧
    (¬ Blocked rt episode current → Concurs (rt.plus episode.now (delay report current)) set)

theorem worker_busy (rt : Clock F T) (ran : Platform.due state episode.now = true)
    (busy : episode.attempt.report = none) :
    ∃ deferral deferrals, rt.backupScheduleWorker episode state = { rt.reread episode.configured state with
        nextRun := some (rt.plus episode.now (orInt state.retryMinutes 15 * 60))
        lastDeferredAt := some episode.now
        lastDeferral := deferral
        deferrals := deferrals } := by
  unfold Platform.backupScheduleWorker
  dsimp only
  rw [if_pos ran]
  cases attempt : episode.attempt with
  | busy detail => exact ⟨_, _, rfl⟩
  | verified path attempts => simp [attempt, Attempt.report] at busy
  | unverified path attempts error => simp [attempt, Attempt.report] at busy
  | incomplete path error => simp [attempt, Attempt.report] at busy
  | raised error left => simp [attempt, Attempt.report] at busy

theorem worker_reported {report : Report κ}
    (ran : Platform.due state episode.now = true) (reported : episode.attempt.report = some report) :
    rt.backupScheduleWorker episode state =
      match rt.removeScheduledBackups episode.now episode.fails episode.directories
          (rt.recorded episode.now report (rt.reread episode.configured state)) with
      | .ok pruned => pruned
      | .error error => { rt.reread episode.configured state with
          lastResult := some ⟨false, none, none, some error⟩ } := by
  unfold Platform.backupScheduleWorker
  dsimp only
  rw [if_pos ran]
  cases attempt : episode.attempt <;> rw [attempt] at reported <;> cases reported <;> rfl

omit [DecidableEq κ] in
theorem due_past (ran : Platform.due state now = true) : ∃ next, state.nextRun = some next ∧ next ≤ now := by
  unfold Platform.due at ran
  cases same : state.nextRun with
  | none => simp [same] at ran
  | some next =>
    refine ⟨next, rfl, ?_⟩
    simp only [same, Bool.and_eq_true, Bool.not_eq_true', decide_eq_false_iff_not, not_lt] at ran
    exact ran.2.2

omit [DecidableEq κ] [Zero T] in
theorem reread_spaced (rt : Clock F T) (episode : Episode F T κ) (spaced : Spaced state) :
    Spaced (rt.reread episode.configured state) := by
  unfold Platform.reread
  cases set : rt.setMeanwhile episode.configured state with
  | none => exact spaced
  | some own => exact (setMeanwhile_set episode.configured_later set).toSpaced

theorem worker_honored_iff (spaced : Spaced state) (ran : Platform.due state episode.now = true) :
    Honored episode.now (rt.setMeanwhile episode.configured state) (rt.backupScheduleWorker episode state) ↔
      Undisturbed rt episode state := by
  unfold Undisturbed
  cases reported : episode.attempt.report with
  | none =>
    obtain ⟨deferral, deferrals, left⟩ := worker_busy rt ran reported
    rw [left]
    exact honored_iff_concurs (rt.plus_later _ _ spaced.retry_pos) rfl rfl rfl rfl
  | some report =>
    rw [worker_reported ran reported]
    dsimp only
    by_cases blocked : Blocked rt episode (rt.reread episode.configured state)
    · obtain ⟨error, raised⟩ := removeScheduledBackups_blocked report blocked
      have left : ∀ result, Honored episode.now (rt.setMeanwhile episode.configured state)
          { rt.reread episode.configured state with lastResult := result } ↔
          rt.setMeanwhile episode.configured state ≠ none := fun result =>
        honored_iff_set (due_past ran) (fun own => setMeanwhile_set episode.configured_later) rfl rfl rfl rfl
      rw [raised, left]
      constructor
      · exact fun set => ⟨fun _ => set, fun free => absurd blocked free⟩
      · exact fun undisturbed => undisturbed.1 blocked
    · obtain ⟨runs, pruned, removed⟩ := removeScheduledBackups_free report blocked
      have settings := recorded_settings rt.toPlatform episode.now report (rt.reread episode.configured state)
      have left : ∀ runs pruned, Honored episode.now (rt.setMeanwhile episode.configured state)
          { rt.recorded episode.now report (rt.reread episode.configured state) with
            runs := runs, lastPruned := pruned } ↔
          Concurs (rt.plus episode.now (delay report (rt.reread episode.configured state)))
            (rt.setMeanwhile episode.configured state) := fun _ _ =>
        honored_iff_concurs (rt.plus_later _ _ (delay_pos (reread_spaced rt episode spaced)))
          (recorded_nextRun report) settings.1 settings.2.1 settings.2.2.1
      rw [removed, left]
      constructor
      · exact fun concurs => ⟨fun held => absurd held blocked, fun _ => concurs⟩
      · exact fun undisturbed => undisturbed.2 blocked

theorem worker_spaced (rt : Clock F T) (episode : Episode F T κ) (spaced : Spaced state) :
    Spaced (rt.backupScheduleWorker episode state) := by
  have current := reread_spaced rt episode spaced
  by_cases ran : Platform.due state episode.now = true
  · cases reported : episode.attempt.report with
    | none =>
      obtain ⟨deferral, deferrals, left⟩ := worker_busy rt ran reported
      rw [left]
      exact ⟨current.interval, current.retry⟩
    | some report =>
      rw [worker_reported ran reported]
      by_cases blocked : Blocked rt episode (rt.reread episode.configured state)
      · obtain ⟨error, raised⟩ := removeScheduledBackups_blocked report blocked
        rw [raised]
        exact ⟨current.interval, current.retry⟩
      · obtain ⟨runs, pruned, removed⟩ := removeScheduledBackups_free report blocked
        have settings := recorded_settings rt.toPlatform episode.now report (rt.reread episode.configured state)
        rw [removed]
        exact ⟨current.interval.trans_eq settings.2.2.1.symm, current.retry.trans_eq settings.2.2.2.symm⟩
  · unfold Platform.backupScheduleWorker
    dsimp only
    rw [if_neg ran]
    exact current

theorem happen_spaced (rt : Clock F T) (event : Event F T κ) (spaced : Spaced state) :
    Spaced (rt.happen state event) := by
  cases event with
  | configure body now =>
    change Spaced ((rt.setMeanwhile [(body, now)] state).getD state)
    cases set : rt.setMeanwhile [(body, now)] state with
    | none => exact spaced
    | some own =>
      have later : ∀ call ∈ [(body, now)], now ≤ call.2 := by simp
      exact (setMeanwhile_set later set).toSpaced
  | worker episode => exact worker_spaced rt episode spaced

theorem history_spaced (rt : Clock F T) (events : List (Event F T κ)) : Spaced (rt.history events) := by
  unfold Platform.history
  have start : Spaced (defaultBackupSchedule : State T κ) :=
    ⟨show (1 : Int) ≤ 24 by decide, show (1 : Int) ≤ 15 by decide⟩
  generalize (defaultBackupSchedule : State T κ) = state at start
  induction events generalizing state with
  | nil => exact start
  | cons event rest ih => exact ih _ (happen_spaced rt event start)

/-- After any history, a tick that runs a backup leaves a later next run and what the operator set, just
where nothing disturbs it. -/
theorem honored_iff (rt : Clock F T) (events : List (Event F T κ)) (episode : Episode F T κ)
    (ran : Platform.due (rt.history events) episode.now = true) :
    Honored episode.now (rt.setMeanwhile episode.configured (rt.history events))
        (rt.history (events ++ [.worker episode])) ↔
      Undisturbed rt episode (rt.history events) := by
  have last : rt.history (events ++ [.worker episode]) = rt.backupScheduleWorker episode (rt.history events) := by
    rw [Platform.history, List.foldl_append]
    rfl
  rw [last]
  exact worker_honored_iff (history_spaced rt events) ran

end Worker

def hourlyClock : Clock Int Int where
  toPlatform := hourly
  plus_later now seconds positive := by
    change now < now + seconds
    omega
  plus_earlier now seconds negative := by
    change now + seconds < now
    omega
  nextTime_later hour minute now := by
    have today := Int.emod_lt_of_pos now (show (0 : Int) < 86400 by decide)
    have clock : (0 : Int) ≤ (hour * 3600 + minute * 60 : Nat) := Int.natCast_nonneg _
    simp only [hourly]
    split <;> omega

def plainly (now : Int) (path : Nat) : Episode Int Int Nat where
  now := now
  attempt := .verified path 1
  configured := []
  configured_later := by simp
  directories := List.range (path + 1)
  fails _ := none

def unremovable : Episode Int Int Nat :=
  { plainly 104401 1 with fails := fun path => if path = 0 then some "Directory not empty" else none }

def disabledMeanwhile : Episode Int Int Nat :=
  { plainly 18000 0 with
    configured := [(.object [("enabled", .bool false)], 18100)]
    configured_later := by simp [plainly] }

def afterFirst : List (Event Int Int Nat) :=
  [.configure (settings 24 1) 0, .worker (plainly 18000 0)]

def beforeFirst : List (Event Int Int Nat) := [.configure (settings 24 0) 0]

theorem unremovable_left : Platform.due (hourlyClock.history afterFirst) 104401 = true ∧
    hourlyClock.setMeanwhile unremovable.configured (hourlyClock.history afterFirst) = none ∧
    (hourlyClock.history (afterFirst ++ [.worker unremovable])).nextRun = some 104400 :=
  ⟨by decide +kernel, rfl, by decide +kernel⟩

theorem disabledMeanwhile_left : Platform.due (hourlyClock.history beforeFirst) 18000 = true ∧
    (hourlyClock.setMeanwhile disabledMeanwhile.configured (hourlyClock.history beforeFirst)).map
      (·.nextRun) = some none ∧
    (hourlyClock.history (beforeFirst ++ [.worker disabledMeanwhile])).nextRun = some 104400 :=
  ⟨by decide +kernel, by decide +kernel, by decide +kernel⟩

/-- A tick that cannot remove a backup stays due, and a schedule that is disabled while the backup runs
gets a next run. -/
theorem disturbed_schedules : (Platform.due (hourlyClock.history afterFirst) unremovable.now = true ∧
      ¬ Honored unremovable.now (hourlyClock.setMeanwhile unremovable.configured (hourlyClock.history afterFirst))
        (hourlyClock.history (afterFirst ++ [.worker unremovable]))) ∧
    (Platform.due (hourlyClock.history beforeFirst) disabledMeanwhile.now = true ∧ ¬ Honored disabledMeanwhile.now
        (hourlyClock.setMeanwhile disabledMeanwhile.configured (hourlyClock.history beforeFirst))
        (hourlyClock.history (beforeFirst ++ [.worker disabledMeanwhile]))) := by
  constructor
  · obtain ⟨due, unset, next⟩ := unremovable_left
    refine ⟨due, fun honored => ?_⟩
    rcases honored.advanced with ⟨-, own, set, -⟩ | ⟨found, same, later⟩
    · rw [unset] at set
      cases set
    · rw [next] at same
      cases same
      exact absurd later (by decide)
  · obtain ⟨due, set, next⟩ := disabledMeanwhile_left
    refine ⟨due, fun honored => ?_⟩
    obtain ⟨own, configured, idle⟩ := Option.map_eq_some_iff.mp set
    have followed := (honored.followed own configured).2.2.2
    rw [next, idle] at followed
    cases followed

/-- A backup that nothing disturbs. -/
theorem honored_daily :
    Honored 18000 (hourlyClock.setMeanwhile (plainly 18000 0).configured (hourlyClock.history beforeFirst))
        (hourlyClock.history (beforeFirst ++ [.worker (plainly 18000 0)])) ↔
      Undisturbed hourlyClock (plainly 18000 0) (hourlyClock.history beforeFirst) :=
  honored_iff hourlyClock beforeFirst (plainly 18000 0) (by decide +kernel)

end Clock

end Dash.Backups
