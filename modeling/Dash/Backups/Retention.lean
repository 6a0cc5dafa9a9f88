import Dash.Python.Plain

/-! The schedule of full backups: what a tick runs, lists and removes, over all runs of the schedule.

A backup's path is its directory's name below the `maintenance` directory. What verification printed
is left out of the reports.
-/

set_option autoImplicit false

namespace Dash.Backups

open Dash.Python

variable {F T κ : Type}

structure Platform (F T : Type) extends Runtime F where
  /-- `time + seconds`, in floats. -/
  plus : T → Int → T
  /-- The value of a decimal digit, of any script. -/
  digit : Char → Option Nat
  /-- The next time after an instant that the local clock shows the hour and the minute. -/
  nextTime : Nat → Nat → T → T

/-- `last_result` -/
structure Report (κ : Type) where
  ok : Bool
  path : Option κ
  verificationAttempts : Option Int
  error : Option String
  deriving DecidableEq

/-- A row of `runs`. -/
structure Run (T κ : Type) extends Report κ where
  createdAt : T
  deriving DecidableEq

/-- How `create_full_backup` may end. Where it raises for another reason, a directory may be left. -/
inductive Attempt (κ : Type) where
  | busy (detail : String)
  | verified (path : κ) (attempts : Int)
  | unverified (path : κ) (attempts : Int) (error : String)
  | incomplete (path : κ) (error : String)
  | raised (error : String) (left : Option κ)

/-- `backup-schedule.json` -/
structure State (T κ : Type) where
  enabled : Bool
  time : String
  (intervalHours retentionDays retryMinutes verificationAttempts : Int)
  (nextRun lastRun lastSuccess : Option T)
  lastResult : Option (Report κ)
  (consecutiveFailures deferrals : Nat)
  lastDeferredAt : Option T
  lastDeferral : Option String
  runs : List (Run T κ)
  lastPruned : List κ

def defaultBackupSchedule : State T κ where
  enabled := false
  time := "05:00"
  intervalHours := 24
  retentionDays := 0
  retryMinutes := 15
  verificationAttempts := 3
  nextRun := none
  lastRun := none
  lastSuccess := none
  lastResult := none
  consecutiveFailures := 0
  deferrals := 0
  lastDeferredAt := none
  lastDeferral := none
  runs := []
  lastPruned := []

structure Removal (T κ : Type) where
  run : Run T κ
  limit : T

/-- The schedule, the backup directories and what all calls did. -/
structure World (T κ : Type) where
  schedule : State T κ
  directories : List κ
  made : List (Run T κ)
  removed : List (Removal T κ)

def start : World T κ := ⟨defaultBackupSchedule, [], [], []⟩

def orInt (value other : Int) : Int := if value = 0 then other else value

namespace Attempt

def directory : Attempt κ → Option κ
  | busy _ => none
  | verified path _ => some path
  | unverified path _ _ => some path
  | incomplete path _ => some path
  | raised _ left => left

def report : Attempt κ → Option (Report κ)
  | busy _ => none
  | verified path attempts => some ⟨true, some path, some attempts, none⟩
  | unverified path attempts error => some ⟨false, some path, some attempts, some error⟩
  | incomplete path error => some ⟨false, some path, none, some error⟩
  | raised error _ => some ⟨false, none, none, some error⟩

end Attempt

section Prune

variable [LT T] [DecidableLT T] [DecidableEq κ]

/-- The loop over `runs`: what is removed, what is retained and which directories stay. -/
def pruneRuns (cutoff : T) : List (Run T κ) → List κ → List (Run T κ) × List (Run T κ) × List κ
  | [], directories => ([], [], directories)
  | run :: rest, directories =>
    match run.path with
    | some path =>
      if run.ok = true ∧ run.createdAt < cutoff ∧ path ∈ directories then
        let (removed, retained, left) := pruneRuns cutoff rest (directories.filter fun other => other ≠ path)
        (run :: removed, retained, left)
      else
        let (removed, retained, left) := pruneRuns cutoff rest directories
        (removed, run :: retained, left)
    | none =>
      let (removed, retained, left) := pruneRuns cutoff rest directories
      (removed, run :: retained, left)

end Prune

def last200 {α : Type} (rows : List α) : List α := rows.drop (rows.length - 200)

namespace Platform

variable (rt : Platform F T)

def nextBackupScheduleTime (clock : String) (now : T) : Result T :=
  let wrong := valueError "backup time must use HH:MM in 24-hour local time"
  match clock.toList with
  | [tens, ones, ':', minuteTens, minuteOnes] =>
    match rt.digit ones, rt.digit minuteOnes with
    | some one, some minute =>
      if (tens = '0' ∨ tens = '1' ∨ (tens = '2' ∧ ones ∈ ['0', '1', '2', '3'])) ∧
          minuteTens ∈ ['0', '1', '2', '3', '4', '5'] then
        .ok (rt.nextTime (10 * (tens.toNat - '0'.toNat) + one) (10 * (minuteTens.toNat - '0'.toNat) + minute) now)
      else wrong
    | _, _ => wrong
  | _ => wrong

def number (body : Value F) (snake camel : String) (other : Int) : Result Int :=
  rt.int (rt.orElse (getOr body snake (getOr body camel (.int other))) (.int other))

def configureBackupSchedule (body : Value F) (now : T) (state : State T κ) : Result (State T κ) := do
  let enabled := decide (rt.lower (rt.str (getOr body "enabled" (.str "false"))) ∈ ["1", "true", "yes", "on"])
  let clock := strip (rt.str (getOr body "time" (.str "05:00")))
  let intervalHours ← rt.number body "interval_hours" "intervalHours" 24
  let retentionDays ← rt.number body "retention_days" "retentionDays" 0
  let retryMinutes ← rt.number body "retry_minutes" "retryMinutes" 15
  let verificationAttempts ← rt.number body "verification_attempts" "verificationAttempts" 3
  if ¬ (1 ≤ intervalHours ∧ intervalHours ≤ 24 * 31) then
    valueError "interval_hours must be between 1 and 744"
  else if ¬ (0 ≤ retentionDays ∧ retentionDays ≤ 3650) then
    valueError "retention_days must be between 0 and 3650"
  else if ¬ (1 ≤ retryMinutes ∧ retryMinutes ≤ 1440) then
    valueError "retry_minutes must be between 1 and 1440"
  else if ¬ (1 ≤ verificationAttempts ∧ verificationAttempts ≤ 5) then
    valueError "verification_attempts must be between 1 and 5"
  else
    let nextRun ←
      (if enabled then (rt.nextBackupScheduleTime clock now).map some else .ok none : Result (Option T))
    .ok { state with
      enabled := enabled
      time := clock
      intervalHours := intervalHours
      retentionDays := retentionDays
      retryMinutes := retryMinutes
      verificationAttempts := verificationAttempts
      nextRun := nextRun }

def cutoff (state : State T κ) (now : T) : T := rt.plus now (-(state.retentionDays * 86400))

variable [LinearOrder T] [Zero T] [DecidableEq κ]

omit [DecidableEq κ] rt in
/-- A tick runs a backup. -/
def due (state : State T κ) (now : T) : Bool :=
  state.enabled && match state.nextRun with
    | some next => decide (next ≠ 0) && !decide (now < next)
    | none => false

/-- `prune_scheduled_backups`, on a schedule that lists the new run. -/
def pruneScheduledBackups (now : T) (world : World T κ) : World T κ :=
  let state := world.schedule
  if state.retentionDays ≤ 0 then world
  else
    let limit := rt.cutoff state now
    let pruned := pruneRuns limit state.runs world.directories
    { world with
      schedule := { state with
        runs := last200 pruned.2.1
        lastPruned := if pruned.1 = [] then state.lastPruned else pruned.1.filterMap (·.path) }
      directories := pruned.2.2
      removed := world.removed ++ pruned.1.map fun run => ⟨run, limit⟩ }

/-- The schedule after a backup that was not deferred. -/
def recorded (now : T) (report : Report κ) (state : State T κ) : State T κ :=
  let state : State T κ := { state with
    lastRun := some now
    lastResult := some report
    runs := state.runs ++ [⟨report, now⟩] }
  if report.ok then { state with
    nextRun := some (rt.plus now (orInt state.intervalHours 24 * 3600))
    lastSuccess := some now
    consecutiveFailures := 0 }
  else { state with
    nextRun := some (rt.plus now (orInt state.retryMinutes 15 * 60))
    consecutiveFailures := state.consecutiveFailures + 1 }

def listed (now : T) (attempt : Attempt κ) (report : Report κ) (world : World T κ) : World T κ where
  schedule := rt.recorded now report world.schedule
  directories := world.directories ++ attempt.directory.toList
  made := world.made ++ [⟨report, now⟩]
  removed := world.removed

def backupScheduleTick (now : T) (attempt : Attempt κ) (world : World T κ) : World T κ :=
  let state := world.schedule
  if due state now then
    match attempt, attempt.report with
    | .busy detail, _ =>
      { world with
        schedule := { state with
          nextRun := some (rt.plus now (orInt state.retryMinutes 15 * 60))
          lastDeferredAt := some now
          lastDeferral := some detail
          deferrals := state.deferrals + 1 } }
    | _, some report => rt.pruneScheduledBackups now (rt.listed now attempt report world)
    | _, none => world
  else world

end Platform

/-- One call of the scheduler. The times are when it runs. -/
inductive Call (F T κ : Type) where
  | configure (body : Value F) (now : T)
  | tick (now : T) (attempt : Attempt κ)

namespace Platform

variable [LinearOrder T] [Zero T] [DecidableEq κ] (rt : Platform F T)

def perform (world : World T κ) : Call F T κ → World T κ
  | .configure body now =>
    match rt.configureBackupSchedule body now world.schedule with
    | .ok state => { world with schedule := state }
    | .error _ => world
  | .tick now attempt => rt.backupScheduleTick now attempt world

def run (calls : List (Call F T κ)) : World T κ := calls.foldl rt.perform start

end Platform

open List

variable {F T κ : Type} [LinearOrder T] [DecidableEq κ]

structure Prunes (cutoff : T) (runs : List (Run T κ)) (directories : List κ)
    (removed retained : List (Run T κ)) (left : List κ) : Prop where
  subset : ∀ path ∈ left, path ∈ directories
  old : ∀ run ∈ removed, run.createdAt < cutoff
  gone : ∀ run ∈ runs, run.ok = true → run.createdAt < cutoff → ∀ path, run.path = some path → path ∉ left
  kept : ∀ run ∈ runs, ∀ path, run.path = some path → path ∈ left → run ∈ retained

section Loop

variable {cutoff : T} {run : Run T κ} {rest removed retained : List (Run T κ)} {directories left : List κ}

theorem Prunes.remove {path : κ} (named : run.path = some path) (old : run.createdAt < cutoff)
    (pruned : Prunes cutoff rest (directories.filter fun other => other ≠ path) removed retained
      left) : Prunes cutoff (run :: rest) directories (run :: removed) retained left := by
  have absent : path ∉ left := fun member => by
    have inside := pruned.subset path member
    simp at inside
  constructor
  · exact fun other member => (mem_filter.mp (pruned.subset other member)).1
  · intro other member
    rcases mem_cons.mp member with rfl | inside
    · exact old
    · exact pruned.old other inside
  · intro other member ok early name same
    rcases mem_cons.mp member with rfl | inside
    · rw [Option.some.inj (same.symm.trans named)]
      exact absent
    · exact pruned.gone other inside ok early name same
  · intro other member name same there
    rcases mem_cons.mp member with rfl | inside
    · rw [Option.some.inj (same.symm.trans named)] at there
      exact absurd there absent
    · exact pruned.kept other inside name same there

omit [DecidableEq κ] in
theorem Prunes.retain (stays : run.ok = true → run.createdAt < cutoff →
      ∀ path, run.path = some path → path ∉ directories)
    (pruned : Prunes cutoff rest directories removed retained left) :
    Prunes cutoff (run :: rest) directories removed (run :: retained) left := by
  refine ⟨pruned.subset, pruned.old, fun other member ok early name same there => ?_,
    fun other member name same there => ?_⟩
  · rcases mem_cons.mp member with rfl | inside
    · exact stays ok early name same (pruned.subset name there)
    · exact pruned.gone other inside ok early name same there
  · rcases mem_cons.mp member with rfl | inside
    · exact mem_cons_self
    · exact mem_cons_of_mem _ (pruned.kept other inside name same there)

end Loop

theorem pruneRuns_prunes (cutoff : T) (runs : List (Run T κ)) (directories : List κ) :
    Prunes cutoff runs directories (pruneRuns cutoff runs directories).1
      (pruneRuns cutoff runs directories).2.1 (pruneRuns cutoff runs directories).2.2 := by
  induction runs generalizing directories with
  | nil => exact ⟨fun _ member => member, by simp [pruneRuns], by simp, by simp⟩
  | cons run rest ih =>
    cases named : run.path with
    | none =>
      simp only [pruneRuns, named]
      exact (ih directories).retain fun _ _ path same => by
        rw [named] at same
        cases same
    | some path =>
      simp only [pruneRuns, named]
      split
      · rename_i expired
        exact (ih _).remove named expired.2.1
      · rename_i spared
        refine (ih directories).retain fun ok early other same there => spared ⟨ok, early, ?_⟩
        rwa [Option.some.inj (named.symm.trans same)]

theorem last200_of_le {α : Type} {rows : List α} (few : rows.length ≤ 200) : last200 rows = rows := by
  rw [last200, Nat.sub_eq_zero_of_le few, drop_zero]

namespace Platform

variable [Zero T] (rt : Platform F T)

/-- A backup gets a directory that no earlier backup had: its name holds the second and a random
token. -/
def Fresh (world : World T κ) : Call F T κ → Prop
  | .configure _ _ => True
  | .tick _ attempt => ∀ path, attempt.directory = some path →
      path ∉ world.directories ∧ ∀ run ∈ world.made, run.path ≠ some path

/-- A tick that removes backups retains no more runs than the list may hold. -/
def Room (world : World T κ) : Call F T κ → Prop
  | .configure _ _ => True
  | .tick now attempt => ∀ report, attempt.report = some report → due world.schedule now = true →
      0 < world.schedule.retentionDays →
      (pruneRuns (rt.cutoff world.schedule now) (rt.listed now attempt report world).schedule.runs
        (rt.listed now attempt report world).directories).2.1.length ≤ 200

def Throughout (holds : World T κ → Call F T κ → Prop) (calls : List (Call F T κ)) : Prop :=
  ∀ before call, before ++ [call] <+: calls → holds (rt.run before) call

def Listed (world : World T κ) : Prop :=
  ∀ run ∈ world.made, ∀ path, run.path = some path → path ∈ world.directories → run ∈ world.schedule.runs

def Older (world : World T κ) : Prop := ∀ removal ∈ world.removed, removal.run.createdAt < removal.limit

def Cleared (limit : T) (world : World T κ) : Prop :=
  ∀ run ∈ world.made, run.ok = true → run.createdAt < limit → ∀ path, run.path = some path →
    path ∉ world.directories

variable {rt} {world : World T κ} {now : T} {attempt : Attempt κ} {report : Report κ}

omit [LinearOrder T] [DecidableEq κ] [Zero T] in
theorem recorded_runs (rt : Platform F T) (state : State T κ) :
    (rt.recorded now report state).runs = state.runs ++ [⟨report, now⟩] := by
  unfold recorded
  cases report.ok <;> rfl

omit [LinearOrder T] [DecidableEq κ] [Zero T] in
theorem recorded_retention (rt : Platform F T) (state : State T κ) :
    (rt.recorded now report state).retentionDays = state.retentionDays := by
  unfold recorded
  cases report.ok <;> rfl

omit [LinearOrder T] [DecidableEq κ] [Zero T] in
theorem listed_retention (rt : Platform F T) :
    (rt.listed now attempt report world).schedule.retentionDays = world.schedule.retentionDays :=
  recorded_retention rt world.schedule

omit [LinearOrder T] [DecidableEq κ] [Zero T] in
theorem listed_cutoff (rt : Platform F T) :
    rt.cutoff (rt.listed now attempt report world).schedule now = rt.cutoff world.schedule now := by
  rw [cutoff, cutoff, listed_retention]

omit [LinearOrder T] [DecidableEq κ] [Zero T] in
/-- The new backup is listed beside the others. -/
theorem Listed.listed (kept : Listed world) (fresh : Fresh world (.tick now attempt : Call F T κ)) :
    Listed (rt.listed now attempt report world) := by
  intro run member path named there
  change run ∈ (rt.recorded now report world.schedule).runs
  rw [recorded_runs]
  rcases mem_append.mp member with old | new
  · rcases mem_append.mp there with before | created
    · exact mem_append_left _ (kept run old path named before)
    · have directory : attempt.directory = some path := by simpa using created
      exact absurd named ((fresh path directory).2 run old)
  · exact mem_append_right _ new

omit [Zero T] in
theorem prune_unlimited (rt : Platform F T) (unlimited : world.schedule.retentionDays ≤ 0) :
    rt.pruneScheduledBackups now world = world := by
  rw [pruneScheduledBackups, if_pos unlimited]

omit [Zero T] in
/-- What a removal leaves, by the loop over the runs. -/
theorem prune_limited (rt : Platform F T) (now : T) (limited : 0 < world.schedule.retentionDays) :
    ∃ removed retained left, Prunes (rt.cutoff world.schedule now) world.schedule.runs
        world.directories removed retained left ∧
      (pruneRuns (rt.cutoff world.schedule now) world.schedule.runs world.directories).2.1 = retained ∧
      (rt.pruneScheduledBackups now world).schedule.runs = last200 retained ∧
      (rt.pruneScheduledBackups now world).directories = left ∧
      (rt.pruneScheduledBackups now world).made = world.made ∧
      (rt.pruneScheduledBackups now world).removed =
        world.removed ++ removed.map fun run => ⟨run, rt.cutoff world.schedule now⟩ := by
  refine ⟨_, _, _, pruneRuns_prunes _ _ _, rfl, ?_⟩
  rw [pruneScheduledBackups, if_neg (not_le.mpr limited)]
  simp only [and_self]

omit [Zero T] in
theorem prune_listed (kept : Listed world) (room : 0 < world.schedule.retentionDays →
      (pruneRuns (rt.cutoff world.schedule now) world.schedule.runs world.directories).2.1.length ≤ 200) :
    Listed (rt.pruneScheduledBackups now world) := by
  by_cases limited : 0 < world.schedule.retentionDays
  · obtain ⟨removed, retained, left, pruned, same, runs, directories, made, -⟩ :=
      rt.prune_limited now limited
    intro run member path named there
    rw [made] at member
    rw [directories] at there
    rw [runs, last200_of_le (same ▸ room limited)]
    exact pruned.kept run (kept run member path named (pruned.subset path there)) path named there
  · rw [rt.prune_unlimited (not_lt.mp limited)]
    exact kept

omit [Zero T] in
theorem prune_older (kept : Older world) : Older (rt.pruneScheduledBackups now world) := by
  by_cases limited : 0 < world.schedule.retentionDays
  · obtain ⟨removed, retained, left, pruned, -, -, -, -, gone⟩ := rt.prune_limited now limited
    intro removal member
    rw [gone] at member
    rcases mem_append.mp member with old | new
    · exact kept removal old
    · obtain ⟨run, inside, rfl⟩ := mem_map.mp new
      exact pruned.old run inside
  · rw [rt.prune_unlimited (not_lt.mp limited)]
    exact kept

omit [Zero T] in
/-- Whatever is listed and old is gone, so nothing old is left. -/
theorem prune_cleared (kept : Listed world) (limited : 0 < world.schedule.retentionDays) :
    Cleared (rt.cutoff world.schedule now) (rt.pruneScheduledBackups now world) := by
  obtain ⟨removed, retained, left, pruned, -, -, directories, made, -⟩ := rt.prune_limited now limited
  intro run member ok early path named there
  rw [made] at member
  rw [directories] at there
  exact pruned.gone run (kept run member path named (pruned.subset path there)) ok early path named there

/-- A tick leaves the world, defers the backup, or lists it and prunes. -/
theorem tick_cases (rt : Platform F T) (now : T) (attempt : Attempt κ) (world : World T κ) :
    (∃ schedule, schedule.runs = world.schedule.runs ∧
      rt.backupScheduleTick now attempt world = { world with schedule := schedule }) ∨
    ∃ report, attempt.report = some report ∧ due world.schedule now = true ∧ rt.backupScheduleTick now attempt world =
        rt.pruneScheduledBackups now (rt.listed now attempt report world) := by
  unfold backupScheduleTick
  dsimp only
  split
  · rename_i ran
    cases attempt with
    | busy detail =>
      refine .inl ⟨_, ?_, rfl⟩
      rfl
    | verified path attempts => exact .inr ⟨_, rfl, ran, rfl⟩
    | unverified path attempts error => exact .inr ⟨_, rfl, ran, rfl⟩
    | incomplete path error => exact .inr ⟨_, rfl, ran, rfl⟩
    | raised error left => exact .inr ⟨_, rfl, ran, rfl⟩
  · exact .inl ⟨_, rfl, rfl⟩

theorem tick_ran (rt : Platform F T) (ran : due world.schedule now = true)
    (reported : attempt.report = some report) : rt.backupScheduleTick now attempt world =
      rt.pruneScheduledBackups now (rt.listed now attempt report world) := by
  unfold backupScheduleTick
  dsimp only
  rw [if_pos ran]
  cases attempt <;> cases reported <;> rfl

omit [LinearOrder T] [DecidableEq κ] [Zero T] in
theorem configure_ok {body : Value F} {state after : State T κ}
    (configured : rt.configureBackupSchedule body now state = .ok after) :
    after.runs = state.runs ∧ 1 ≤ after.intervalHours ∧ 1 ≤ after.retryMinutes ∧
      (if after.enabled then (rt.nextBackupScheduleTime after.time now).map some else .ok none) =
        .ok after.nextRun := by
  obtain ⟨interval, -, configured⟩ := result_bind.mp configured
  obtain ⟨retention, -, configured⟩ := result_bind.mp configured
  obtain ⟨retry, -, configured⟩ := result_bind.mp configured
  obtain ⟨attempts, -, configured⟩ := result_bind.mp configured
  split at configured
  · cases configured
  rename_i hours
  split at configured
  · cases configured
  split at configured
  · cases configured
  rename_i minutes
  split at configured
  · cases configured
  obtain ⟨next, found, same⟩ := result_bind.mp configured
  cases same
  exact ⟨rfl, (not_not.mp hours).1, (not_not.mp minutes).1, found⟩

variable {call : Call F T κ}

theorem Listed.perform (kept : Listed world) (fresh : Fresh world call)
    (room : rt.Room world call) : Listed (rt.perform world call) := by
  cases call with
  | configure body now =>
    rw [Platform.perform]
    split
    · rename_i state configured
      intro run member path named there
      rw [(configure_ok configured).1]
      exact kept run member path named there
    · exact kept
  | tick now attempt =>
    rw [Platform.perform]
    rcases tick_cases rt now attempt world with ⟨schedule, same, left⟩ | ⟨report, reported, ran, made⟩
    · rw [left]
      intro run member path named there
      rw [same]
      exact kept run member path named there
    · rw [made]
      refine prune_listed (kept.listed fresh) fun limited => ?_
      rw [listed_retention] at limited
      rw [listed_cutoff]
      exact room report reported ran limited

theorem Older.perform (kept : Older world) (call : Call F T κ) : Older (rt.perform world call) := by
  cases call with
  | configure body now =>
    rw [Platform.perform]
    split <;> exact kept
  | tick now attempt =>
    rw [Platform.perform]
    rcases tick_cases rt now attempt world with ⟨schedule, -, left⟩ | ⟨report, -, -, made⟩
    · rw [left]
      exact kept
    · rw [made]
      exact prune_older kept

theorem run_snoc (rt : Platform F T) (calls : List (Call F T κ)) (call : Call F T κ) :
    rt.run (calls ++ [call]) = rt.perform (rt.run calls) call := by
  simp [run]

variable {holds : World T κ → Call F T κ → Prop} {calls : List (Call F T κ)}

theorem Throughout.before (all : rt.Throughout holds (calls ++ [call])) : rt.Throughout holds calls :=
  fun before other first => all before other (first.trans (prefix_append _ _))

theorem Throughout.nil : rt.Throughout holds [] :=
  fun before call first => absurd (prefix_nil.mp first) (by simp)

theorem Throughout.snoc (all : rt.Throughout holds calls) (last : holds (rt.run calls) call) :
    rt.Throughout holds (calls ++ [call]) := by
  intro before other first
  rcases prefix_concat_iff.mp first with same | earlier
  · obtain ⟨rfl, rfl⟩ := append_singleton_inj.mp same
    exact last
  · exact all before other earlier

theorem run_listed (fresh : rt.Throughout Fresh calls)
    (room : rt.Throughout rt.Room calls) : Listed (rt.run calls) := by
  induction calls using List.reverseRecOn with
  | nil => exact fun run member => absurd member not_mem_nil
  | append_singleton before call ih =>
    rw [run_snoc]
    exact (ih fresh.before room.before).perform (fresh before call (prefix_refl _)) (room before call (prefix_refl _))

theorem run_older (rt : Platform F T) (calls : List (Call F T κ)) : Older (rt.run calls) := by
  induction calls using List.reverseRecOn with
  | nil => exact fun removal member => absurd member not_mem_nil
  | append_singleton before call ih =>
    rw [run_snoc]
    exact ih.perform call

end Platform

def hourly : Platform Int Int where
  toRuntime := wholeRuntime
  plus time seconds := time + seconds
  digit char := if char.isDigit then some (char.toNat - '0'.toNat) else none
  nextTime hour minute now :=
    let candidate := now - now % 86400 + (hour * 3600 + minute * 60 : Nat)
    if candidate ≤ now then candidate + 86400 else candidate

def settings (intervalHours retentionDays : Int) : Value Int :=
  .object [("enabled", .bool true), ("time", .str "05:00"), ("intervalHours", .int intervalHours),
    ("retentionDays", .int retentionDays)]

def lengthened : List (Call Int Int Nat) :=
  [.configure (settings 24 1) 0, .tick 18000 (.verified 0 1), .tick 104401 (.verified 1 1),
    .configure (settings 24 10) 104500, .tick 190800 (.verified 2 1)]

def crowded : List (Call Int Int Nat) :=
  .configure (settings 1 30) 0 ::
    (List.range 201).map fun (hour : Nat) => .tick (18000 + 3600 * (hour : Int)) (.verified hour 1)

theorem lengthened_removed : ∃ removal ∈ (hourly.run lengthened).removed,
    ¬ removal.run.createdAt < hourly.cutoff (hourly.run lengthened).schedule 190800 := by
  decide

theorem crowded_dropped : (⟨⟨true, some 0, some 1, none⟩, 18000⟩ : Run Int Nat) ∈ (hourly.run crowded).made ∧
      0 ∈ (hourly.run crowded).directories ∧
      (⟨⟨true, some 0, some 1, none⟩, 18000⟩ : Run Int Nat) ∉ (hourly.run crowded).schedule.runs := by
  decide +kernel

def daily : List (Call Int Int Nat) := [.configure (settings 24 1) 0, .tick 18000 (.verified 0 1)]

theorem daily_fresh : hourly.Throughout Platform.Fresh (daily ++ [.tick 104401 (.verified 1 1)]) := by
  have set : hourly.Throughout Platform.Fresh ([] ++ [.configure (settings 24 1) 0] : List (Call Int Int Nat)) :=
    Platform.Throughout.nil.snoc trivial
  have first : hourly.Throughout Platform.Fresh daily := set.snoc (by
    rintro path ⟨⟩
    decide)
  refine first.snoc ?_
  rintro path ⟨⟩
  decide

theorem daily_room : hourly.Throughout hourly.Room (daily ++ [.tick 104401 (.verified 1 1)]) := by
  have set : hourly.Throughout hourly.Room ([] ++ [.configure (settings 24 1) 0] : List (Call Int Int Nat)) :=
    Platform.Throughout.nil.snoc trivial
  have first : hourly.Throughout hourly.Room daily := set.snoc (by
    rintro report ⟨⟩ - -
    decide)
  refine first.snoc ?_
  rintro report ⟨⟩ - -
  decide

end Dash.Backups
