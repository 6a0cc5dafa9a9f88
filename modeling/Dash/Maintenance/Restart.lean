import Dash.Foundation.Effectful
import Dash.Python.Text

/-! The restart of the farm: disconnect, stop, back up, update, reboot or start.

What the commands, the backup and the state file answer is given; the durations that the result
also records are left out. The log lists what was done outside, in order.
-/

set_option autoImplicit false

namespace Dash.Maintenance

open Foundation Python

inductive Phase where
  | stop | shutdown | update | reboot | start
  deriving DecidableEq, Repr

/-- A maintenance job; an entry that is absent is `none`. -/
structure RestartJob where
  (id target : String)
  services : List String := []
  action : Option String := none
  updatePolicy : Option String := none
  requireSoftDisconnect : Option Bool := none
  backup : Option Bool := none
  execute : Bool
  deriving DecidableEq

def RestartJob.getAction (job : RestartJob) : String := job.action.getD "restart"

structure Settings where
  lower : String → String
  restartCommand : String
  operationRetrySeconds : Nat := 300
  maintenanceBackupEnabled : Bool := true
  rebootAfterSteamUpdate : Bool := false
  updateReadinessEnabled : Bool := true
  updateReadinessRequireReceipt : Bool := true

inductive Completion where
  | exited (returncode : Int) (stdout stderr : String)
  | raised (error : String)

structure CommandResult where
  ok : Bool
  phase : Option Phase
  returncode : Option Int := none
  output : Option String := none
  error : Option String := none
  skipped : Bool := false
  reason : Option String := none
  deriving DecidableEq

structure Candidate where
  status : Option String
  updateRequired : Bool

structure Readiness where
  candidate : Option Candidate
  failedChecks : List String
  (applyReady currentReceiptReady : Bool)
  latest : Option (String × String)

structure Preflight where
  ok : Bool
  policy : String
  effectivePolicy : Option String := none
  checkSteamUpdate : Bool := false
  steamUpdateMode : Option String := none
  candidate : Option Candidate := none
  candidateUpdateBlocked : Bool := false
  failedChecks : List String := []
  receiptId : Option String := none
  receiptSha256 : Option String := none
  reason : Option String := none
  error : Option String := none

structure Disconnect where
  ok : Bool
  enabled : Bool := true
  skipped : Option String := none
  error : Option String := none

structure BackupReport where
  (ok verified : Bool)
  path : Option String := none
  error : Option String := none
  output : Option String := none

structure Online where
  ok : Bool
  error : Option String := none

structure Recovery where
  ok : Bool
  skipped : Bool := false
  error : Option String := none

inductive Lock where
  | acquired
  | busy (error : String)
  | raised (error : String)

structure Outcomes where
  lock : Lock
  executable : Bool
  readiness : Except String Readiness
  disconnect : Except String Disconnect
  command : Phase → Completion
  /-- `create_maintenance_backup`, with the set's path -/
  backup : Except String String
  verification : Except String Bool
  (awaitingReboot executing : Except String Unit)
  online : Online
  recovery : Except String Recovery
  onlineAfterRecovery : Online

inductive Deed where
  | command (phase : Phase) (checkSteamUpdate : Bool) (steamUpdateMode : Option String)
      (result : CommandResult)
  | disconnected
  | backedUp (verified : Bool)
  | status (job status : String)
  | recovered
  | awaitedOnline (ok : Bool)

abbrev Maintaining (α : Type) : Type := Logged Deed String α

structure Result where
  ok : Bool
  action : String
  dryRun : Bool := false
  deferred : Bool := false
  operationDeferred : Bool := false
  retrySeconds : Option Nat := none
  updatePreflight : Option Preflight := none
  disconnect : Option Disconnect := none
  stop : Option CommandResult := none
  backup : Option BackupReport := none
  update : Option CommandResult := none
  reboot : Option CommandResult := none
  start : Option CommandResult := none
  recovery : Option Recovery := none
  online : Option Online := none
  serviceRecovered : Bool := false
  updateApplied : Bool := false
  updateSuppressedByBackupFailure : Bool := false
  returncode : Option Int := none
  warnings : List String := []
  error : Option String := none
  output : Option String := none

/-- `value or fallback` -/
def orElse (value : Option String) (fallback : String) : String :=
  match value with
  | some text => if text = "" then fallback else text
  | none => fallback

def joinParts (parts : List (Option String)) : String :=
  join "\n" ((parts.map fun part => part.getD "").filter fun part => part ≠ "")

def auditFieldLimit : Nat := 240

def truncated (output : String) : String :=
  if output.length > auditFieldLimit then clip auditFieldLimit output ++ "...[truncated]" else output

def appendRestartWarning (result : Result) (warning : String) : Result :=
  if warning = "" then result else { result with warnings := result.warnings ++ [warning] }

def contains (mark text : String) : Bool :=
  text.toList.tails.any fun rest => mark.toList.isPrefixOf rest

def steamUpdateWasApplied (result : CommandResult) : Bool :=
  ["DUNE_STEAM_UPDATE_APPLIED=", "status: update available",
    "loading official Dune images from Steam package because Steam build changed under same Docker tag"].any
    fun mark => contains mark (result.output.getD "")

def currentFallback (policy reason : String) (candidate : Option Candidate)
    (failedChecks : List String) : Preflight where
  ok := true
  policy := policy
  effectivePolicy := some "current"
  steamUpdateMode := some "none"
  candidate := candidate
  candidateUpdateBlocked := (candidate.map Candidate.updateRequired).getD false
  failedChecks := failedChecks
  reason := some (clip 1000 reason)

def certified (policy : String) (readiness : Readiness) : Preflight :=
  let updateRequired := (readiness.candidate.map Candidate.updateRequired).getD false
  let status := orElse (readiness.candidate.bind Candidate.status) "unknown"
  if status = "current" ∧ !updateRequired then
    currentFallback policy "the staged package already matches the loaded build" readiness.candidate []
  else if !updateRequired then
    currentFallback policy "the staged update candidate is not identifiable; maintenance is pinned to the current build"
      readiness.candidate []
  else if !readiness.applyReady || !readiness.currentReceiptReady then
    currentFallback policy
      "the staged update candidate does not have a current passing readiness receipt; maintenance is pinned to the current build"
      readiness.candidate readiness.failedChecks
  else
    { ok := true, policy := policy, effectivePolicy := some "certified", checkSteamUpdate := true,
      steamUpdateMode := some "none", candidate := readiness.candidate,
      receiptId := readiness.latest.map Prod.fst, receiptSha256 := readiness.latest.map Prod.snd,
      reason := some "the exact staged candidate has a current passing readiness receipt" }

def policyOf (settings : Settings) (job : RestartJob) : String :=
  settings.lower (strip (orElse job.updatePolicy "current"))

def restartUpdatePreflight (settings : Settings) (readiness : Except String Readiness)
    (job : RestartJob) : Preflight :=
  let policy := policyOf settings job
  if policy ≠ "current" ∧ policy ≠ "certified" ∧ policy ≠ "automatic" then
    { ok := false, policy := policy, error := some "invalid restart update policy" }
  else if job.target ≠ "all" ∧ policy ≠ "current" then
    { ok := false, policy := policy,
      error := some "targeted restarts cannot change the farm build" }
  else if policy = "current" then
    { ok := true, policy := policy, steamUpdateMode := some "none",
      reason := some "maintenance is bound to the currently loaded build" }
  else if policy = "automatic" then
    if settings.updateReadinessRequireReceipt then
      { ok := false, policy := policy,
        error := some "automatic update acquisition is blocked while readiness receipts are required" }
    else
      { ok := true, policy := policy, checkSteamUpdate := true,
        reason := some "legacy automatic acquisition was explicitly enabled" }
  else if !settings.updateReadinessEnabled then
    currentFallback policy "update readiness is disabled; maintenance is pinned to the current build" none []
  else
    match readiness with
    | .error error =>
      currentFallback policy ("update readiness preflight failed; maintenance is pinned to the current build: "
        ++ clip 800 error) none []
    | .ok readiness => certified policy readiness

structure SteamCheck where
  enabled : Bool
  mode : Option String

def commandResult (phase : Phase) : Completion → CommandResult
  | .raised error => { ok := false, phase := some phase, error := some error }
  | .exited returncode stdout stderr =>
    { ok := decide (returncode = 0), phase := some phase, returncode := some returncode,
      output := some (truncated (strip (stdout ++ stderr))) }

def runRestartCommand (outcomes : Outcomes) (steam : SteamCheck) (phase : Phase) :
    Maintaining CommandResult := do
  let result := commandResult phase (outcomes.command phase)
  Logged.note (.command phase steam.enabled steam.mode result)
  return result

def setRestartJobStatus (written : Except String Unit) (job : RestartJob) (status : String) :
    Maintaining Unit := do
  Logged.lift written
  Logged.note (.status job.id status)

/-- The backup of a stopped farm: what the result keeps of it, and why it does not allow an update. -/
def backUp (settings : Settings) (outcomes : Outcomes) (job : RestartJob) (steam : SteamCheck)
    (result : Result) : Maintaining (Result × Option String) :=
  if job.backup.getD true && settings.maintenanceBackupEnabled then
    match outcomes.backup with
    | .error error => return failed error
    | .ok path =>
      match outcomes.verification with
      | .error error => return failed error
      | .ok verified => do
        Logged.note (.backedUp verified)
        let report : BackupReport := { ok := verified, verified := verified, path := some path }
        return ({ result with backup := some report },
          if verified then none else some "maintenance backup verification failed")
  else if steam.enabled then
    return (result, some ("a verified maintenance backup is required before applying an update; "
      ++ (if !job.backup.getD true then "this job disabled backups"
          else "maintenance backups are disabled")))
  else return (result, none)
where
  failed (error : String) : Result × Option String :=
    let failure := "maintenance backup failed: " ++ error
    ({ result with
        backup := some { ok := false, verified := false, error := some error, output := some failure }
        output := some (strip (((result.stop.bind CommandResult.output).getD "")
          ++ "\nbackup failed: " ++ error)) },
      some failure)

/-- The update of a stopped farm, unless its backup failed. -/
def update (outcomes : Outcomes) (steam : SteamCheck) (result : Result) (failure : Option String) :
    Maintaining (Result × CommandResult × SteamCheck) :=
  match failure with
  | some failure => do
    let suppressed : CommandResult :=
      { ok := true, phase := none, skipped := true
        reason := some "update suppressed because no verified recovery backup was available"
        output := some (if result.action = "restart" then
          "update suppressed; restarting the current build to recover service"
          else "update suppressed") }
    return ({ appendRestartWarning result failure with
      updateSuppressedByBackupFailure := steam.enabled }, suppressed, ⟨false, some "none"⟩)
  | none => do
    let updated ← runRestartCommand outcomes steam .update
    return (result, updated, steam)

def requestReboot (outcomes : Outcomes) (job : RestartJob) (steam : SteamCheck) (result : Result)
    (outputs : List (Option String)) : Maintaining Result := do
  setRestartJobStatus outcomes.awaitingReboot job "awaiting_reboot"
  let rebooted ← runRestartCommand outcomes steam .reboot
  let result := { result with
    reboot := some rebooted
    ok := rebooted.ok
    deferred := true
    output := some (joinParts (outputs ++ [rebooted.output])) }
  if rebooted.ok then return result
  else do
    setRestartJobStatus outcomes.executing job "executing"
    return { result with
      error := some (orElse rebooted.error "failed to request update-triggered host reboot") }

def recover (outcomes : Outcomes) (online : Online) : Maintaining (Option Recovery × Online) :=
  if online.ok then return (none, online)
  else do
    let recovery ← Logged.lift outcomes.recovery
    Logged.note .recovered
    if recovery.ok then do
      Logged.note (.awaitedOnline outcomes.onlineAfterRecovery.ok)
      return (some recovery, outcomes.onlineAfterRecovery)
    else return (some recovery, online)

def returncodeText (returncode : Option Int) : String :=
  match returncode with
  | some code => toString code
  | none => "None"

def explainStart (result : Result) (started : CommandResult) (online : Online) (failure : Option String) : Result :=
  if started.returncode = some 141 ∧ online.ok then
    appendRestartWarning result "restart start hook returned 141, but farm reported fully online after verification"
  else if !started.ok then
    { result with error := some (orElse started.error
      ("restart start hook failed with return code " ++ returncodeText started.returncode)) }
  else if !online.ok then
    { result with
      error := some "restart start hook completed, but farm did not report fully online before timeout" }
  else { result with error := failure }

def startFarm (outcomes : Outcomes) (steam : SteamCheck) (result : Result) (failure : Option String)
    (stopped updated : CommandResult) : Maintaining Result := do
  let steam := if failure.isSome then ⟨false, some "none"⟩ else steam
  let started ← runRestartCommand outcomes steam .start
  Logged.note (.awaitedOnline outcomes.online.ok)
  let (recovery, online) ← recover outcomes outcomes.online
  let startOk := started.ok || (decide (started.returncode = some 141) && online.ok)
  let serviceRecovered := startOk && online.ok
  let result := { result with
    start := some started
    recovery := recovery
    online := some online
    serviceRecovered := serviceRecovered
    ok := serviceRecovered && failure.isNone
    returncode := started.returncode }
  let result := explainStart result started online failure
  return { result with
    output := some (truncated (joinParts [stopped.output, result.backup.bind BackupReport.output,
      updated.output, started.output])) }

/-- What follows the update of a stopped farm. -/
def resume (settings : Settings) (outcomes : Outcomes) (job : RestartJob) (steam : SteamCheck)
    (stopped updated : CommandResult) (result : Result) (failure : Option String) :
    Maintaining Result :=
  let result := { result with update := some updated }
  let (result, failure) :=
    if updated.ok then (result, failure)
    else
      let warning := orElse updated.error "Steam package update check failed"
      ({ appendRestartWarning result warning with
        output := some (joinParts [stopped.output, updated.output, some warning]) }, some warning)
  let result := { result with updateApplied := steamUpdateWasApplied updated }
  if job.getAction = "shutdown" then
    return { result with
      ok := failure.isNone && updated.ok
      error := failure
      output := some (joinParts [stopped.output, updated.output]) }
  else if failure.isNone && settings.rebootAfterSteamUpdate && decide (job.target = "all")
      && result.updateApplied then
    requestReboot outcomes job steam result [stopped.output, updated.output]
  else startFarm outcomes steam result failure stopped updated

def maintain (settings : Settings) (outcomes : Outcomes) (job : RestartJob) (steam : SteamCheck)
    (stopped : CommandResult) (result : Result) : Maintaining Result := do
  let (result, failure) ← backUp settings outcomes job steam result
  let (result, updated, steam) ← update outcomes steam result failure
  resume settings outcomes job steam stopped updated result failure

def softDisconnect (outcomes : Outcomes) (job : RestartJob) : Maintaining Disconnect :=
  if job.requireSoftDisconnect.getD true then do
    let disconnected ← Logged.lift outcomes.disconnect
    Logged.note .disconnected
    return disconnected
  else return { ok := true, enabled := false
                skipped := some "soft disconnect not required for this maintenance job" }

def executeRestartLocked (settings : Settings) (outcomes : Outcomes) (job : RestartJob) :
    Maintaining Result := do
  let action := job.getAction
  if !job.execute then
    return { ok := true, action := action, dryRun := true
             output := some ("scheduled " ++ action ++ " reached run time; execute=false so no command was run") }
  else if !outcomes.executable then
    return { ok := false, action := action
             error := some ("restart command is not executable: " ++ settings.restartCommand) }
  else do
    let preflight := restartUpdatePreflight settings outcomes.readiness job
    if !preflight.ok then
      let error := preflight.error.getD "restart update preflight failed"
      return { ok := false, action := action, updatePreflight := some preflight
               error := some error, output := some error }
    else do
      let steam : SteamCheck := ⟨preflight.checkSteamUpdate, preflight.steamUpdateMode⟩
      let disconnected ← softDisconnect outcomes job
      if !disconnected.ok then
        let error := disconnected.error.getD "soft disconnect failed"
        return { ok := false, action := action, disconnect := some disconnected
                 error := some error, output := some error }
      else do
        let stopped ← runRestartCommand outcomes steam (if action = "shutdown" then .shutdown else .stop)
        let result : Result := { ok := false, action := action, updatePreflight := some preflight
                                 disconnect := some disconnected, stop := some stopped }
        if !stopped.ok then
          return { result with output := some (stopped.output.getD (stopped.error.getD "")) }
        else maintain settings outcomes job steam stopped result

def executeRestart (settings : Settings) (outcomes : Outcomes) (job : RestartJob) : Maintaining Result :=
  if !job.execute then executeRestartLocked settings outcomes job
  else
    match outcomes.lock with
    | .acquired => executeRestartLocked settings outcomes job
    | .raised error => Logged.lift (.error error)
    | .busy error =>
      return { ok := false, action := job.getAction, deferred := true, operationDeferred := true
               error := some error, output := some error
               retrySeconds := some settings.operationRetrySeconds }

def workerResult (settings : Settings) (outcomes : Outcomes) (job : RestartJob) : Result :=
  match (executeRestart settings outcomes job).outcome with
  | .ok result => result
  | .error error =>
    let failure := "unhandled maintenance execution failure: " ++ error
    { ok := false, action := job.getAction, error := some failure, output := some failure }

end Dash.Maintenance
