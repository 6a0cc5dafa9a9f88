import Dash.Python.Text
import Mathlib.Order.Lattice

/-! The two job tables of the panel, restarts and announcements, and the worker over them.

The operations act under the tables' locks and are taken one at a time; the worker takes three kinds
of steps, on copies of the rows it has marked. Times are the clock's readings; adding seconds to one
and comparing what remains of a countdown are left to the interpreter. Of a request's values, those
are read that the checks and the tables depend on, as the interpreter coerces them.
-/

set_option autoImplicit false

namespace Dash.Maintenance

open Python

inductive AnnouncementStatus where
  | scheduled | delivering | sent | failed | expired | superseded | cancelled
  deriving DecidableEq, Repr

inductive RestartStatus where
  | scheduled | executing | awaitingReboot | superseded | cancelled | executed | failed
  deriving DecidableEq, Repr

def RestartStatus.text : RestartStatus → String
  | .scheduled => "scheduled"
  | .executing => "executing"
  | .awaitingReboot => "awaiting_reboot"
  | .superseded => "superseded"
  | .cancelled => "cancelled"
  | .executed => "executed"
  | .failed => "failed"

structure Cadence where
  (remainingSeconds intervalSeconds : Int)
  deriving DecidableEq, Repr

structure Announcement (T : Type) where
  (id message action delay : String)
  (createdAt restartAt : T)
  repeatSeconds : Int
  cadence : List Cadence
  nextSendAt : T
  lastSentAt : Option T := none
  deliveryCount : Nat := 0
  status : AnnouncementStatus := .scheduled
  lastError : Option String := none
  restartJobId : Option String := none
  finalSentAt : Option T := none
  cancelledAt : Option T := none
  deriving DecidableEq

structure Restart (T : Type) where
  (id target action delay : String)
  (createdAt runAt : T)
  message : String
  announce : Bool
  repeatSeconds : Int
  (execute backup requireSoftDisconnect : Bool)
  updatePolicy : String
  status : RestartStatus := .scheduled
  lastError : Option String := none
  automaticDailyMaintenanceKey : Option String := none
  cancelledAt : Option T := none
  rebootRequestedAt : Option T := none
  executedAt : Option T := none
  operationDeferrals : Nat := 0
  lastDeferredAt : Option T := none
  deriving DecidableEq

/-- The tables, and where the worker stands: the copies still to be delivered and to be executed, and
the jobs it has executed so far. -/
structure Board (T : Type) where
  announcements : List (Announcement T) := []
  restarts : List (Restart T) := []
  dueJobs : List (Announcement T) := []
  dueRestarts : List (Restart T) := []
  executions : List String := []
  deriving DecidableEq

variable {T : Type}

def Announcement.active (job : Announcement T) : Bool :=
  job.status = .scheduled || job.status = .delivering

def Restart.active (job : Restart T) : Bool :=
  job.status = .scheduled || job.status = .executing || job.status = .awaitingReboot

def Restart.inFlight (job : Restart T) : Bool :=
  job.status = .executing || job.status = .awaitingReboot

structure JobSettings (T : Type) where
  add : T → Int → T
  /-- `max(0, restartAt - now) <= seconds` -/
  remainsWithin : T → T → Int → Bool
  maxMessageBytes : Nat := 500
  targets : List String
  requireReceipt : Bool := true
  operationRetrySeconds : Int := 300

def announcementDelays : List (String × Int) :=
  [("immediate", 0), ("30s", 30), ("60s", 60), ("5min", 300), ("10min", 600), ("15min", 900),
    ("30min", 1800), ("60min", 3600), ("1hr", 3600), ("2hr", 7200), ("3hr", 10800), ("4hr", 14400),
    ("6hr", 21600), ("12hr", 43200)]

structure AnnouncementRequest (T : Type) where
  message : String
  delay : String := "immediate"
  repeatSeconds : Int := 60
  cadence : List Cadence := []
  restartAt : Option T := none
  nextSendAt : Option T := none
  action : String := "maintenance"
  restartJobId : String := ""

structure RestartRequest (T : Type) where
  target : String
  action : String := "restart"
  delay : String := "immediate"
  /-- the requested time, where there is one: `event_parse_time` may refuse it -/
  runAt : Option (Except String T) := none
  message : String := ""
  repeatSeconds : Int := 60
  announce : Bool := true
  execute : Bool := false
  backup : Bool := true
  requireSoftDisconnect : Bool := true
  updatePolicy : Option String := none
  automaticDailyMaintenance : Bool := false
  dailyMaintenanceKey : String := ""
  /-- what the operations calendar and its override say of an executing job -/
  calendar : Except String Unit := .ok ()
  announcementLeadSeconds : Int := 1800
  announcementCadence : Option (List Cadence) := none

section Operations

variable [LinearOrder T]

def checkCadence : List Cadence → Except String Unit
  | [] => .ok ()
  | entry :: rest =>
    if entry.remainingSeconds < 0 ∨ entry.remainingSeconds > 86400 then
      .error "cadence remaining_seconds must be between 0 and 86400"
    else if entry.intervalSeconds ≤ 0 ∨ entry.intervalSeconds > 86400 then
      .error "cadence interval_seconds must be between 1 and 86400"
    else checkCadence rest

/-- The announcement that a request asks for, before it is placed. -/
def announcementOf (settings : JobSettings T) (request : AnnouncementRequest T) (id : String)
    (now : T) : Except String (Announcement T) := do
  let message := strip request.message
  if message = "" then throw "message is required"
  if message.utf8ByteSize > settings.maxMessageBytes then
    throw ("message exceeds " ++ toString settings.maxMessageBytes ++ " bytes")
  let delay := strip request.delay
  let some seconds := announcementDelays.lookup delay | throw "invalid restart delay"
  if request.repeatSeconds < 0 ∨ request.repeatSeconds > 86400 then
    throw "repeat_seconds must be between 0 and 86400"
  checkCadence request.cadence
  let restartAt := request.restartAt.getD (settings.add now seconds)
  if request.restartAt.isSome ∧ restartAt < now then throw "restart_at must be in the future"
  let nextSendAt := request.nextSendAt.getD (settings.add now seconds)
  let action := strip request.action
  let restartJobId := strip request.restartJobId
  return {
    id := id
    message := message
    action := if action = "" then "maintenance" else action
    delay := delay
    createdAt := now
    restartAt := restartAt
    repeatSeconds := request.repeatSeconds
    cadence := request.cadence.mergeSort fun first second =>
      decide (first.remainingSeconds ≤ second.remainingSeconds)
    nextSendAt := min (max nextSendAt now) restartAt
    restartJobId := if restartJobId = "" then none else some restartJobId }

def supersedeAnnouncement (job : Announcement T) : Announcement T :=
  if job.active then { job with status := .superseded } else job

def placeAnnouncement (job : Announcement T) (board : Board T) : Board T :=
  { board with announcements := board.announcements.map supersedeAnnouncement ++ [job] }

def scheduleAnnouncement (settings : JobSettings T) (request : AnnouncementRequest T) (id : String)
    (now : T) (board : Board T) : Board T × Except String (Announcement T) :=
  match announcementOf settings request id now with
  | .error error => (board, .error error)
  | .ok job => (placeAnnouncement job board, .ok job)

/-- `job_id and job.get("id") != job_id` skips a job. -/
def named (wanted : Option String) (id : String) : Bool :=
  match wanted with
  | some text => text = "" || id = text
  | none => true

def cancelMatching (condition : Announcement T → Bool) (now : T) (board : Board T) : Board T :=
  { board with
    announcements := board.announcements.map fun job =>
      if job.active && condition job then { job with status := .cancelled, cancelledAt := some now }
      else job }

def cancelAnnouncement (wanted : Option String) (now : T) (board : Board T) : Board T :=
  cancelMatching (fun job => named wanted job.id) now board

def announcementNextInterval (settings : JobSettings T) (job : Announcement T) (now : T) : Int :=
  match job.cadence.find? fun entry =>
    settings.remainsWithin job.restartAt now entry.remainingSeconds && decide (0 < entry.intervalSeconds) with
  | some entry => entry.intervalSeconds
  | none => job.repeatSeconds

def dailyJob (key : String) (board : Board T) : Option (Restart T) :=
  if key = "" then none
  else board.restarts.find? fun job => job.active && job.automaticDailyMaintenanceKey = some key

def dailyKey (request : RestartRequest T) : String :=
  if request.automaticDailyMaintenance then clip 128 (strip request.dailyMaintenanceKey) else ""

def runTime (settings : JobSettings T) (request : RestartRequest T) (delay : String) (now : T) :
    Except String (T × String) :=
  match request.runAt with
  | some parsed => do
    let runAt ← parsed
    if runAt < settings.add now 30 then
      throw "custom restart runAt must be at least 30 seconds in the future"
    if settings.add now (30 * 86400) < runAt then throw "custom restart runAt must be within 30 days"
    return (runAt, "custom")
  | none =>
    match announcementDelays.lookup delay with
    | some seconds => return (settings.add now seconds, delay)
    | none => throw "invalid restart delay"

def announces (request : RestartRequest T) : Bool := request.announce && strip request.message ≠ ""

def checkRestart (settings : JobSettings T) (request : RestartRequest T) : Except String String := do
  let target := strip request.target
  if target ∉ settings.targets then throw "invalid restart target"
  if request.action ≠ "restart" ∧ request.action ≠ "shutdown" then throw "invalid restart action"
  if request.runAt.isNone ∧ (announcementDelays.lookup (strip request.delay)).isNone then
    throw "invalid restart delay"
  let policy := request.updatePolicy.getD
    (if target ≠ "all" then "current" else if settings.requireReceipt then "certified" else "automatic")
  if policy ≠ "current" ∧ policy ≠ "certified" ∧ policy ≠ "automatic" then
    throw "invalid restart update policy"
  if target ≠ "all" ∧ policy ≠ "current" then
    throw "targeted restarts must use the current-build update policy"
  if policy = "automatic" ∧ settings.requireReceipt then
    throw "automatic restart updates require DUNE_UPDATE_REQUIRE_READINESS_RECEIPT=false"
  return policy

/-- The restart that a request asks for, before it is placed. -/
def restartOf (settings : JobSettings T) (request : RestartRequest T) (policy id : String) (now : T) :
    Except String (Restart T) := do
  let (runAt, delay) ← runTime settings request (strip request.delay) now
  let runAt := if announces request ∧ runAt ≤ now then settings.add now 1 else runAt
  if request.execute then request.calendar
  return {
    id := id
    target := strip request.target
    action := request.action
    delay := delay
    createdAt := now
    runAt := runAt
    message := strip request.message
    announce := request.announce
    repeatSeconds := request.repeatSeconds
    execute := request.execute
    backup := request.backup
    requireSoftDisconnect := request.requireSoftDisconnect
    updatePolicy := policy
    automaticDailyMaintenanceKey := if dailyKey request = "" then none else some (dailyKey request) }

def supersedeRestart (job : Restart T) : Restart T :=
  if job.status = .scheduled then { job with status := .superseded } else job

def placeRestart (job : Restart T) (board : Board T) : Except String (Board T) :=
  match board.restarts.find? Restart.inFlight with
  | some busy => .error ("cannot replace maintenance job " ++ busy.id ++ ": state is "
      ++ busy.status.text)
  | none => .ok { board with restarts := board.restarts.map supersedeRestart ++ [job] }

def defaultCadence : List Cadence := [⟨1800, 300⟩, ⟨300, 60⟩]

/-- The countdown of a restart. -/
def countdown (settings : JobSettings T) (request : RestartRequest T) (job : Restart T) (now : T) :
    AnnouncementRequest T where
  message := job.message
  repeatSeconds := request.repeatSeconds
  cadence := request.announcementCadence.getD defaultCadence
  restartAt := some job.runAt
  nextSendAt := some (max now (settings.add job.runAt
    (-(max 30 (min (if request.announcementLeadSeconds = 0 then 1800
      else request.announcementLeadSeconds) 86400)))))
  action := job.action
  restartJobId := job.id

def scheduleRestart (settings : JobSettings T) (request : RestartRequest T)
    (id announcementId : String) (now announcedAt : T) (board : Board T) :
    Board T × Except String (Restart T) :=
  match checkRestart settings request with
  | .error error => (board, .error error)
  | .ok policy =>
    match dailyJob (dailyKey request) board with
    | some existing => (board, .ok existing)
    | none =>
      match restartOf settings request policy id now with
      | .error error => (board, .error error)
      | .ok job =>
        match placeRestart job board with
        | .error error => (board, .error error)
        | .ok placed =>
          if announces request then
            match scheduleAnnouncement settings (countdown settings request job now) announcementId
                announcedAt placed with
            | (announced, .ok _) => (announced, .ok job)
            | (announced, .error error) => (announced, .error error)
          else (placed, .ok job)

def cancelRestart (wanted : Option String) (now : T) (board : Board T) : Board T × Except String Unit :=
  match if wanted.getD "" = "" then none
      else board.restarts.find? fun job => named wanted job.id && job.inFlight with
  | some busy => (board, .error ("cannot cancel maintenance job " ++ busy.id ++ ": state is "
      ++ busy.status.text))
  | none =>
    let cancels (job : Restart T) : Bool := named wanted job.id && decide (job.status = .scheduled)
    let cancelled := (board.restarts.filter cancels).map Restart.id
    let board := { board with
      restarts := board.restarts.map fun job =>
        if cancels job then { job with status := .cancelled, cancelledAt := some now } else job }
    (cancelMatching (fun job => job.restartJobId.any fun id => id ∈ cancelled) now board, .ok ())

def expires (now : T) (job : Announcement T) : Bool :=
  decide (job.restartAt ≤ now) && job.finalSentAt.isSome

def markAnnouncement (now : T) (job : Announcement T) : Announcement T :=
  if !job.active then job
  else if expires now job then { job with status := .expired }
  else if job.nextSendAt ≤ now then { job with status := .delivering }
  else job

def dueAnnouncement (now : T) (job : Announcement T) : Bool :=
  job.active && !expires now job && decide (job.nextSendAt ≤ now)

def dueRestart (now : T) (job : Restart T) : Bool :=
  job.active && job.status ≠ .awaitingReboot && decide (job.runAt ≤ now)

def markRestart (now : T) (job : Restart T) : Restart T :=
  if dueRestart now job then { job with status := .executing } else job

def mark (now : T) (board : Board T) : Board T :=
  if board.dueJobs = [] ∧ board.dueRestarts = [] then
    { board with
      announcements := board.announcements.map (markAnnouncement now)
      dueJobs := (board.announcements.filter (dueAnnouncement now)).map (markAnnouncement now)
      restarts := board.restarts.map (markRestart now)
      dueRestarts := (board.restarts.filter (dueRestart now)).map (markRestart now) }
  else board

structure Delivery where
  ok : Bool
  error : Option String := none
  output : Option String := none

def Delivery.lastError (result : Delivery) : Option String :=
  if result.ok then none
  else match result.error with
    | some error => if error = "" then result.output else some error
    | none => result.output

structure Readings (T : Type) where
  (sent interval checked stamped : T)

def delivered (settings : JobSettings T) (result : Delivery) (readings : Readings T)
    (job : Announcement T) : Announcement T :=
  let job := { job with
    deliveryCount := job.deliveryCount + 1
    lastSentAt := some readings.sent
    lastError := result.lastError }
  let repeatSeconds := announcementNextInterval settings job readings.interval
  if job.restartAt ≤ readings.checked then
    { job with finalSentAt := some readings.stamped, status := .expired }
  else if repeatSeconds ≤ 0 then { job with status := if result.ok then .sent else .failed }
  else { job with
    status := .scheduled
    nextSendAt := min (settings.add readings.stamped repeatSeconds) job.restartAt }

def deliver (settings : JobSettings T) (result : Delivery) (readings : Readings T) (board : Board T) : Board T :=
  match board.dueJobs with
  | [] => board
  | due :: rest => { board with
      dueJobs := rest
      announcements := board.announcements.map fun job =>
        if job.id = due.id && job.active then delivered settings result readings job else job }

/-- `set_restart_job_status`, which an execution calls around a reboot. -/
def setStatus (awaiting : Bool) (now : T) (board : Board T) : Board T :=
  match board.dueJobs, board.dueRestarts with
  | [], due :: _ => { board with
      restarts := board.restarts.map fun job =>
        if job.id = due.id then
          if awaiting then { job with status := .awaitingReboot, rebootRequestedAt := some now }
          else { job with status := .executing }
        else job }
  | _, _ => board

structure Execution where
  ok : Bool
  deferred : Bool := false
  operationDeferred : Bool := false
  retrySeconds : Int := 0
  error : Option String := none
  output : Option String := none

def deferRestartOperation (settings : JobSettings T) (result : Execution) (id : String) (now : T)
    (restarts : List (Restart T)) : List (Restart T) :=
  let retrySeconds := max 30 (min (if result.retrySeconds = 0 then settings.operationRetrySeconds
    else result.retrySeconds) 3600)
  restarts.map fun job =>
    if job.id = id && decide (job.status = .executing) then { job with
      status := .scheduled
      runAt := settings.add now retrySeconds
      operationDeferrals := job.operationDeferrals + 1
      lastDeferredAt := some now
      lastError := none }
    else job

def recordExecution (result : Execution) (id : String) (now : T) (restarts : List (Restart T)) : List (Restart T) :=
  restarts.map fun job =>
    if job.id = id && job.inFlight && !(job.status = .awaitingReboot && result.deferred) then { job with
      executedAt := some now
      status := if result.ok then .executed else .failed
      lastError := Delivery.lastError ⟨result.ok, result.error, result.output⟩ }
    else job

/-- An execution of a due copy has come to its result. -/
def finish (settings : JobSettings T) (result : Execution) (now : T) (board : Board T) : Board T :=
  match board.dueJobs, board.dueRestarts with
  | [], due :: rest => { board with
      dueRestarts := rest
      executions := board.executions ++ [due.id]
      restarts :=
        if result.operationDeferred then
          deferRestartOperation settings result due.id now board.restarts
        else recordExecution result due.id now board.restarts }
  | _, _ => board

inductive Call (T : Type) where
  | scheduleRestart (request : RestartRequest T) (id announcementId : String) (now announcedAt : T)
  | cancelRestart (wanted : Option String) (now : T)
  | scheduleAnnouncement (request : AnnouncementRequest T) (id : String) (now : T)
  | cancelAnnouncement (wanted : Option String) (now : T)
  | mark (now : T)
  | deliver (result : Delivery) (readings : Readings T)
  | setStatus (awaiting : Bool) (now : T)
  | finish (result : Execution) (now : T)

def perform (settings : JobSettings T) (board : Board T) : Call T → Board T
  | .scheduleRestart request id announcementId now announcedAt =>
    (scheduleRestart settings request id announcementId now announcedAt board).1
  | .cancelRestart wanted now => (cancelRestart wanted now board).1
  | .scheduleAnnouncement request id now => (scheduleAnnouncement settings request id now board).1
  | .cancelAnnouncement wanted now => cancelAnnouncement wanted now board
  | .mark now => mark now board
  | .deliver result readings => deliver settings result readings board
  | .setStatus awaiting now => setStatus awaiting now board
  | .finish result now => finish settings result now board

def run (settings : JobSettings T) (calls : List (Call T)) : Board T :=
  calls.foldl (perform settings) {}

end Operations

end Dash.Maintenance
