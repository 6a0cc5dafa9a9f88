import Dash.Foundation.Attempts
import Dash.Maintenance.Agreement
import Dash.Python.Plain

/-! `schedule_restart` and `schedule_announcement` on the bodies of requests, and what a refused one leaves.

What the operations calendar answers, how a time is read and float arithmetic are the interpreter's. The
job tables are those of the maintenance worker.
-/

set_option autoImplicit false

namespace Dash.Maintenance

open Python

variable {F T : Type}

structure Conflict where
  (leftId rightId reason : String)
  deriving DecidableEq, Repr

structure Panel (F T : Type) extends Runtime F where
  settings : JobSettings T
  /-- `float(value)` of a time. -/
  float : Value F → Python.Result T
  /-- `event_parse_time(value).timestamp()` -/
  eventTime : Value F → Python.Result T
  /-- The critical conflicts that `operations_calendar_restart_admission` finds, unless it raises. -/
  admission : T → String → Python.Result (List Conflict)
  confirmCalendarConflictOverride : String

/-- The fields of an announcement's request as they are looked up. A time that is missing is `none`. -/
structure AnnouncementFields (F T : Type) where
  (message delay repeatSeconds cadence : Value F)
  restartAt : Option (Python.Result T)
  nextSendAt : Option (Python.Result T)
  (action restartJobId : Value F)

inductive Admitted (T : Type) where
  /-- An active job of the same daily maintenance is returned. -/
  | existing (job : Restart T)
  | fresh (job : Restart T) (announces : Bool)

namespace Panel

variable (rt : Panel F T)

def flag (value : Value F) : Bool := decide (rt.lower (rt.str value) ∈ ["1", "true", "yes", "on"])

def either (body : Value F) (first second : String) (other : Value F) : Value F :=
  getOr body first (getOr body second other)

def intOr (value : Value F) (other : Int) : Python.Result Int := rt.int (rt.orElse value (.int other))

def cadenceEntry (entry : Value F) : Python.Result Cadence :=
  if !entry.isDict then valueError "cadence entries must be objects"
  else do
    let remainingSeconds ← rt.intOr (either entry "remaining_seconds" "remainingSeconds" (.int 0)) 0
    let intervalSeconds ← rt.intOr (either entry "interval_seconds" "intervalSeconds" (.int 0)) 0
    if remainingSeconds < 0 ∨ remainingSeconds > 86400 then
      valueError "cadence remaining_seconds must be between 0 and 86400"
    else if intervalSeconds ≤ 0 ∨ intervalSeconds > 86400 then
      valueError "cadence interval_seconds must be between 1 and 86400"
    else .ok ⟨remainingSeconds, intervalSeconds⟩

def cadenceOf : Value F → Python.Result (List Cadence)
  | .none => .ok []
  | .list entries => entries.mapM rt.cadenceEntry
  | _ => valueError "cadence must be a list"

section Announcement

variable [LinearOrder T]

/-- The announcement that is placed. -/
def announcement (fields : AnnouncementFields F T) (id : String) (now : T) : Python.Result (Announcement T) :=
  let message := strip (rt.str fields.message)
  if message = "" then valueError "message is required"
  else if message.utf8ByteSize > rt.settings.maxMessageBytes then
    valueError ("message exceeds " ++ toString rt.settings.maxMessageBytes ++ " bytes")
  else
    let delay := strip (rt.str fields.delay)
    match announcementDelays.lookup delay with
    | none => valueError "invalid restart delay"
    | some seconds => do
      let repeatSeconds ← rt.intOr fields.repeatSeconds 0
      if repeatSeconds < 0 ∨ repeatSeconds > 86400 then
        valueError "repeat_seconds must be between 0 and 86400"
      else do
        let cadence ← rt.cadenceOf fields.cadence
        let restartAt ← (match fields.restartAt with
          | none => .ok (rt.settings.add now seconds)
          | some read => do
            let restartAt ← read
            if restartAt < now then valueError "restart_at must be in the future"
            else .ok restartAt : Python.Result T)
        let nextSendAt ← fields.nextSendAt.getD (.ok (rt.settings.add now seconds))
        let action := strip (rt.str fields.action)
        let restartJobId := strip (rt.str fields.restartJobId)
        .ok {
          id := id
          message := message
          action := if action = "" then "maintenance" else action
          delay := delay
          createdAt := now
          restartAt := restartAt
          repeatSeconds := repeatSeconds
          cadence := cadence.mergeSort fun first second =>
            decide (first.remainingSeconds ≤ second.remainingSeconds)
          nextSendAt := min (max nextSendAt now) restartAt
          restartJobId := if restartJobId = "" then none else some restartJobId }

def time (value : Value F) : Option (Python.Result T) :=
  if value.isNone then none else some (rt.float value)

def announcementFields (body : Value F) : AnnouncementFields F T where
  message := getOr body "message" (.str "")
  delay := getOr body "delay" (.str "immediate")
  repeatSeconds := either body "repeat_seconds" "repeatSeconds" (.int 60)
  cadence := either body "cadence" "announcementCadence" (.list [])
  restartAt := rt.time (either body "restart_at" "restartAt" .none)
  nextSendAt := rt.time (either body "next_send_at" "nextSendAt" .none)
  action := getOr body "action" (.str "maintenance")
  restartJobId := either body "restart_job_id" "restartJobId" (.str "")

def scheduleAnnouncement (fields : AnnouncementFields F T) (id : String) (now : T) (board : Board T) :
    Board T × Python.Result (Announcement T) :=
  match rt.announcement fields id now with
  | .error why => (board, .error why)
  | .ok job => (placeAnnouncement job board, .ok job)

def updatePolicy (body : Value F) (target : String) : Python.Result String :=
  let other := if target ≠ "all" then "current"
    else if rt.settings.requireReceipt then "certified" else "automatic"
  let policy := rt.lower (strip (rt.str (either body "update_policy" "updatePolicy" (.str other))))
  if policy ∉ ["current", "certified", "automatic"] then valueError "invalid restart update policy"
  else if target ≠ "all" ∧ policy ≠ "current" then
    valueError "targeted restarts must use the current-build update policy"
  else if policy = "automatic" ∧ rt.settings.requireReceipt then
    valueError "automatic restart updates require DUNE_UPDATE_REQUIRE_READINESS_RECEIPT=false"
  else .ok policy

/-- When the restart is to run, with its delay's name. -/
def runAt (requested : Value F) (delay : String) (now : T) : Python.Result (T × String) :=
  if !requested.isBlank then do
    let runAt ← rt.eventTime requested
    if runAt < rt.settings.add now 30 then
      valueError "custom restart runAt must be at least 30 seconds in the future"
    else if rt.settings.add now (30 * 86400) < runAt then
      valueError "custom restart runAt must be within 30 days"
    else .ok (runAt, "custom")
  else match announcementDelays.lookup delay with
    | some seconds => .ok (rt.settings.add now seconds, delay)
    | none => valueError "invalid restart delay"

def backupConflict (conflict : Conflict) : Bool :=
  let sides := [conflict.leftId, conflict.rightId]
  sides.contains "restart-candidate" &&
    sides.any fun id => id ≠ "restart-candidate" && id.startsWith "backup-schedule"

def checkCalendar (body : Value F) (execute automaticDaily : Bool) (runAt : T) (target : String) :
    Python.Result Unit := do
  let blocking ← if execute then rt.admission runAt target else .ok []
  let override := rt.flag (either body "allowCalendarConflict" "allow_calendar_conflict" (.str "false"))
  if blocking = [] then .ok ()
  else if override then
    if rt.str (either body "calendarConflictConfirm" "calendar_conflict_confirm" (.str "")) ≠
        rt.confirmCalendarConflictOverride then
      valueError ("calendar conflict override requires exact confirmation: " ++ rt.confirmCalendarConflictOverride)
    else .ok ()
  else if automaticDaily && blocking.all backupConflict then .ok ()
  else
    valueError ("executing maintenance conflicts with the operations calendar: " ++
      join "; " ((blocking.take 3).map fun row =>
        if row.reason = "" then "calendar conflict" else row.reason) ++
      "; reschedule or use the explicit " ++ rt.confirmCalendarConflictOverride ++ " override")

/-- Everything that is checked before the tables are written. -/
def admitRestart (body : Value F) (id : String) (now : T) (board : Board T) : Python.Result (Admitted T) :=
  let target := strip (rt.str (getOr body "target" (.str "")))
  if target ∉ rt.settings.targets then valueError "invalid restart target"
  else
    let action := rt.lower (strip (rt.str (getOr body "action" (.str "restart"))))
    if action ∉ ["restart", "shutdown"] then valueError "invalid restart action"
    else
      let delay := strip (rt.str (getOr body "delay" (.str "immediate")))
      let requested := either body "runAt" "run_at" .none
      if requested.isBlank ∧ (announcementDelays.lookup delay).isNone then
        valueError "invalid restart delay"
      else do
        let message := strip (rt.str (getOr body "message" (.str "")))
        let repeatSeconds ← rt.intOr (either body "repeat_seconds" "repeatSeconds" (.int 60)) 0
        let announce := rt.flag (getOr body "announce" (.str "true"))
        let execute := rt.flag (getOr body "execute" (.str ""))
        let policy ← rt.updatePolicy body target
        let automaticDaily := rt.flag
          (either body "automatic_daily_maintenance" "automaticDailyMaintenance" (.str "false"))
        let key := if automaticDaily then
          clip 128 (strip (rt.str (either body "daily_maintenance_key" "dailyMaintenanceKey" (.str ""))))
          else ""
        match dailyJob key board with
        | some existing => .ok (.existing existing)
        | none => do
          let (runAt, delay) ← rt.runAt requested delay now
          let announces := announce && message ≠ ""
          let runAt := if announces ∧ runAt ≤ now then rt.settings.add now 1 else runAt
          rt.checkCalendar body execute automaticDaily runAt target
          .ok (.fresh {
            id := id
            target := target
            action := action
            delay := delay
            createdAt := now
            runAt := runAt
            message := message
            announce := announce
            repeatSeconds := repeatSeconds
            execute := execute
            backup := rt.flag (getOr body "backup" (.str "true"))
            requireSoftDisconnect :=
              rt.flag (either body "require_soft_disconnect" "requireSoftDisconnect" (.str "true"))
            updatePolicy := policy
            automaticDailyMaintenanceKey := if key = "" then none else some key } announces)

def announcementLead (body : Value F) : Python.Result Int := do
  let lead ← rt.intOr (either body "announcementLeadSeconds" "announcement_lead_seconds" (.int 1800)) 1800
  .ok (max 30 (min lead 86400))

def cadenceValue (entry : Cadence) : Value F :=
  .object [("remaining_seconds", .int entry.remainingSeconds), ("interval_seconds", .int entry.intervalSeconds)]

def countdownCadence (body : Value F) : Value F :=
  let cadence := either body "announcement_cadence" "announcementCadence" .none
  if cadence.isNone then .list (defaultCadence.map cadenceValue) else cadence

/-- The announcement that a restart asks for. -/
def countdown (body : Value F) (job : Restart T) (lead : Int) (now : T) : AnnouncementFields F T where
  message := .str job.message
  delay := .str "immediate"
  repeatSeconds := .int job.repeatSeconds
  cadence := countdownCadence body
  restartAt := some (.ok job.runAt)
  nextSendAt := some (.ok (max now (rt.settings.add job.runAt (-lead))))
  action := .str job.action
  restartJobId := .str job.id

def announceRestart (body : Value F) (job : Restart T) (announcementId : String) (now announcedAt : T)
    (placed : Board T) : Board T × Python.Result (Restart T) :=
  match rt.announcementLead body with
  | .error why => (placed, .error why)
  | .ok lead =>
    match rt.scheduleAnnouncement (rt.countdown body job lead now) announcementId announcedAt placed with
    | (announced, .error why) => (announced, .error why)
    | (announced, .ok _) => (announced, .ok job)

def scheduleRestart (body : Value F) (id announcementId : String) (now announcedAt : T)
    (board : Board T) : Board T × Python.Result (Restart T) :=
  match rt.admitRestart body id now board with
  | .error why => (board, .error why)
  | .ok (.existing job) => (board, .ok job)
  | .ok (.fresh job announces) =>
    match placeRestart job board with
    | .error message => (board, .error ⟨.runtimeError, message⟩)
    | .ok placed =>
      if announces then rt.announceRestart body job announcementId now announcedAt placed
      else (placed, .ok job)

end Announcement

end Panel

open Foundation

variable {F T : Type}

namespace Panel

variable (rt : Panel F T)

def EntryFits (entry : Value F) : Prop :=
  entry.isDict = true ∧ (∃ remainingSeconds,
      rt.intOr (either entry "remaining_seconds" "remainingSeconds" (.int 0)) 0 = .ok remainingSeconds ∧
      0 ≤ remainingSeconds ∧ remainingSeconds ≤ 86400) ∧
    ∃ intervalSeconds,
      rt.intOr (either entry "interval_seconds" "intervalSeconds" (.int 0)) 0 = .ok intervalSeconds ∧
      0 < intervalSeconds ∧ intervalSeconds ≤ 86400

def CadenceFits (cadence : Value F) : Prop :=
  cadence = .none ∨ ∃ entries, cadence = .list entries ∧ ∀ entry ∈ entries, rt.EntryFits entry

theorem cadenceEntry_ok {entry : Value F} : (∃ cadence, rt.cadenceEntry entry = .ok cadence) ↔ rt.EntryFits entry := by
  unfold cadenceEntry EntryFits
  constructor
  · rintro ⟨cadence, accepted⟩
    split at accepted
    · cases accepted
    · rename_i dict
      obtain ⟨remaining, read, accepted⟩ := result_bind.mp accepted
      obtain ⟨interval, readToo, accepted⟩ := result_bind.mp accepted
      split at accepted
      · cases accepted
      split at accepted
      · cases accepted
      rename_i inside insideToo
      exact ⟨by simpa using dict, ⟨remaining, read, by omega⟩, ⟨interval, readToo, by omega⟩⟩
  · rintro ⟨dict, ⟨remaining, read, inside⟩, ⟨interval, readToo, insideToo⟩⟩
    rw [dict, read, readToo]
    refine ⟨⟨remaining, interval⟩, ?_⟩
    change (if remaining < 0 ∨ remaining > 86400 then _ else _) = _
    rw [if_neg (by omega), if_neg (by omega)]

theorem cadenceOf_ok {cadence : Value F} :
    (∃ entries, rt.cadenceOf cadence = .ok entries) ↔ rt.CadenceFits cadence := by
  cases cadence with
  | none => exact iff_of_true ⟨[], rfl⟩ (.inl rfl)
  | list entries =>
    have every : (∃ read, entries.mapM rt.cadenceEntry = .ok read) ↔ ∀ entry ∈ entries, rt.EntryFits entry :=
      Attempts.mapM_ok.trans (forall₂_congr fun _ _ => rt.cadenceEntry_ok)
    simpa [cadenceOf, CadenceFits] using every
  | bool value => simp [cadenceOf, CadenceFits, valueError]
  | int value => simp [cadenceOf, CadenceFits, valueError]
  | float value => simp [cadenceOf, CadenceFits, valueError]
  | str value => simp [cadenceOf, CadenceFits, valueError]
  | dict entries => simp [cadenceOf, CadenceFits, valueError]

theorem intOr_int (number : Int) : rt.intOr (.int number) 0 = .ok number := by
  unfold intOr Runtime.orElse
  split
  · rfl
  · rename_i zero
    have same : number = 0 := by simpa [Runtime.truthy] using zero
    rw [same]
    rfl

section Countdown

variable [LinearOrder T] {job : Restart T} {id : String} {now : T}

/-- What the countdown of a restart needs: a lead that is a number, a message that is not too long, a
repeat interval and a cadence in their ranges, and a clock that has not passed the restart. -/
structure CountdownFits (body : Value F) (job : Restart T) (announcedAt : T) : Prop where
  lead : ∃ lead, rt.intOr (either body "announcementLeadSeconds" "announcement_lead_seconds" (.int 1800))
    1800 = .ok lead
  message : job.message.utf8ByteSize ≤ rt.settings.maxMessageBytes
  repeatSeconds : 0 ≤ job.repeatSeconds ∧ job.repeatSeconds ≤ 86400
  cadence : rt.CadenceFits (countdownCadence body)
  time : announcedAt ≤ job.runAt

/-- The announcement of a restart, once its message is one. -/
theorem countdown_announcement (body : Value F) (id : String) (lead : Int) (now announcedAt : T)
    (stripped : strip job.message = job.message) (some : job.message ≠ "") :
    (∃ placed, rt.announcement (rt.countdown body job lead now) id announcedAt = .ok placed) ↔
      job.message.utf8ByteSize ≤ rt.settings.maxMessageBytes ∧ (0 ≤ job.repeatSeconds ∧ job.repeatSeconds ≤ 86400) ∧
        rt.CadenceFits (countdownCadence body) ∧ announcedAt ≤ job.runAt := by
  have message : strip (rt.str (.str job.message)) = job.message := stripped
  have delay : announcementDelays.lookup (strip (rt.str (.str "immediate"))) = Option.some 0 := by
    change announcementDelays.lookup (strip "immediate") = _
    decide
  unfold announcement countdown
  simp only [message, delay]
  rw [if_neg some, ← rt.cadenceOf_ok]
  constructor
  · rintro ⟨placed, accepted⟩
    split at accepted
    · cases accepted
    rename_i short
    obtain ⟨repeatSeconds, read, accepted⟩ := result_bind.mp accepted
    rw [intOr_int] at read
    cases read
    split at accepted
    · cases accepted
    rename_i inside
    obtain ⟨cadence, entries, accepted⟩ := result_bind.mp accepted
    obtain ⟨restartAt, timed, accepted⟩ := result_bind.mp accepted
    refine ⟨not_lt.mp short, by omega, ⟨cadence, entries⟩, ?_⟩
    change (if job.runAt < announcedAt then _ else _) = _ at timed
    split at timed
    · cases timed
    · rename_i later
      exact not_lt.mp later
  · rintro ⟨short, inside, ⟨cadence, entries⟩, later⟩
    rw [if_neg (not_lt.mpr short), intOr_int]
    change ∃ placed, (if job.repeatSeconds < 0 ∨ job.repeatSeconds > 86400 then _ else _) = _
    rw [if_neg (by omega)]
    have timed : (do
        let restartAt ← .ok job.runAt
        if restartAt < announcedAt then valueError "restart_at must be in the future"
        else .ok restartAt : Python.Result T) = .ok job.runAt := if_neg (not_lt.mpr later)
    exact ⟨_, result_bind.mpr ⟨cadence, entries, result_bind.mpr ⟨job.runAt, timed, rfl⟩⟩⟩

/-- The countdown of a restart in its table is refused just where it does not fit. -/
theorem announceRestart_refused (body : Value F) (announcementId : String) (now announcedAt : T)
    (placed : Board T) (stripped : strip job.message = job.message) (some : job.message ≠ "") :
    (∃ why, (rt.announceRestart body job announcementId now announcedAt placed).2 = .error why) ↔
      ¬ rt.CountdownFits body job announcedAt := by
  unfold announceRestart announcementLead
  cases read : rt.intOr (either body "announcementLeadSeconds" "announcement_lead_seconds" (.int 1800)) 1800 with
  | error why =>
    refine iff_of_true ⟨why, rfl⟩ fun fits => ?_
    obtain ⟨lead, same⟩ := fits.lead
    rw [read] at same
    cases same
  | ok lead =>
    have accepted := rt.countdown_announcement body announcementId (max 30 (min lead 86400)) now
      announcedAt stripped some
    change (∃ why, (match rt.scheduleAnnouncement (rt.countdown body job (max 30 (min lead 86400)) now)
      announcementId announcedAt placed with
      | (announced, .error why) => (announced, .error why)
      | (announced, .ok _) => (announced, .ok job) : Board T × Python.Result (Restart T)).2 = .error why) ↔ _
    unfold scheduleAnnouncement
    cases outcome : rt.announcement (rt.countdown body job (max 30 (min lead 86400)) now) announcementId
        announcedAt with
    | error why =>
      rw [outcome] at accepted
      refine iff_of_true ⟨why, rfl⟩ fun fits => ?_
      obtain ⟨placed, impossible⟩ := accepted.mpr ⟨fits.message, fits.repeatSeconds, fits.cadence, fits.time⟩
      cases impossible
    | ok announced =>
      rw [outcome] at accepted
      obtain ⟨message, repeatSeconds, cadence, time⟩ := accepted.mp ⟨announced, rfl⟩
      refine iff_of_false (fun ⟨why, impossible⟩ => nomatch impossible) (not_not.mpr ?_)
      exact ⟨⟨lead, read⟩, message, repeatSeconds, cadence, time⟩

theorem admitRestart_message {body : Value F} {board : Board T}
    (admitted : rt.admitRestart body id now board = .ok (.fresh job true)) :
    strip job.message = job.message ∧ job.message ≠ "" := by
  unfold admitRestart at admitted
  dsimp only at admitted
  split at admitted
  · cases admitted
  split at admitted
  · cases admitted
  split at admitted
  · cases admitted
  obtain ⟨repeatSeconds, -, admitted⟩ := result_bind.mp admitted
  obtain ⟨policy, -, admitted⟩ := result_bind.mp admitted
  split at admitted
  · cases admitted
  · obtain ⟨⟨runAt, delay⟩, -, admitted⟩ := result_bind.mp admitted
    obtain ⟨-, -, same⟩ := result_bind.mp admitted
    simp only [Except.ok.injEq, Admitted.fresh.injEq, Bool.and_eq_true, decide_eq_true_eq] at same
    obtain ⟨rfl, -, some⟩ := same
    exact ⟨strip_strip _, some⟩

end Countdown

section Refused

variable [LinearOrder T]

omit [LinearOrder T] in
/-- A restart that is placed changes the table. -/
theorem placeRestart_ok {job : Restart T} {board placed : Board T} (done : placeRestart job board = .ok placed) :
    (∀ other ∈ board.restarts, other.inFlight = false) ∧
      placed.restarts = board.restarts.map supersedeRestart ++ [job] := by
  unfold placeRestart at done
  split at done
  · cases done
  · rename_i free
    cases done
    exact ⟨by simpa using free, rfl⟩

omit [LinearOrder T] in
theorem placeRestart_free {job : Restart T} {board : Board T}
    (free : ∀ other ∈ board.restarts, other.inFlight = false) :
    placeRestart job board = .ok { board with restarts := board.restarts.map supersedeRestart ++ [job] } := by
  unfold placeRestart
  rw [List.find?_eq_none.mpr (by simpa using free)]

theorem announceRestart_restarts (body : Value F) (job : Restart T) (announcementId : String)
    (now announcedAt : T) (placed : Board T) :
    (rt.announceRestart body job announcementId now announcedAt placed).1.restarts =
      placed.restarts := by
  unfold announceRestart scheduleAnnouncement
  split
  · rfl
  · rename_i lead read
    cases outcome : rt.announcement (rt.countdown body job lead now) announcementId announcedAt <;> rfl

/-- A request that is refused changes nothing, just where a restart that is placed and announced has a
countdown that fits. -/
theorem refused_unchanged_iff (body : Value F) (id announcementId : String) (now announcedAt : T) (board : Board T) :
    ((∃ why, (rt.scheduleRestart body id announcementId now announcedAt board).2 = .error why) →
        (rt.scheduleRestart body id announcementId now announcedAt board).1 = board) ↔
      ∀ job, rt.admitRestart body id now board = .ok (.fresh job true) →
        (∀ other ∈ board.restarts, other.inFlight = false) → rt.CountdownFits body job announcedAt := by
  unfold scheduleRestart
  cases checked : rt.admitRestart body id now board with
  | error why => exact iff_of_true (fun _ => rfl) (fun job impossible => nomatch impossible)
  | ok admitted =>
    cases admitted with
    | existing job => exact iff_of_true (fun _ => rfl) (fun job impossible => nomatch impossible)
    | fresh job announces =>
      dsimp only
      cases done : placeRestart job board with
      | error message =>
        refine iff_of_true (fun _ => rfl) fun other same free => ?_
        rw [placeRestart_free free] at done
        cases done
      | ok placed =>
        obtain ⟨free, restarts⟩ := placeRestart_ok done
        cases announces with
        | false =>
          refine iff_of_true ?_ (fun job impossible => nomatch impossible)
          rintro ⟨why, impossible⟩
          cases impossible
        | true =>
          obtain ⟨stripped, some⟩ := rt.admitRestart_message checked
          have refused :=
            rt.announceRestart_refused body announcementId now announcedAt placed stripped some
          have changed : (rt.announceRestart body job announcementId now announcedAt placed).1 ≠ board := by
            intro same
            have lengths := congrArg (fun board => board.restarts.length) same
            simp only [announceRestart_restarts, restarts, List.length_append, List.length_map,
              List.length_singleton] at lengths
            omega
          dsimp only
          rw [if_pos rfl]
          constructor
          · intro unchanged other same _
            cases same
            by_contra unfit
            exact changed (unchanged (refused.mpr unfit))
          · intro fits raised
            exact absurd (fits job rfl free) (refused.mp raised)

end Refused

end Panel

def plainPanel : Panel Int Int where
  toRuntime := wholeRuntime
  settings := wholeSeconds
  float value :=
    match value with
    | .int number => .ok number
    | .float number => .ok number
    | _ => typeError "float() argument must be a string or a real number"
  eventTime _ := valueError "event time is required"
  admission _ _ := .ok []
  confirmCalendarConflictOverride := "OVERRIDE SCHEDULE CONFLICT"

def rarelyRepeated : Value Int :=
  .object [("target", .str "all"), ("execute", .bool true), ("delay", .str "1hr"),
    ("message", .str "Maintenance"), ("repeat_seconds", .int 90000)]

def announcedBoard : Board Int :=
  run wholeSeconds [.scheduleRestart announcedRestart "first" "countdown" 0 0]

/-- The request is refused, its restart will be executed, and the one before it is superseded. -/
theorem refused_restart_stays : (plainPanel.scheduleRestart rarelyRepeated "second" "other" 10 10 announcedBoard).2 =
        valueError "repeat_seconds must be between 0 and 86400" ∧
      announcedBoard.restarts.map (fun job => (job.id, job.status, job.execute)) = [("first", .scheduled, false)] ∧
      (plainPanel.scheduleRestart rarelyRepeated "second" "other" 10 10 announcedBoard).1.restarts.map
        (fun job => (job.id, job.status, job.execute)) =
        [("first", .superseded, false), ("second", .scheduled, true)] := by
  decide +kernel

end Dash.Maintenance
