import Dash.Foundation.Table
import Dash.Foundation.Transaction
import Dash.Python.Value

/-! The store of the service level objectives: samples, incidents, their events and the
maintenance windows.

Times are the interpreter's floats. The tokens a call draws are given with it. A policy is
read by every call, so each one has its own; it has been validated.
-/

set_option autoImplicit false

namespace Dash.Slo

open Dash.Python Dash.Foundation

inductive Severity where
  | warning | critical
  deriving DecidableEq, Repr

inductive Status where
  | opened | resolved
  deriving DecidableEq, Repr

inductive EventType where
  | opened | acknowledged | note | resolved
  deriving DecidableEq, Repr

def EventType.text : EventType → String
  | .opened => "opened"
  | .acknowledged => "acknowledged"
  | .note => "note"
  | .resolved => "resolved"

structure Objective where
  (id name description signal : String)
  severity : Severity
  consecutiveFailures : Nat
  excludeMaintenance : Bool
  failures_pos : 0 < consecutiveFailures

structure Policy (F : Type) [LE F] where
  (sampleIntervalSeconds maxSampleGapSeconds : F)
  /-- `epoch - sampleRetentionDays * 86400` -/
  sampleCutoff : F → F
  objectives : List Objective
  sampleCutoff_le : ∀ epoch, sampleCutoff epoch ≤ epoch
  ids_distinct : (objectives.map Objective.id).Nodup

structure Snapshot (F : Type) where
  id : String
  observedAt : F
  contextJson : String

structure Sample (F : Type) where
  (snapshotId objectiveId : String)
  (observedAt intervalSeconds : F)
  (good excluded : Bool)
  (signalJson reason : String)

structure Incident (F : Type) where
  (id objectiveId : String)
  severity : Severity
  status : Status
  (openedAt lastSeenAt : F)
  resolvedAt : Option F
  failureCount : Nat
  acknowledgedAt : Option F
  acknowledgedBy : Option String
  summary : String

structure Event (F : Type) where
  (incidentId objectiveId : String)
  eventType : EventType
  createdAt : F
  (actor note : Option String)
  payloadJson : String
  previousHash : Option String
  eventHash : String

structure Window (F : Type) where
  id : String
  (startsAt endsAt : F)
  reason : String
  createdAt : F
  createdBy : String
  cancelledAt : Option F
  cancelledBy : Option String

/-- The database. The events are in the order of their sequence numbers. -/
structure Db (F : Type) where
  snapshots : List (Snapshot F)
  samples : List (Sample F)
  incidents : List (Incident F)
  events : List (Event F)
  windows : List (Window F)

/-- `initialize` on a new file. -/
def Db.initial {F : Type} : Db F := ⟨[], [], [], [], []⟩

structure Platform (F : Type) [LinearOrder F] [Zero F] extends Runtime F where
  sha256 : String → String
  sub : F → F → F
  one : F
  /-- 300 seconds, a day and thirty days. -/
  (fiveMinutes day longestWindow : F)
  /-- The time as it begins the name of a snapshot; one out of the calendar's range raises. -/
  stamp : F → Result String
  iso : F → Result String
  /-- `_parse_epoch` -/
  parseEpoch : Value F → Result F

structure RecordedRow (F : Type) where
  id : String
  (good excluded : Bool)
  reason : String
  intervalSeconds : F

/-- What a round of `record` did to the incidents. -/
structure Moved (F : Type) where
  row : RecordedRow F
  (opened resolved : List String)

structure Recorded (F : Type) where
  ok : Bool
  snapshotId : String
  maintenanceWindow : Option (Window F)
  objectives : List (RecordedRow F)
  (incidentsOpened incidentsResolved : List String)

structure Tokens where
  snapshot : String
  incident : String → String

variable {F : Type}

def Incident.resolve (epoch : F) (row : Incident F) : Incident F :=
  { row with
    status := .resolved
    resolvedAt := some epoch
    lastSeenAt := epoch }

def Incident.fail (epoch : F) (row : Incident F) : Incident F :=
  { row with
    lastSeenAt := epoch
    failureCount := row.failureCount + 1 }

def Incident.acknowledge (epoch : F) (actor : String) (row : Incident F) : Incident F :=
  { row with
    acknowledgedAt := some epoch
    acknowledgedBy := some actor }

def Objective.incident (objective : Objective) (id : String) (epoch : F) : Incident F :=
  ⟨id, objective.id, objective.severity, .opened, epoch, epoch, none, objective.consecutiveFailures,
    none, none, objective.name ++ " SLO signal is failing"⟩

def Event.payloadOf (incidentId objectiveId : String) (eventType : EventType) (createdAt : F)
    (actor note : Option String) (payload : Value F) (previousHash : Option String) : Value F :=
  .object [("incidentId", .str incidentId), ("objectiveId", .str objectiveId),
    ("eventType", .str eventType.text), ("createdAt", .float createdAt),
    ("actor", .ofOption actor), ("note", .ofOption note), ("payload", payload),
    ("previousHash", .ofOption previousHash)]

/-- `order by opened_at desc`, where incidents of one time stay in the order of their rows. -/
def newestFirst [LinearOrder F] (incidents : List (Incident F)) : List (Incident F) :=
  incidents.insertionSort fun first second => second.openedAt ≤ first.openedAt

/-- The samples of an objective, `order by observed_at desc`. -/
def samplesOf [LinearOrder F] (objective : String) (samples : List (Sample F)) : List (Sample F) :=
  (samples.filter fun sample => sample.objectiveId = objective).reverse.insertionSort
    fun first second => second.observedAt ≤ first.observedAt

variable [LinearOrder F] [Zero F]

namespace Platform

variable (rt : Platform F)

abbrev Action (F α : Type) : Type := Transaction (Db F) Exception α

def canonical (value : Value F) : Result String := rt.dumps false value

def trimmed (count : Nat) (value : Value F) : String :=
  clip count (strip (rt.str (rt.orElse value (.str ""))))

def eventHash (incidentId objectiveId : String) (eventType : EventType) (epoch : F)
    (actor note : Option String) (payload : Value F) (previous : Option String) : Result String :=
  (rt.canonical (Event.payloadOf incidentId objectiveId eventType epoch actor note payload previous)).map rt.sha256

def event (incidentId objectiveId : String) (eventType : EventType) (epoch : F)
    (actor note : Option String) (payload : Value F) : Action F String := do
  let events ← Transaction.read Db.events
  let previous := events.getLast?.map Event.eventHash
  let eventHash ← Transaction.lift
    (rt.eventHash incidentId objectiveId eventType epoch actor note payload previous)
  let payloadJson ← Transaction.lift (rt.canonical payload)
  Transaction.check (eventHash ∉ events.map Event.eventHash)
    ⟨.integrityError, "UNIQUE constraint failed: incident_events.event_hash"⟩
  Transaction.write fun db => { db with
    events := db.events ++ [⟨incidentId, objectiveId, eventType, epoch, actor, note, payloadJson,
      previous, eventHash⟩] }
  pure eventHash

def rowValid (previous : Option String) (row : Event F) : Bool :=
  match rt.loads row.payloadJson with
  | .error _ => false
  | .ok payload =>
    match rt.eventHash row.incidentId row.objectiveId row.eventType row.createdAt row.actor row.note
        payload row.previousHash with
    | .error _ => false
    | .ok expected => decide (row.previousHash = previous) && decide (row.eventHash = expected)

/-- The loop of `integrity_check`. -/
def chainValid : Option String → List (Event F) → Bool
  | _, [] => true
  | previous, row :: rest => rt.rowValid previous row && chainValid (some row.eventHash) rest

/-- `integrity_check`, of a file that is sound. -/
def integrityCheck (db : Db F) : Bool := rt.chainValid none db.events

def activeMaintenance (epoch : F) (db : Db F) : Option (Window F) :=
  ((db.windows.filter fun window => window.cancelledAt.isNone &&
    decide (window.startsAt ≤ epoch) && decide (epoch < window.endsAt)).insertionSort
      fun first second => first.startsAt ≤ second.startsAt).head?

def openIncident? (objective : String) (db : Db F) : Option (Incident F) :=
  db.incidents.find? fun incident =>
    decide (incident.objectiveId = objective) && decide (incident.status = .opened)

def updateIncident (id : String) (change : Incident F → Incident F) : Action F Unit :=
  Transaction.write fun db => { db with incidents := update Incident.id id change db.incidents }

/-- `insert into incidents`, with its two unique indexes. -/
def insertIncident (incident : Incident F) : Action F Unit := do
  let db ← Transaction.read id
  Transaction.check (incident.id ∉ db.incidents.map Incident.id)
    ⟨.integrityError, "UNIQUE constraint failed: incidents.id"⟩
  Transaction.check (openIncident? incident.objectiveId db).isNone
    ⟨.integrityError, "UNIQUE constraint failed: incidents.objective_id"⟩
  Transaction.write fun db => { db with incidents := db.incidents ++ [incident] }

def streak (objective : Objective) (samples : List (Sample F)) : Bool :=
  let rows := (samplesOf objective.id samples).take objective.consecutiveFailures
  decide (objective.consecutiveFailures ≤ rows.length) && rows.all fun row => !row.good && !row.excluded

/-- What a sample that is not excluded does to the incidents of its objective. -/
def judge (objective : Objective) (snapshotId reason : String) (epoch : F) (tokens : Tokens)
    (good : Bool) : Action F (List String × List String) := do
  match ← Transaction.read (openIncident? objective.id), good with
  | some incident, true => do
    updateIncident incident.id (Incident.resolve epoch)
    let _ ← rt.event incident.id objective.id .resolved epoch none none
      (.object [("snapshotId", .str snapshotId)])
    pure ([], [incident.id])
  | none, true => pure ([], [])
  | some incident, false => do
    updateIncident incident.id (Incident.fail epoch)
    pure ([], [])
  | none, false => do
    let samples ← Transaction.read Db.samples
    if streak objective samples then do
      let id := "slo-" ++ objective.id ++ "-" ++ tokens.incident objective.id
      insertIncident (objective.incident id epoch)
      let _ ← rt.event id objective.id .opened epoch none none
        (.object [("snapshotId", .str snapshotId), ("reason", .str reason)])
      pure ([id], [])
    else pure ([], [])

/-- One round of the loop of `record`. -/
def recordObjective (policy : Policy F) (signals : Value F) (epoch : F) (tokens : Tokens)
    (snapshotId : String) (maintenance : Bool) (objective : Objective) : Action F (Moved F) := do
  let previous ← Transaction.read fun db => (samplesOf objective.id db.samples).head?
  let raw := match previous with
    | none => policy.sampleIntervalSeconds
    | some previous => max rt.one (rt.sub epoch previous.observedAt)
  let interval := min policy.maxSampleGapSeconds raw
  let present := (signals.get? objective.signal).isSome
  let value := signals.get objective.signal
  let good := present && rt.truthy value
  let reason := if good then "good" else if present then "signal false" else "signal missing"
  let excluded := maintenance && objective.excludeMaintenance
  let signalJson ← Transaction.lift (rt.canonical value)
  Transaction.write fun db => { db with
    samples := db.samples ++ [⟨snapshotId, objective.id, epoch, interval, good, excluded, signalJson, reason⟩] }
  let row : RecordedRow F := ⟨objective.id, good, excluded, reason, interval⟩
  if excluded then pure ⟨row, [], []⟩
  else do
    let (opened, resolved) ← rt.judge objective snapshotId reason epoch tokens good
    pure ⟨row, opened, resolved⟩

/-- `delete from snapshots where observed_at < cutoff`, with the samples of those snapshots. -/
def prune (cutoff : F) : Action F Unit :=
  Transaction.write fun db =>
    let snapshots := db.snapshots.filter fun snapshot => !decide (snapshot.observedAt < cutoff)
    { db with
      snapshots
      samples := db.samples.filter fun sample => sample.snapshotId ∈ snapshots.map Snapshot.id }

def record (policy : Policy F) (signals context : Value F) (epoch : F) (tokens : Tokens) :
    Action F (Recorded F) := do
  Transaction.check signals.isDict ⟨.valueError, "signals must be an object"⟩
  Transaction.check (decide (0 < epoch)) ⟨.valueError, "observed_at must be positive Unix seconds"⟩
  let stamp ← Transaction.lift (rt.stamp epoch)
  let snapshotId := stamp ++ "-" ++ tokens.snapshot
  let maintenance ← Transaction.read (activeMaintenance epoch)
  let contextJson ← Transaction.lift (rt.canonical (rt.orElse context (.dict [])))
  let snapshots ← Transaction.read Db.snapshots
  Transaction.check (snapshotId ∉ snapshots.map Snapshot.id)
    ⟨.integrityError, "UNIQUE constraint failed: snapshots.id"⟩
  Transaction.write fun db => { db with
    snapshots := db.snapshots ++ [⟨snapshotId, epoch, contextJson⟩] }
  let rounds ← Transaction.each
    (rt.recordObjective policy signals epoch tokens snapshotId maintenance.isSome) policy.objectives
  prune (policy.sampleCutoff epoch)
  let rows := rounds.map Moved.row
  pure ⟨rows.all fun row => row.good || row.excluded, snapshotId, maintenance, rows,
    (rounds.map Moved.opened).flatten, (rounds.map Moved.resolved).flatten⟩

def acknowledge (incidentId actor note : Value F) (epoch : F) : Action F String := do
  let incidentId := rt.trimmed 128 incidentId
  let actor := rt.trimmed 128 actor
  let note := rt.trimmed 2000 note
  Transaction.check (decide (actor ≠ "")) ⟨.valueError, "actor is required"⟩
  match ← Transaction.read fun db => db.incidents.find? fun incident =>
      decide (incident.id = incidentId) && decide (incident.status = .opened) with
  | none => Transaction.raise ⟨.valueError, "open incident does not exist"⟩
  | some incident => do
    updateIncident incident.id (Incident.acknowledge epoch actor)
    rt.event incident.id incident.objectiveId .acknowledged epoch (some actor) (some note) (.dict [])

def addNote (incidentId actor note : Value F) (epoch : F) : Action F String := do
  let incidentId := rt.trimmed 128 incidentId
  let actor := rt.trimmed 128 actor
  let note := rt.trimmed 2000 note
  Transaction.check (decide (actor ≠ "") && decide (note ≠ "")) ⟨.valueError, "actor and note are required"⟩
  match ← Transaction.read fun db => db.incidents.find? fun incident => incident.id = incidentId with
  | none => Transaction.raise ⟨.valueError, "incident does not exist"⟩
  | some incident =>
    rt.event incident.id incident.objectiveId .note epoch (some actor) (some note) (.dict [])

def createMaintenance (startsAt endsAt reason actor : Value F) (now : F) (token : String) :
    Action F String := do
  let start ← Transaction.lift (rt.parseEpoch startsAt)
  let finish ← Transaction.lift (rt.parseEpoch endsAt)
  let reason := rt.trimmed 1000 reason
  let actor := rt.trimmed 128 actor
  Transaction.check (decide (reason ≠ "") && decide (actor ≠ ""))
    ⟨.valueError, "maintenance reason and actor are required"⟩
  Transaction.check (!(decide (start < rt.sub now rt.fiveMinutes) || decide (finish ≤ start) ||
      decide (rt.day < rt.sub finish start)))
    ⟨.valueError, "maintenance must start no more than five minutes ago and last at most 24 hours"⟩
  let id := "maintenance-" ++ token
  let windows ← Transaction.read Db.windows
  Transaction.check (!windows.any fun window => window.cancelledAt.isNone &&
      decide (window.startsAt < finish) && decide (start < window.endsAt))
    ⟨.valueError, "maintenance window overlaps an existing active window"⟩
  Transaction.check (id ∉ windows.map Window.id)
    ⟨.integrityError, "UNIQUE constraint failed: maintenance_windows.id"⟩
  Transaction.write fun db => { db with
    windows := db.windows ++ [⟨id, start, finish, reason, now, actor, none, none⟩] }
  pure id

def cancelMaintenance (identifier actor : Value F) (epoch : F) : Action F Unit := do
  let actor := rt.trimmed 128 actor
  Transaction.check (decide (actor ≠ "")) ⟨.valueError, "actor is required"⟩
  let windows ← Transaction.read Db.windows
  match windows.find? fun window =>
      decide (window.id = rt.str identifier) && window.cancelledAt.isNone with
  | none => Transaction.raise ⟨.valueError, "active maintenance window does not exist"⟩
  | some window => do
    Transaction.check (!decide (window.endsAt ≤ epoch))
      ⟨.valueError, "completed maintenance history cannot be canceled"⟩
    Transaction.write fun db => { db with
      windows := update Window.id window.id (fun row => { row with
        cancelledAt := some epoch
        cancelledBy := some actor }) db.windows }

end Platform

inductive Call (F : Type) [LinearOrder F] where
  | record (policy : Policy F) (signals context : Value F) (epoch : F) (tokens : Tokens)
  | acknowledge (incidentId actor note : Value F) (epoch : F)
  | addNote (incidentId actor note : Value F) (epoch : F)
  | createMaintenance (startsAt endsAt reason actor : Value F) (now : F) (token : String)
  | cancelMaintenance (identifier actor : Value F) (epoch : F)

namespace Platform

variable (rt : Platform F)

/-- The transaction of a call. -/
def body : Call F → Action F Unit
  | .record policy signals context epoch tokens => do
    let _ ← rt.record policy signals context epoch tokens
    pure ()
  | .acknowledge incidentId actor note epoch => do
    let _ ← rt.acknowledge incidentId actor note epoch
    pure ()
  | .addNote incidentId actor note epoch => do
    let _ ← rt.addNote incidentId actor note epoch
    pure ()
  | .createMaintenance startsAt endsAt reason actor now token => do
    let _ ← rt.createMaintenance startsAt endsAt reason actor now token
    pure ()
  | .cancelMaintenance identifier actor epoch => rt.cancelMaintenance identifier actor epoch

def run (calls : List (Call F)) : Db F :=
  calls.foldl (fun db call => (rt.body call).commit db) .initial

end Platform

end Dash.Slo
