import Dash.Foundation.Table
import Dash.Foundation.Transaction
import Dash.Python.Value

/-! The alert inbox: what a poll, a failed poll and an acknowledgement do.

A poll is normalized before the store is touched. It then folds every alert of the
response into its row, and resolves the rows the response does not mention.
-/

set_option autoImplicit false

namespace Dash.Alerts

open Dash.Python Dash.Foundation

inductive Active where
  | pending | firing
  deriving DecidableEq, Repr

inductive State where
  | active (state : Active)
  | resolved
  deriving DecidableEq, Repr

inductive Change where
  /-- `"pending"` or `"firing"` -/
  | to (state : Active)
  | refiring
  | acknowledged
  | resolved
  deriving DecidableEq, Repr

/-- An alert of a response, after `normalize_alert`. -/
structure Alert (T : Type) where
  (fingerprint name severity : String)
  state : Active
  labels : List (String × String)
  annotations : List (String × String)
  (summary description : String)
  activeAt : Option T
  activeAtIso : Option String

structure Row (T : Type) where
  (fingerprint name severity : String)
  state : State
  (labelsJson annotationsJson summary description : String)
  activeAt : Option T
  (firstSeen lastSeen : T)
  resolvedAt : Option T
  (generation occurrences : Nat)
  acknowledgedAt : Option T
  (acknowledgedBy acknowledgementNote : Option String)

structure Transition (T : Type) where
  id : Nat
  fingerprint : String
  generation : Nat
  transition : Change
  state : State
  occurredAt : T
  (name severity summary : String)
  (actor note : Option String)

structure Metadata (T : Type) where
  (lastPollAt lastSuccessAt : Option T)
  lastError : String
  lastErrorAt : Option T
  (consecutiveFailures pollsTotal transitionsTotal : Nat)

/-- The database. The transitions are in the order of their identifiers. -/
structure Db (T : Type) where
  alerts : List (Row T)
  transitions : List (Transition T)
  /-- The identifier that was given out last. -/
  lastId : Nat
  metadata : Metadata T

/-- `initialize` on a new file. -/
def Db.initial {T : Type} : Db T := ⟨[], [], 0, ⟨none, none, "", none, 0, 0, 0⟩⟩

def Db.alert? {T : Type} (db : Db T) (fingerprint : String) : Option (Row T) :=
  db.alerts.find? fun row => row.fingerprint = fingerprint

structure Platform (F T : Type) [LinearOrder T] extends Runtime F where
  /-- `SENSITIVE_KEY.search` -/
  sensitive : String → Bool
  sha256 : String → String
  /-- The time a text of a date with a time zone stands for. -/
  fromIso : String → Option T
  /-- `iso`; a time out of the calendar's range raises. -/
  iso : T → Result String
  /-- `now - retention_days * 86400` -/
  cutoff : T → T
  /-- At least one day is kept. -/
  cutoff_le : ∀ now, cutoff now ≤ now
  historyLimit : Nat

structure Synced (T : Type) where
  transitions : List (Transition T)
  observed : Nat

/-- What `_transition` reads of an alert. -/
structure Subject where
  fingerprint : String
  generation : Nat
  state : State
  (name severity summary : String)

def maxLabels : Nat := 64
def maxAnnotations : Nat := 32
def maxKey : Nat := 128
def maxValue : Nat := 1000

def activeStates : List (String × Active) := [("pending", .pending), ("firing", .firing)]

/-- `[0-9a-f]{64}` -/
def isFingerprint (text : String) : Bool :=
  decide (text.length = 64) &&
    text.toList.all fun char => char.isDigit || (decide ('a' ≤ char) && decide (char ≤ 'f'))

/-- `result[key] = item` -/
def assign (key item : String) (entries : List (String × String)) : List (String × String) :=
  if entries.any fun entry => entry.1 = key then
    entries.map fun entry => if entry.1 = key then (key, item) else entry
  else entries ++ [(key, item)]

def lookup (key : String) (entries : List (String × String)) : Option String :=
  (entries.find? fun entry => entry.1 = key).map Prod.snd

/-- `entries.get(key) or other` -/
def lookupOr (key : String) (entries : List (String × String)) (other : String) : String :=
  match lookup key entries with
  | some text => if text = "" then other else text
  | none => other

variable {F T : Type} [LinearOrder T]

namespace Platform

variable (rt : Platform F T)

/-- `str` of a dictionary key. -/
def keyStr : Key F → String
  | .str key => key
  | key => rt.keyRepr key

def parseIso (value : Value F) : Option T :=
  let text := strip (rt.str (rt.orElse value (.str "")))
  if text = "" then none else rt.fromIso text

def boundedMapping (value : Value F) (maximum : Nat) : List (String × String) :=
  match value with
  | .dict entries =>
    let sorted := entries.insertionSort fun first second => rt.keyStr first.1 ≤ rt.keyStr second.1
    (sorted.take maximum).foldl (fun result entry =>
      let key := clip maxKey (rt.keyStr entry.1)
      assign key (if rt.sensitive key then "[redacted]" else clip maxValue (rt.str entry.2)) result)
      []
  | _ => []

/-- A mapping of texts as `json.dumps` writes it. -/
def mappingJson (ascii : Bool) (entries : List (String × String)) : Result String :=
  rt.dumps ascii (Value.object (entries.map fun entry => (entry.1, .str entry.2)))

def fingerprint (labels : List (String × String)) : Result String :=
  (rt.mappingJson false labels).map rt.sha256

def normalizeAlert (raw : Value F) : Result (Alert T) :=
  if !raw.isDict then valueError "Prometheus alert row must be an object"
  else
    match raw.get "labels" with
    | .dict rawLabels =>
      if rawLabels.isEmpty then valueError "Prometheus alert row has no labels"
      else if maxLabels < rawLabels.length then
        valueError s!"Prometheus alert row exceeds {maxLabels} labels"
      else if rawLabels.any (fun entry => decide (maxKey < (rt.keyStr entry.1).length) ||
          decide (maxValue < (rt.str entry.2).length)) then
        valueError "Prometheus alert label exceeds the identity length bound"
      else
        let labels := rt.boundedMapping (.dict rawLabels) maxLabels
        if labels.length ≠ rawLabels.length then
          valueError "Prometheus alert labels collide after normalization"
        else
          let annotations := rt.boundedMapping (raw.get "annotations") maxAnnotations
          let state := rt.lower (strip (rt.str (rt.orElse (raw.get "state") (.str ""))))
          match activeStates.lookup state with
          | none => valueError ("unsupported Prometheus alert state: " ++
              if state = "" then "missing" else state)
          | some active =>
            let activeAt := rt.parseIso (raw.get "activeAt")
            if rt.truthy (raw.get "activeAt") && activeAt.isNone then
              valueError "Prometheus alert activeAt is invalid"
            else do
              let name := lookupOr "alertname" labels "unnamed-alert"
              let severity := rt.lower ((lookup "severity" labels).getD "unknown")
              let fingerprint ← rt.fingerprint labels
              let activeAtIso ← match activeAt with
                | some time => (rt.iso time).map some
                | none => .ok none
              .ok { fingerprint
                    name := clip 200 name
                    severity := clip 64 severity
                    state := active
                    labels
                    annotations
                    summary := clip 1000 (lookupOr "summary" annotations (lookupOr "description" annotations name))
                    description := clip 4000 (lookupOr "description" annotations "")
                    activeAt
                    activeAtIso }
    | _ => valueError "Prometheus alert row has no labels"

def normalizeAlerts : List (Value F) → Result (List (Alert T))
  | [] => .ok []
  | raw :: rest => do
    let first ← rt.normalizeAlert raw
    let others ← normalizeAlerts rest
    .ok (first :: others)

/-- The checks of `sync` on a response, which touch nothing. -/
def incoming (response : Value F) : Result (List (Alert T)) :=
  let success := match response.get "status" with
    | .str status => decide (status = "success")
    | _ => false
  if !response.isDict || !success then
    valueError "Prometheus alerts response is not successful"
  else
    match (response.get "data").get "alerts" with
    | .list rows =>
      if 5000 < rows.length then valueError "Prometheus alerts response exceeds 5000 rows"
      else do
        let normalized ← rt.normalizeAlerts rows
        if (normalized.map Alert.fingerprint).Nodup then .ok normalized
        else valueError "Prometheus alerts response contains duplicate bounded label identities"
    | _ => valueError "Prometheus alerts response is missing data.alerts"

abbrev Action (T α : Type) : Type := Transaction (Db T) Exception α

def transition (alert : Subject) (change : Change) (occurredAt : T) (actor note : Option String) :
    Action T (Transition T) := do
  let last ← Transaction.read Db.lastId
  let row : Transition T := ⟨last + 1, alert.fingerprint, alert.generation, change, alert.state,
    occurredAt, alert.name, alert.severity, alert.summary, actor, note⟩
  Transaction.write fun db => { db with
    transitions := db.transitions ++ [row]
    lastId := last + 1 }
  let _ ← Transaction.lift (rt.iso occurredAt)
  pure row

/-- `insert into alerts ... on conflict(fingerprint) do update` of every column. -/
def upsert (row : Row T) : Action T Unit :=
  Transaction.write fun db => { db with
    alerts := Foundation.upsert Row.fingerprint row db.alerts }

/-- The row of an alert that was seen, and the transition it makes. -/
def next (prior : Option (Row T)) (alert : Alert T) (labelsJson annotationsJson : String)
    (now : T) : Row T × Option Change :=
  let row : Row T :=
    { fingerprint := alert.fingerprint
      name := alert.name
      severity := alert.severity
      state := .active alert.state
      labelsJson
      annotationsJson
      summary := alert.summary
      description := alert.description
      activeAt := alert.activeAt
      firstSeen := now
      lastSeen := now
      resolvedAt := none
      generation := 1
      occurrences := 1
      acknowledgedAt := none
      acknowledgedBy := none
      acknowledgementNote := none }
  match prior with
  | none => (row, some (.to alert.state))
  | some prior =>
    if prior.state = .resolved then
      ({ row with
          generation := prior.generation + 1
          occurrences := prior.occurrences + 1 }, some .refiring)
    else
      ({ row with
          firstSeen := prior.firstSeen
          generation := prior.generation
          occurrences := prior.occurrences
          acknowledgedAt := prior.acknowledgedAt
          acknowledgedBy := prior.acknowledgedBy
          acknowledgementNote := prior.acknowledgementNote },
        if prior.state ≠ .active alert.state then some (.to alert.state) else none)

/-- One round of the loop over the response. -/
def observe (existing : List (Row T)) (now : T) (alert : Alert T) : Action T (List (Transition T)) := do
  let prior := existing.find? fun row => row.fingerprint = alert.fingerprint
  let labelsJson ← Transaction.lift (rt.mappingJson true alert.labels)
  let annotationsJson ← Transaction.lift (rt.mappingJson true alert.annotations)
  let (row, change) := next prior alert labelsJson annotationsJson now
  upsert row
  match change with
  | none => pure []
  | some change => do
    let made ← rt.transition ⟨alert.fingerprint, row.generation, .active alert.state, alert.name,
      alert.severity, alert.summary⟩ change now none none
    pure [made]

def resolve (incoming : List (Alert T)) (now : T) (prior : Row T) : Action T (List (Transition T)) :=
  if prior.fingerprint ∈ incoming.map Alert.fingerprint ∨ prior.state = .resolved then pure []
  else do
    Transaction.write fun db => { db with
      alerts := update Row.fingerprint prior.fingerprint
        (fun row => { row with state := .resolved, resolvedAt := some now, lastSeen := now })
        db.alerts }
    let made ← rt.transition ⟨prior.fingerprint, prior.generation, .resolved, prior.name,
      prior.severity, prior.summary⟩ .resolved now none none
    pure [made]

def expired (cutoff : T) (row : Row T) : Bool :=
  match row.resolvedAt with
  | some time => decide (row.state = .resolved) && decide (time < cutoff)
  | none => false

/-- The three deletions at the end of `sync`. -/
def prune (now : T) : Action T Unit :=
  Transaction.write fun db =>
    let recent := db.transitions.filter fun row => !decide (row.occurredAt < rt.cutoff now)
    { db with
      alerts := db.alerts.filter fun row => !expired (rt.cutoff now) row
      transitions := recent.drop (recent.length - rt.historyLimit) }

def sync (response : Value F) (now : T) : Action T (Synced T) := do
  let incoming ← Transaction.lift (rt.incoming response)
  let existing ← Transaction.read Db.alerts
  let seen ← Transaction.each (rt.observe existing now) incoming
  let gone ← Transaction.each (rt.resolve incoming now) existing
  let transitions := seen.flatten ++ gone.flatten
  Transaction.write fun db => { db with
    metadata := { db.metadata with
      lastPollAt := some now
      lastSuccessAt := some now
      lastError := ""
      consecutiveFailures := 0
      pollsTotal := db.metadata.pollsTotal + 1
      transitionsTotal := db.metadata.transitionsTotal + transitions.length } }
  rt.prune now
  pure ⟨transitions, incoming.length⟩

def recordPollError (error : Value F) (now : T) : Action T Unit :=
  Transaction.write fun db => { db with
    metadata := { db.metadata with
      lastPollAt := some now
      lastError := clip 1000 (rt.str error)
      lastErrorAt := some now
      consecutiveFailures := db.metadata.consecutiveFailures + 1 } }

def wanted (fingerprint : Value F) : String :=
  rt.lower (strip (rt.str (rt.orElse fingerprint (.str ""))))

/-- `acknowledge`, with the transition it made unless it is idempotent. -/
def acknowledge (fingerprint actor note : Value F) (now : T) : Action T (Option (Transition T)) := do
  let wanted := rt.wanted fingerprint
  Transaction.check (isFingerprint wanted) ⟨.valueError, "alert fingerprint must be 64 lowercase hex characters"⟩
  let actor := clip 128 (rt.str (rt.orElse actor (.str "unknown")))
  let note := clip 1000 (rt.str (rt.orElse note (.str "")))
  match ← Transaction.read fun db => db.alert? wanted with
  | none => Transaction.raise ⟨.keyError, "alert fingerprint was not found"⟩
  | some alert =>
    if alert.state = .resolved then
      Transaction.raise ⟨.valueError, "resolved alerts cannot be acknowledged"⟩
    else if alert.acknowledgedAt.isSome then pure none
    else do
      Transaction.write fun db => { db with
        alerts := update Row.fingerprint wanted (fun row => { row with
          acknowledgedAt := some now
          acknowledgedBy := some actor
          acknowledgementNote := some note }) db.alerts }
      let made ← rt.transition ⟨wanted, alert.generation, alert.state, alert.name, alert.severity,
        alert.summary⟩ .acknowledged now (some actor) (some note)
      Transaction.write fun db => { db with
        metadata := { db.metadata with
          transitionsTotal := db.metadata.transitionsTotal + 1 } }
      pure (some made)

end Platform

end Dash.Alerts
