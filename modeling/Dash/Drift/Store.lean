import Dash.Foundation.Table
import Dash.Foundation.Transaction
import Dash.Python.Reencoding

/-! Snapshots of the desired state, the changes between two of them, and the tables of the store.

A snapshot is a JSON document: the keys of its dictionaries are distinct strings.
-/

set_option autoImplicit false

namespace Dash.Drift

open Dash.Python

inductive Category where
  | files | containers
  deriving DecidableEq

def Category.text : Category → String
  | .files => "files"
  | .containers => "containers"

inductive ChangeType where
  | added | removed | modified
  deriving DecidableEq

def ChangeType.text : ChangeType → String
  | .added => "added"
  | .removed => "removed"
  | .modified => "modified"

/-- The interpreter, the policy and the key of the store. -/
structure Platform (F : Type) extends Runtime F where
  /-- `==` of two floats, and of a float and an integer. -/
  sameFloat : F → F → Bool
  floatIs : F → Int → Bool
  sha256 : String → String
  mac : String → String
  /-- A hexadecimal digest is not empty. -/
  mac_some : ∀ text, mac text ≠ ""
  /-- `observed_at < now - observationRetentionDays * 86400` -/
  expired : F → F → Bool
  /-- What is observed now has not expired. -/
  expired_now : ∀ now, expired now now = false

variable {F : Type}

structure Snapshot (F : Type) where
  (schemaVersion files containers : Value F)
  snapshotSha256 : String
  plain : schemaVersion.Plain ∧ files.Plain ∧ containers.Plain

def Snapshot.payload (snapshot : Snapshot F) : Value F :=
  .object [("containers", snapshot.containers), ("files", snapshot.files),
    ("schemaVersion", snapshot.schemaVersion)]

structure Change (F : Type) where
  key : String
  category : Category
  subject : String
  change : ChangeType
  critical : Bool
  details : Value F

def names : Value F → List String
  | .dict entries => entries.filterMap fun entry =>
      match entry.1 with
      | .str name => some name
      | _ => none
  | _ => []

def union (first second : List String) : List String :=
  ((first ++ second).dedup).insertionSort (· ≤ ·)

namespace Platform

variable (rt : Platform F)

def isTruth (value : Bool) (number : Int) : Bool := number = if value then 1 else 0

/-- `first == second` of two keys. -/
def sameKey : Key F → Key F → Bool
  | .none, .none => true
  | .str first, .str second => first = second
  | .bool first, .bool second => first = second
  | .int first, .int second => first = second
  | .float first, .float second => rt.sameFloat first second
  | .bool first, .int second => isTruth first second
  | .int first, .bool second => isTruth second first
  | .bool first, .float second => rt.floatIs second (if first then 1 else 0)
  | .float first, .bool second => rt.floatIs first (if second then 1 else 0)
  | .int first, .float second => rt.floatIs second first
  | .float first, .int second => rt.floatIs first second
  | _, _ => false

mutual
/-- `first == second` -/
def same : Value F → Value F → Bool
  | .none, .none => true
  | .str first, .str second => first = second
  | .bool first, .bool second => first = second
  | .int first, .int second => first = second
  | .float first, .float second => rt.sameFloat first second
  | .bool first, .int second => isTruth first second
  | .int first, .bool second => isTruth second first
  | .bool first, .float second => rt.floatIs second (if first then 1 else 0)
  | .float first, .bool second => rt.floatIs first (if second then 1 else 0)
  | .int first, .float second => rt.floatIs second first
  | .float first, .int second => rt.floatIs first second
  | .list first, .list second => sameItems first second
  | .dict first, .dict second => decide (first.length = second.length) && sameEntries first second
  | _, _ => false

def sameItems : List (Value F) → List (Value F) → Bool
  | [], [] => true
  | first :: rest, second :: others => same first second && sameItems rest others
  | _, _ => false

def sameEntries : List (Key F × Value F) → List (Key F × Value F) → Bool
  | [], _ => true
  | (key, first) :: rest, others =>
    (match others.find? fun entry => rt.sameKey key entry.1 with
    | some entry => same first entry.2
    | none => false) && sameEntries rest others
end

def noGet {α : Type} : Result α := .error ⟨.attributeError, "object has no attribute 'get'"⟩

def keyText (category : Category) (subject : String) (change : ChangeType) : String :=
  category.text ++ ":" ++ subject ++ ":" ++ change.text

def keyOf (category : Category) (subject : String) (change : ChangeType) : String :=
  rt.sha256 (keyText category subject change)

def changeOf (before after : Value F) : ChangeType :=
  if before.isNone then .added else if after.isNone then .removed else .modified

def criticalOf (category : Category) (before after : Value F) : Result Bool :=
  if category = .containers then .ok true
  else
    let row := rt.orElse (rt.orElse before after) (.dict [])
    if row.isDict then .ok (rt.truthy (row.get "critical")) else noGet

def detailsOf (category : Category) (before after : Value F) : Result (Value F) :=
  match category with
  | .files => .ok (.object [("before", before), ("after", after)])
  | .containers =>
    let before := rt.orElse before (.dict [])
    let after := rt.orElse after (.dict [])
    if before.isDict && after.isDict then
      .ok (.object [
        ("changedFields", .list (((union (names before) (names after)).filter fun key =>
          !rt.same (before.get key) (after.get key)).map .str)),
        ("beforeFingerprint", before.get "fingerprint"),
        ("afterFingerprint", after.get "fingerprint"),
        ("beforeImageRef", before.get "imageRef"), ("afterImageRef", after.get "imageRef"),
        ("beforeImageId", before.get "imageId"), ("afterImageId", after.get "imageId")])
    else noGet

/-- One round of the inner loop of `compare_snapshots`. -/
def compareSubject (category : Category) (beforeRows afterRows : Value F) (subject : String) :
    Result (List (Change F)) :=
  let before := beforeRows.get subject
  let after := afterRows.get subject
  if rt.same before after then .ok []
  else do
    let critical ← rt.criticalOf category before after
    let details ← rt.detailsOf category before after
    .ok [⟨rt.keyOf category subject (changeOf before after), category, subject,
      changeOf before after, critical, details⟩]

def compareSubjects (category : Category) (beforeRows afterRows : Value F) : List String → Result (List (Change F))
  | [] => .ok []
  | subject :: rest => do
    let first ← rt.compareSubject category beforeRows afterRows subject
    let others ← compareSubjects category beforeRows afterRows rest
    .ok (first ++ others)

def compareCategory (category : Category) (baseline current : Value F) : Result (List (Change F)) :=
  let beforeRows := rt.orElse (baseline.get category.text) (.dict [])
  let afterRows := rt.orElse (current.get category.text) (.dict [])
  if beforeRows.isDict && afterRows.isDict then
    rt.compareSubjects category beforeRows afterRows (union (names beforeRows) (names afterRows))
  else noGet

def compareSnapshots (baseline current : Value F) : Result (List (Change F)) := do
  let files ← rt.compareCategory .files baseline current
  let containers ← rt.compareCategory .containers baseline current
  .ok (files ++ containers)

end Platform

open Dash.Foundation

structure Baseline (F : Type) where
  id : String
  createdAt : F
  (actor reason snapshotJson snapshotSha256 signature : String)
  active : Bool

structure Observation (F : Type) where
  observedAt : F
  baselineId : Option String
  snapshotSha256 : String
  (driftCount criticalCount : Nat)
  maintenanceActive : Bool
  signature : String

structure Finding (F : Type) where
  (id findingKey : String)
  category : Category
  subject : String
  changeType : ChangeType
  critical : Bool
  (firstSeenAt lastSeenAt : F)
  (resolvedAt acknowledgedAt : Option F)
  acknowledgedBy : Option String
  (note detailsJson signature : String)

def Finding.isOpen (row : Finding F) : Bool := row.resolvedAt.isNone

structure Event (F : Type) where
  eventType : String
  createdAt : F
  (actor payloadJson : String)
  previousSignature : Option String
  signature : String

/-- The tables, each in the order in which its rows were inserted. -/
structure Db (F : Type) where
  baselines : List (Baseline F)
  observations : List (Observation F)
  findings : List (Finding F)
  events : List (Event F)

abbrev Action (F α : Type) : Type := Transaction (Db F) Exception α

def optional (time : Option F) : Value F :=
  match time with
  | some time => .float time
  | none => .none

/-- What `observe` stores of an observation, and what it returns. -/
structure Observed (F : Type) where
  observation : Observation F
  (opened resolved : List String)

namespace Platform

variable (rt : Platform F)

def canonical (value : Value F) : Result String := rt.dumps true value

def sign (document : Value F) : Result String := (rt.canonical document).map rt.mac

def baselineValue (row : Baseline F) (snapshot : Value F) : Value F :=
  .object [("id", .str row.id), ("createdAt", .float row.createdAt), ("actor", .str row.actor),
    ("reason", .str row.reason), ("snapshotSha256", .str row.snapshotSha256),
    ("snapshot", snapshot)]

def observationValue (row : Observation F) : Value F :=
  .object [("observedAt", .float row.observedAt), ("baselineId", Value.ofOption row.baselineId),
    ("snapshotSha256", .str row.snapshotSha256), ("driftCount", .int row.driftCount),
    ("criticalCount", .int row.criticalCount), ("maintenanceActive", .bool row.maintenanceActive)]

/-- `_finding_document`, signed. -/
def findingSignature (row : Finding F) : Result String := do
  let details ← rt.loads row.detailsJson
  rt.sign (.object [("id", .str row.id), ("findingKey", .str row.findingKey),
    ("category", .str row.category.text), ("subject", .str row.subject),
    ("changeType", .str row.changeType.text), ("critical", .bool row.critical),
    ("firstSeenAt", .float row.firstSeenAt), ("lastSeenAt", .float row.lastSeenAt),
    ("resolvedAt", optional row.resolvedAt), ("acknowledgedAt", optional row.acknowledgedAt),
    ("acknowledgedBy", Value.ofOption row.acknowledgedBy), ("note", .str row.note),
    ("details", details)])

def eventValue (row : Event F) (payload : Value F) : Value F :=
  .object [("eventType", .str row.eventType), ("createdAt", .float row.createdAt),
    ("actor", .str row.actor), ("payload", payload),
    ("previousSignature", Value.ofOption row.previousSignature)]

def signFinding (id : String) : Action F Unit := do
  let row ← Transaction.read fun db => db.findings.find? fun row => row.id = id
  match row with
  | none => Transaction.raise ⟨.valueError, "desired-state finding not found while signing"⟩
  | some row =>
    let signature ← Transaction.lift (rt.findingSignature row)
    Transaction.write fun db => { db with
      findings := update Finding.id id (fun row => { row with signature := signature }) db.findings }

def event (eventType actor : String) (payload : Value F) (at_ : F) : Action F Unit := do
  let previous ← Transaction.read fun db => db.events.getLast?.map Event.signature
  let text ← Transaction.lift (rt.canonical payload)
  let row : Event F := ⟨eventType, at_, actor, text, previous, ""⟩
  let signature ← Transaction.lift (rt.sign (eventValue row payload))
  Transaction.write fun db => { db with events := db.events ++ [{ row with signature := signature }] }

def cleaned (limit : Nat) (value : String) : String := clip limit (strip value)

/-- `seal` -/
def sealSnapshot (snapshot : Snapshot F) (actor reason id : String) (now : F) : Action F Unit := do
  let actor := cleaned 128 actor
  let reason := cleaned 1000 reason
  Transaction.check (actor ≠ "" ∧ reason ≠ "") ⟨.valueError, "actor and reason are required to seal desired state"⟩
  let text ← Transaction.lift (rt.canonical snapshot.payload)
  let row : Baseline F := ⟨id, now, actor, reason, text, rt.sha256 text, "", true⟩
  let signature ← Transaction.lift (rt.sign (baselineValue row snapshot.payload))
  let db ← Transaction.read fun db => db
  let prior := (db.baselines.find? Baseline.active).map Baseline.id
  Transaction.check (id ∉ db.baselines.map Baseline.id) ⟨.integrityError, "UNIQUE constraint failed: baselines.id"⟩
  Transaction.write fun db => { db with
    baselines := (db.baselines.map fun row =>
      if some row.id = prior then { row with active := false } else row) ++
        [{ row with signature := signature }] }
  let open_ := (db.findings.filter Finding.isOpen).map Finding.id
  Transaction.write fun db => { db with
    findings := db.findings.map fun row =>
      if row.isOpen then { row with resolvedAt := some now } else row }
  let _ ← Transaction.each rt.signFinding open_
  rt.event "baseline-sealed" actor (.object [("baselineId", .str id),
    ("priorBaselineId", Value.ofOption prior), ("snapshotSha256", .str row.snapshotSha256),
    ("reason", .str reason)]) now

/-- One change of `observe`, with the identifier that is drawn if its finding is new; the finding
that it opens, if it opens one. -/
def openChange (now : F) (existing : List (Finding F)) (entry : Change F × String) : Action F (List String) := do
  let (change, drawn) := entry
  let details ← Transaction.lift (rt.canonical change.details)
  match existing.find? fun row => row.findingKey = change.key with
  | some row =>
    Transaction.write fun db => { db with
      findings := update Finding.findingKey change.key
        (fun row => { row with lastSeenAt := now, detailsJson := details }) db.findings }
    rt.signFinding row.id
    pure []
  | none =>
    let prior ← Transaction.read fun db => db.findings.find? fun row => row.findingKey = change.key
    match prior with
    | some prior =>
      Transaction.write fun db => { db with
        findings := update Finding.id prior.id
          (fun row => { row with
            critical := change.critical
            lastSeenAt := now
            resolvedAt := none
            acknowledgedAt := none
            acknowledgedBy := none
            note := ""
            detailsJson := details }) db.findings }
      rt.signFinding prior.id
      pure [prior.id]
    | none =>
      let taken ← Transaction.read fun db => db.findings.map Finding.id
      Transaction.check (drawn ∉ taken) ⟨.integrityError, "UNIQUE constraint failed: findings.id"⟩
      Transaction.write fun db => { db with
        findings := db.findings ++ [⟨drawn, change.key, change.category, change.subject,
          change.change, change.critical, now, now, none, none, none, "", details, ""⟩] }
      rt.signFinding drawn
      pure [drawn]

def resolve (now : F) (row : Finding F) : Action F String := do
  Transaction.write fun db => { db with
    findings := update Finding.findingKey row.findingKey
      (fun row => { row with resolvedAt := some now }) db.findings }
  rt.signFinding row.id
  pure row.id

/-- `active_baseline`: its identifier and its snapshot. -/
def activeBaseline (db : Db F) : Result (Option (String × Value F)) :=
  match db.baselines.find? Baseline.active with
  | none => .ok none
  | some row => (rt.loads row.snapshotJson).map fun snapshot => some (row.id, snapshot)

def changesFrom (baseline : Option (String × Value F)) (snapshot : Snapshot F) : Result (List (Change F)) :=
  match baseline with
  | none => .ok []
  | some (_, baseline) => rt.compareSnapshots baseline snapshot.payload

def listed (ids : List String) : Value F :=
  .object [("findingIds", .list (ids.map .str)), ("count", .int ids.length)]

def announce (eventType : String) (ids : List String) (now : F) : Action F Unit :=
  if ids = [] then pure () else rt.event eventType "collector" (listed ids) now

/-- `observe`; `drawn` gives the identifiers that new findings may take. -/
def observe (snapshot : Snapshot F) (maintenanceActive : Bool) (drawn : Nat → String) (now : F) :
    Action F (Observed F) := do
  let db ← Transaction.read fun db => db
  let baseline ← Transaction.lift (rt.activeBaseline db)
  let changes ← Transaction.lift (rt.changesFrom baseline snapshot)
  let existing := db.findings.filter Finding.isOpen
  let opened ← Transaction.each (rt.openChange now existing)
    (changes.zipIdx.map fun entry => (entry.1, drawn entry.2))
  let resolved ← Transaction.each (rt.resolve now)
    (existing.filter fun row => !(changes.any fun change => change.key = row.findingKey))
  let observation : Observation F := ⟨now, baseline.map Prod.fst, snapshot.snapshotSha256,
    changes.length, changes.countP Change.critical, maintenanceActive, ""⟩
  let signature ← Transaction.lift (rt.sign (observationValue observation))
  Transaction.write fun db => { db with
    observations := (db.observations ++ [{ observation with signature := signature }]).filter
      fun row => !rt.expired row.observedAt now }
  rt.announce "drift-opened" opened.flatten now
  rt.announce "drift-resolved" resolved now
  pure ⟨{ observation with signature := signature }, opened.flatten, resolved⟩

def acknowledge (findingId actor note : String) (now : F) : Action F Unit := do
  let actor := cleaned 128 actor
  let note := cleaned 2000 note
  Transaction.check (actor ≠ "") ⟨.valueError, "actor is required"⟩
  let row ← Transaction.read fun db => db.findings.find? fun row => row.id = findingId ∧ row.isOpen
  match row with
  | none => Transaction.raise ⟨.valueError, "open drift finding not found"⟩
  | some row =>
    Transaction.write fun db => { db with
      findings := update Finding.id row.id (fun row => { row with
        acknowledgedAt := some now
        acknowledgedBy := some actor
        note := note }) db.findings }
    rt.signFinding row.id
    rt.event "drift-acknowledged" actor (.object [("findingId", .str row.id), ("note", .str note)]) now

def baselineValid (row : Baseline F) : Result Bool := do
  let snapshot ← rt.loads row.snapshotJson
  let text ← rt.canonical snapshot
  let signature ← rt.sign (baselineValue row snapshot)
  .ok (decide (rt.sha256 text = row.snapshotSha256) && decide (signature = row.signature))

def observationValid (row : Observation F) : Result Bool :=
  (rt.sign (observationValue row)).map fun signature => decide (signature = row.signature)

def findingValid (row : Finding F) : Result Bool :=
  if row.signature = "" then .ok false
  else (rt.findingSignature row).map fun signature => decide (signature = row.signature)

def allValid {α : Type} (valid : α → Result Bool) : List α → Result Bool
  | [] => .ok true
  | row :: rest => do
    let first ← valid row
    let others ← allValid valid rest
    .ok (first && others)

def chainValid (previous : Option String) : List (Event F) → Result Bool
  | [] => .ok true
  | row :: rest => do
    let payload ← rt.loads row.payloadJson
    let signature ← rt.sign (eventValue row payload)
    let others ← chainValid (some row.signature) rest
    .ok (decide (row.previousSignature = previous) && decide (signature = row.signature) && others)

/-- What `verify` reports of the signatures. -/
structure Report where
  (baselineSignaturesValid observationSignaturesValid findingSignaturesValid eventChainValid : Bool)
  deriving DecidableEq

/-- `verify` of a database whose file and triggers are in order. -/
def verify (db : Db F) : Report :=
  let found : Result Report := do
    let baselines ← allValid rt.baselineValid db.baselines
    let observations ← allValid rt.observationValid db.observations
    let findings ← allValid rt.findingValid db.findings
    let events ← rt.chainValid none db.events
    .ok ⟨baselines, observations, findings, events⟩
  match found with
  | .ok report => report
  | .error _ => ⟨false, false, false, false⟩

end Platform

inductive Call (F : Type) where
  | sealed (snapshot : Snapshot F) (actor reason id : String) (now : F)
  | observe (snapshot : Snapshot F) (maintenanceActive : Bool) (drawn : Nat → String) (now : F)
  | acknowledge (findingId actor note : String) (now : F)

namespace Platform

variable (rt : Platform F)

/-- The store after a call; one that raised changed nothing. -/
def perform (db : Db F) : Call F → Db F
  | .sealed snapshot actor reason id now => (rt.sealSnapshot snapshot actor reason id now).commit db
  | .observe snapshot maintenanceActive drawn now =>
    (rt.observe snapshot maintenanceActive drawn now).commit db
  | .acknowledge findingId actor note now => (rt.acknowledge findingId actor note now).commit db

def run (calls : List (Call F)) : Db F := calls.foldl rt.perform ⟨[], [], [], []⟩

end Platform

end Dash.Drift
