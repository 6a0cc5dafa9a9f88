import Dash.Approvals.Policies
import Dash.Foundation.Table
import Dash.Python.Plain

/-! The tables of the change-approval store with the codes that bind their rows, and its operations.

A table is the list of its rows, the events in the order of their sequence numbers. Times are linearly
ordered, as the finite floats are. Each operation is one immediate transaction. One that changes a
request then reads it again with `get`; that is a call of its own here, since other calls may come
between. The platform at the end runs the store on concrete calls: a code is the text it is of, after a
letter that starts no code of another kind.
-/

set_option autoImplicit false

namespace Dash.Approvals

open Dash.Python Dash.Foundation

inductive State where
  | pending | approved | rejected | cancelled | expired | consumed
  deriving DecidableEq, Repr

def State.text : State → String
  | .pending => "pending"
  | .approved => "approved"
  | .rejected => "rejected"
  | .cancelled => "cancelled"
  | .expired => "expired"
  | .consumed => "consumed"

def State.terminal (state : State) : Bool :=
  state ∈ [.consumed, .rejected, .cancelled, .expired]

inductive EventAction where
  | request | approve | reject | cancel | consume | expire
  deriving DecidableEq, Repr

def EventAction.text : EventAction → String
  | .request => "request"
  | .approve => "approve"
  | .reject => "reject"
  | .cancel => "cancel"
  | .consume => "consume"
  | .expire => "expire"

structure Request (T : Type) where
  id : String
  (createdAt expiresAt : T)
  (requesterId requesterName targetPath requiredCapability : String)
  risk : Risk
  (summary bodyHmacSha256 reviewJson requestHmacSha256 : String)
  state : State
  (approverId approverName : Option String)
  approvedAt : Option T
  consumedBy : Option String
  (consumedAt decidedAt : Option T)
  stateHmacSha256 : String

structure Event (T : Type) where
  requestId : String
  occurredAt : T
  actorId : String
  action : EventAction
  previousState : Option State
  state : State
  (detailsJson previousHmacSha256 eventHmacSha256 : String)

structure Db (T : Type) where
  requests : List (Request T)
  events : List (Event T)

def Db.empty (T : Type) : Db T := ⟨[], []⟩

abbrev Action (T α : Type) : Type := Transaction (Db T) Exception α

/-- The interpreter, `hmac.new(key, text, sha256).hexdigest()` under the store's key, the
times it reads, and the lifetime the store was opened with. -/
structure Platform (F T : Type) extends Runtime F where
  mac : String → String
  /-- The float a time is. -/
  epoch : T → F
  /-- `time + seconds` -/
  later : T → Int → T
  /-- `int(time - earlier)` -/
  age : T → T → Int
  /-- `strftime("approval-%Y%m%dT%H%M%SZ-")` of the UTC time. -/
  stamp : T → String
  utcIso : T → String
  ttlSeconds : Int

def NO_HMAC : String := String.ofList (List.replicate 64 '0')

variable {F T : Type}

def Db.request? (db : Db T) (id : String) : Option (Request T) :=
  db.requests.find? fun row => row.id = id

def Db.head (db : Db T) : String := (db.events.getLast?.map Event.eventHmacSha256).getD NO_HMAC

def Db.appendRequest (db : Db T) (row : Request T) : Db T :=
  { db with requests := db.requests ++ [row] }

def Db.appendEvent (db : Db T) (event : Event T) : Db T :=
  { db with events := db.events ++ [event] }

/-- `update approval_requests set ... where id=? and state=?` -/
def Db.setRequest (db : Db T) (id : String) (state : State) (change : Request T → Request T) : Db T :=
  { db with
    requests := update (fun row => (row.id, row.state)) (id, state) change db.requests }

def Action.permissionError {α : Type} (message : String) : Action T α :=
  Transaction.raise ⟨.permissionError, message⟩

def Action.runtimeError {α : Type} (message : String) : Action T α :=
  Transaction.raise ⟨.runtimeError, message⟩

namespace Platform

variable (rt : Platform F T)

def canonical (value : Value F) : Result String := rt.dumps true value

def time (at_ : T) : Value F := .float (rt.epoch at_)

def optionalTime : Option T → Value F
  | some at_ => rt.time at_
  | none => .none

def tagged (kind text : String) : String := rt.mac (kind ++ "\x00" ++ text)

def bodyHmac (body : Value F) : Result String := do
  let (_, encoded) ← Policies.normalizedBody rt.toRuntime body
  .ok (rt.tagged "body" encoded)

def requestPayload (row : Request T) : Result (Value F) := do
  let review ← rt.loads row.reviewJson
  .ok (.object [("schemaVersion", .int 1), ("id", .str row.id), ("createdAt", rt.time row.createdAt),
    ("expiresAt", rt.time row.expiresAt), ("requesterId", .str row.requesterId),
    ("requesterName", .str row.requesterName), ("targetPath", .str row.targetPath),
    ("requiredCapability", .str row.requiredCapability), ("risk", .str row.risk.text),
    ("summary", .str row.summary), ("bodyHmacSha256", .str row.bodyHmacSha256),
    ("reviewBody", review)])

def requestHmac (row : Request T) : Result String := do
  let payload ← rt.requestPayload row
  let text ← rt.canonical payload
  .ok (rt.tagged "request" text)

def statePayload (row : Request T) : Value F :=
  .object [("schemaVersion", .int 1), ("id", .str row.id), ("state", .str row.state.text),
    ("approverId", .ofOption row.approverId), ("approverName", .ofOption row.approverName),
    ("approvedAt", rt.optionalTime row.approvedAt), ("consumedBy", .ofOption row.consumedBy),
    ("consumedAt", rt.optionalTime row.consumedAt), ("decidedAt", rt.optionalTime row.decidedAt)]

def stateHmac (row : Request T) : Result String := do
  let text ← rt.canonical (rt.statePayload row)
  .ok (rt.tagged "state" text)

def verifyRequestRow (row : Request T) : Result Unit := do
  let expected ← rt.requestHmac row
  if row.requestHmacSha256 ≠ expected then
    .error ⟨.runtimeError, "change approval " ++ row.id ++ " immutable record HMAC does not match"⟩
  else
    let expected ← rt.stateHmac row
    if row.stateHmacSha256 ≠ expected then
      .error ⟨.runtimeError, "change approval " ++ row.id ++ " state HMAC does not match"⟩
    else .ok ()

def eventPayload (event : Event T) (previous : String) : Result (Value F) := do
  let details ← rt.loads event.detailsJson
  .ok (.object [("schemaVersion", .int 1), ("requestId", .str event.requestId),
    ("occurredAt", rt.time event.occurredAt), ("actorId", .str event.actorId),
    ("action", .str event.action.text),
    ("previousState", .ofOption (event.previousState.map State.text)),
    ("state", .str event.state.text), ("details", details), ("previousHmacSha256", .str previous)])

def eventHmac (event : Event T) (previous : String) : Result String := do
  let payload ← rt.eventPayload event previous
  let text ← rt.canonical payload
  .ok (rt.tagged "event" text)

/-- `_append_event`; `details` of `None` is an empty object. -/
def appendEvent (requestId actorId : String) (action : EventAction) (previousState : Option State)
    (state : State) (details : Value F) (occurredAt : T) : Action T String := do
  let previous ← Transaction.read Db.head
  let detailsJson ← Transaction.lift (rt.canonical details)
  let draft : Event T := ⟨requestId, occurredAt, actorId, action, previousState, state, detailsJson,
    previous, ""⟩
  let digest ← Transaction.lift (rt.eventHmac draft previous)
  Transaction.write fun db => db.appendEvent { draft with eventHmacSha256 := digest }
  pure digest

end Platform

variable {F T : Type}

def isDigit (char : Char) : Bool := decide ('0' ≤ char) && decide (char ≤ '9')

def isHexDigit (char : Char) : Bool :=
  isDigit char || (decide ('a' ≤ char) && decide (char ≤ 'f'))

/-- `REQUEST_ID`: `approval-[0-9]{8}T[0-9]{6}Z-[0-9a-f]{16}` -/
def isRequestId (text : String) : Bool :=
  let chars := text.toList
  decide (chars.length = 42) && decide (chars.take 9 = "approval-".toList) &&
    ((chars.drop 9).take 8).all isDigit && decide ((chars.drop 17).take 1 = ['T']) &&
    ((chars.drop 18).take 6).all isDigit && decide ((chars.drop 24).take 2 = ['Z', '-']) &&
    (chars.drop 26).all isHexDigit

/-- What `verify` returns. -/
inductive Verification where
  | ok (checked requestsChecked : Nat) (headHmacSha256 : String)
  | failedRequest (checked : Nat) (id : String)
  | failedEvent (checked : Nat)

def Verification.isOk : Verification → Bool
  | .ok _ _ _ => true
  | _ => false

structure Status where
  counts : State → Nat
  oldestPendingAgeSeconds : Int
  ledger : Verification

/-- The row of a new request, its codes still to be computed. -/
def Request.pending (id : String) (createdAt expiresAt : T) (actor : Actor) (policy : Policy)
    (requiredCapability summary bodyHmac reviewJson : String) : Request T where
  id := id
  createdAt := createdAt
  expiresAt := expiresAt
  requesterId := actor.id
  requesterName := actor.displayName
  targetPath := policy.path
  requiredCapability := requiredCapability
  risk := policy.risk
  summary := summary
  bodyHmacSha256 := bodyHmac
  reviewJson := reviewJson
  requestHmacSha256 := ""
  state := .pending
  approverId := none
  approverName := none
  approvedAt := none
  consumedBy := none
  consumedAt := none
  decidedAt := none
  stateHmacSha256 := ""

def Request.withCodes (requestHmac stateHmac : String) (row : Request T) : Request T :=
  { row with requestHmacSha256 := requestHmac, stateHmacSha256 := stateHmac }

/-! The column updates of the transitions. -/

def Request.expire (now : T) (row : Request T) : Request T :=
  { row with state := .expired, decidedAt := some now }

def Request.approve (actor : Actor) (now : T) (row : Request T) : Request T :=
  { row with
    state := .approved
    approverId := some actor.id
    approverName := some actor.displayName
    approvedAt := some now
    decidedAt := some now }

def Request.reject (now : T) (row : Request T) : Request T :=
  { row with state := .rejected, decidedAt := some now }

def Request.cancel (now : T) (row : Request T) : Request T :=
  { row with state := .cancelled, decidedAt := some now }

def Request.consume (actor : Actor) (now : T) (row : Request T) : Request T :=
  { row with
    state := .consumed, consumedBy := some actor.id, consumedAt := some now, decidedAt := some now }

namespace Platform

section Rows

variable (rt : Platform F T)

def insertRequest (draft : Request T) : Action T Unit := do
  let requestHmac ← Transaction.lift (rt.requestHmac draft)
  let stateHmac ← Transaction.lift (rt.stateHmac draft)
  let ids ← Transaction.read fun db => db.requests.map Request.id
  Transaction.check (draft.id ∉ ids) ⟨.integrityError, "UNIQUE constraint failed: approval_requests.id"⟩
  Transaction.write fun db => db.appendRequest (draft.withCodes requestHmac stateHmac)

def writeState (row : Request T) (change : Request T → Request T) : Action T Unit := do
  let stateHmac ← Transaction.lift (rt.stateHmac (change row))
  Transaction.write fun db => db.setRequest row.id row.state fun row =>
    { change row with stateHmacSha256 := stateHmac }

def expireRow (now : T) (row : Request T) : Action T Unit := do
  Transaction.lift (rt.verifyRequestRow row)
  rt.writeState row (Request.expire now)
  let _ ← rt.appendEvent row.id "system" .expire (some row.state) .expired (.dict []) now
  pure ()

def getRow (requestId : Value F) : Action T (Request T) := do
  let id := strip (rt.str (rt.orElse requestId (.str "")))
  if isRequestId id = false then
    Transaction.raise ⟨.valueError, "invalid change approval id"⟩
  else do
    let found ← Transaction.read fun db => db.request? id
    match found with
    | none => Transaction.raise ⟨.valueError, "change approval was not found"⟩
    | some row => do
      Transaction.lift (rt.verifyRequestRow row)
      pure row

/-- `_public`, of the row that `get` read in its transaction. -/
def publicRow (row : Request T) : Result (Value F) := do
  let review ← rt.loads row.reviewJson
  let moment (at_ : Option T) : Value F :=
    match at_ with
    | some at_ => if rt.nonzero (rt.epoch at_) then .str (rt.utcIso at_) else .none
    | none => .none
  let approver : Value F :=
    match row.approverId with
    | some id => if id = "" then .none else
      .object [("id", .str id), ("displayName", .ofOption row.approverName)]
    | none => .none
  .ok (.object [("id", .str row.id), ("createdAt", .str (rt.utcIso row.createdAt)),
    ("expiresAt", .str (rt.utcIso row.expiresAt)),
    ("requester", .object [("id", .str row.requesterId), ("displayName", .str row.requesterName)]),
    ("targetPath", .str row.targetPath), ("requiredCapability", .str row.requiredCapability),
    ("risk", .str row.risk.text), ("summary", .str row.summary),
    ("bodyHmacSha256", .str row.bodyHmacSha256), ("reviewBody", review),
    ("state", .str row.state.text), ("approver", approver), ("approvedAt", moment row.approvedAt),
    ("consumedBy", .ofOption row.consumedBy), ("consumedAt", moment row.consumedAt)])

/-- What `list` returns of the rows it read. -/
def publicRows : List (Request T) → Result (List (Value F))
  | [] => .ok []
  | row :: rest => do
    rt.verifyRequestRow row
    let first ← rt.publicRow row
    let others ← publicRows rest
    .ok (first :: others)

def failedRequest : List (Request T) → Result (Option String)
  | [] => .ok none
  | row :: rest =>
    match rt.verifyRequestRow row with
    | .ok () => failedRequest rest
    | .error why => if why.type = .runtimeError then .ok (some row.id) else .error why

def verifyEvents (requestsChecked : Nat) : String → Nat → List (Event T) → Result Verification
  | previous, checked, [] => .ok (.ok checked requestsChecked previous)
  | previous, checked, event :: rest => do
    let expected ← rt.eventHmac event previous
    if event.previousHmacSha256 ≠ previous ∨ event.eventHmacSha256 ≠ expected then
      .ok (.failedEvent checked)
    else verifyEvents requestsChecked event.eventHmacSha256 (checked + 1) rest

end Rows

variable [LinearOrder T] (rt : Platform F T)

/-- `order by created_at,id` -/
def inOrder (rows : List (Request T)) : List (Request T) :=
  rows.insertionSort fun first second =>
    first.createdAt < second.createdAt ∨
      (first.createdAt = second.createdAt ∧ first.id ≤ second.id)

def verify (db : Db T) : Result Verification := do
  let failed ← rt.failedRequest (inOrder db.requests)
  match failed with
  | some id => .ok (.failedRequest 0 id)
  | none => rt.verifyEvents db.requests.length NO_HMAC 0 db.events

def overdue (now : T) (row : Request T) : Bool :=
  (row.state = .pending || row.state = .approved) && decide (row.expiresAt ≤ now)

def expire (now : T) : Action T Nat := do
  let rows ← Transaction.read fun db => inOrder (db.requests.filter (overdue now))
  let _ ← Transaction.each (rt.expireRow now) rows
  pure rows.length

def lifetime (ttlSeconds : Value F) : Result Int :=
  if ttlSeconds.isBlank then .ok rt.ttlSeconds
  else (rt.int ttlSeconds).map fun seconds => max 60 (min seconds 3600)

/-- The part of `create` after the target was found to be governed. -/
def openRequest (actor : Actor) (policy : Policy) (body : Value F) (capability : String)
    (summary ttlSeconds : Value F) (now : T) (token : String) : Action T String := do
  let summary := strip (rt.str (rt.orElse summary (.str policy.label)))
  if summary = "" ∨ MAX_SUMMARY_BYTES < summary.utf8ByteSize then
    Transaction.raise ⟨.valueError, "approval summary must be 1-1000 UTF-8 bytes"⟩
  else do
    let ttl ← Transaction.lift (rt.lifetime ttlSeconds)
    let digest ← Transaction.lift (rt.bodyHmac body)
    let (clean, _) ← Transaction.lift (Policies.normalizedBody rt.toRuntime body)
    let review ← Transaction.lift (rt.canonical (Policies.redactedBody rt.toRuntime "" clean))
    let _ ← rt.expire now
    let id := rt.stamp now ++ token
    rt.insertRequest (.pending id now (rt.later now ttl) actor policy capability summary digest review)
    let _ ← rt.appendEvent id actor.id .request none .pending
      (.object [("targetPath", .str policy.path), ("risk", .str policy.risk.text),
        ("bodyHmacSha256", .str digest)]) now
    pure id

def create (principal : Value F) (targetPath : String) (body : Value F) (capability risk : String)
    (summary ttlSeconds : Value F) (now : T) (token : String) : Action T String := do
  let actor ← Transaction.lift (Policies.actor rt.toRuntime principal)
  let policy ← Transaction.lift (Policies.policyFor rt.toRuntime targetPath body)
  match policy with
  | none => Transaction.raise ⟨.valueError, "target request is not a governed mutation"⟩
  | some policy =>
    if policy.risk.text ≠ risk then
      Transaction.raise ⟨.valueError, "approval risk does not match the governed target"⟩
    else rt.openRequest actor policy body capability summary ttlSeconds now token

def get (requestId : Value F) (now : T) : Action T (Request T) := do
  let _ ← rt.expire now
  rt.getRow requestId

def list (limit : Value F) (now : T) : Action T (List (Request T)) := do
  let limit ← Transaction.lift (rt.int limit)
  let _ ← rt.expire now
  Transaction.read fun db =>
    (inOrder db.requests).reverse.take (max 1 (min limit 500)).toNat

def approve (requestId principal : Value F) (now : T) : Action T String := do
  let actor ← Transaction.lift (Policies.actor rt.toRuntime principal)
  let _ ← rt.expire now
  let row ← rt.getRow requestId
  if row.state ≠ .pending then
    Action.runtimeError ("change approval is " ++ row.state.text ++ ", not pending")
  else if row.requesterId = actor.id then
    Action.permissionError "requester cannot approve their own change"
  else do
    rt.writeState row (Request.approve actor now)
    let _ ← rt.appendEvent row.id actor.id .approve (some .pending) .approved (.dict []) now
    pure row.id

def reject (requestId principal reason : Value F) (now : T) : Action T String := do
  let actor ← Transaction.lift (Policies.actor rt.toRuntime principal)
  let reason := clip 1000 (strip (rt.str (rt.orElse reason (.str ""))))
  let _ ← rt.expire now
  let row ← rt.getRow requestId
  if row.state ≠ .pending then
    Action.runtimeError ("change approval is " ++ row.state.text ++ ", not pending")
  else if row.requesterId = actor.id then
    Action.permissionError "requester must cancel rather than reject their own change"
  else do
    rt.writeState row (Request.reject now)
    let _ ← rt.appendEvent row.id actor.id .reject (some .pending) .rejected
      (.object [("reason", .str reason)]) now
    pure row.id

def cancel (requestId principal : Value F) (now : T) : Action T String := do
  let actor ← Transaction.lift (Policies.actor rt.toRuntime principal)
  let _ ← rt.expire now
  let row ← rt.getRow requestId
  if row.requesterId ≠ actor.id then
    Action.permissionError "only the requester can cancel a change approval"
  else if row.state ≠ .pending ∧ row.state ≠ .approved then
    Action.runtimeError ("change approval is " ++ row.state.text ++ " and cannot be cancelled")
  else do
    rt.writeState row (Request.cancel now)
    let _ ← rt.appendEvent row.id actor.id .cancel (some row.state) .cancelled (.dict []) now
    pure row.id

def drift (row : Request T) (targetPath digest capability risk : String) : List String :=
  ([("target path", decide (row.targetPath = targetPath)), ("request body", decide (row.bodyHmacSha256 = digest)),
    ("capability", decide (row.requiredCapability = capability)),
    ("risk", decide (row.risk.text = risk))].filter fun check => !check.2).map Prod.fst

def consume (requestId principal : Value F) (targetPath : String) (body : Value F)
    (capability risk : String) (now : T) : Action T String := do
  let actor ← Transaction.lift (Policies.actor rt.toRuntime principal)
  let digest ← Transaction.lift (rt.bodyHmac body)
  let _ ← rt.expire now
  let row ← rt.getRow requestId
  if row.state ≠ .approved then
    Action.permissionError ("change approval is " ++ row.state.text ++ ", not approved")
  else if row.requesterId ≠ actor.id then
    Action.permissionError "only the original requester can consume this approval"
  else if drift row targetPath digest capability risk ≠ [] then
    Action.permissionError ("change approval does not match execution " ++
      join ", " (drift row targetPath digest capability risk))
  else do
    let updated ← Transaction.read fun db =>
      db.requests.countP fun other => (other.id, other.state) = (row.id, .approved)
    rt.writeState row (Request.consume actor now)
    if updated ≠ 1 then Action.runtimeError "change approval was consumed concurrently"
    else do
      let _ ← rt.appendEvent row.id actor.id .consume (some .approved) .consumed
        (.object [("bodyHmacSha256", .str digest)]) now
      pure row.id

/-- The transaction of `status`: the requests in each state, and the age of the oldest
pending one. -/
def count (now : T) : Action T ((State → Nat) × Int) := do
  let _ ← rt.expire now
  Transaction.read fun db =>
    let oldest := ((db.requests.filter fun row => row.state = .pending).map Request.createdAt).min?
    (fun state => db.requests.countP fun row => row.state = state,
      (oldest.map fun created => max 0 (rt.age now created)).getD 0)

/-- What `status` returns, where the ledger is read after the commit. -/
def status (now : T) (db : Db T) : Result Status := do
  let ((counts, age), after) ← rt.count now db
  let ledger ← rt.verify after
  .ok ⟨counts, age, ledger⟩

end Platform

inductive Operation (F : Type) where
  | create (principal : Value F) (targetPath : String) (body : Value F) (capability risk : String)
      (summary ttlSeconds : Value F) (token : String)
  | approve (requestId principal : Value F)
  | reject (requestId principal reason : Value F)
  | cancel (requestId principal : Value F)
  | consume (requestId principal : Value F) (targetPath : String) (body : Value F)
      (capability risk : String)
  | get (requestId : Value F)
  | list (limit : Value F)
  | status

structure Call (F T : Type) where
  operation : Operation F
  now : T

namespace Platform

variable [LinearOrder T] (rt : Platform F T)

/-- The transaction of a call. It returns the request it is about, if it is about one. -/
def perform (call : Call F T) : Action T (Option String) :=
  match call.operation with
  | .create principal path body capability risk summary ttl token => do
    let id ← rt.create principal path body capability risk summary ttl call.now token
    pure (some id)
  | .approve requestId principal => do
    let id ← rt.approve requestId principal call.now
    pure (some id)
  | .reject requestId principal reason => do
    let id ← rt.reject requestId principal reason call.now
    pure (some id)
  | .cancel requestId principal => do
    let id ← rt.cancel requestId principal call.now
    pure (some id)
  | .consume requestId principal path body capability risk => do
    let id ← rt.consume requestId principal path body capability risk call.now
    pure (some id)
  | .get requestId => do
    let row ← rt.get requestId call.now
    pure (some row.id)
  | .list limit => do
    let _ ← rt.list limit call.now
    pure none
  | .status => do
    let _ ← rt.count call.now
    pure none

/-- The database after a call: as the transaction left it, or unchanged if it raised. -/
def apply (db : Db T) (call : Call F T) : Db T := (rt.perform call).commit db

def run (calls : List (Call F T)) : Db T := calls.foldl rt.apply (.empty T)

end Platform

def wholeSeconds (seconds : Int) : FloatText :=
  .decimal (decide (seconds < 0)) seconds.natAbs (.fraction digitZero)

def plain : Platform FloatText Int where
  toRuntime := plainRuntime
  mac text := "m" ++ text
  epoch := wholeSeconds
  later now seconds := now + seconds
  age now created := now - created
  stamp _ := "approval-20260717T000000Z-"
  utcIso seconds := toString seconds
  ttlSeconds := 900

def person (id : String) : Value FloatText := .object [("id", .str id)]

def requestToken : String := "0123456789abcdef"

def requestId : Value FloatText := .str ("approval-20260717T000000Z-" ++ requestToken)

def envBody : Value FloatText := .object [("key", .str "value")]

def envPath : String := "/api/settings/env"

def twoPeople : List (Call FloatText Int) := [
  ⟨.create (person "requester") envPath envBody "settings.write" "critical" .none .none requestToken, 0⟩,
  ⟨.approve requestId (person "approver"), 10⟩,
  ⟨.consume requestId (person "requester") envPath envBody "settings.write" "critical", 20⟩]

end Dash.Approvals
