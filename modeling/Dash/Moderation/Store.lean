import Dash.Foundation.Table
import Dash.Foundation.Transaction
import Dash.Python.Value

/-! The moderation store: cases, their append-only log of events, and bans.

A time is what `isoformat` writes for it, of which only the order matters; a call that reads the
clock several times reads one time here. Notes, allowlists, presence, heat maps, security and
enforcement events are other tables of the same database and are not modelled.
-/

set_option autoImplicit false

namespace Dash.Moderation

open Dash.Python Dash.Foundation

inductive Status where
  | opened | investigating | actioned | closed | appealed
  deriving DecidableEq, Repr

def Status.text : Status → String
  | .opened => "open"
  | .investigating => "investigating"
  | .actioned => "actioned"
  | .closed => "closed"
  | .appealed => "appealed"

def CASE_STATUSES : List Status := [.opened, .investigating, .actioned, .closed, .appealed]

def CASE_SEVERITIES : List String := ["info", "low", "medium", "high", "critical"]

inductive EventType where
  | opened | updated | banCreated | banRevoked | banExpired
  deriving DecidableEq, Repr

def EventType.text : EventType → String
  | .opened => "opened"
  | .updated => "updated"
  | .banCreated => "ban-created"
  | .banRevoked => "ban-revoked"
  | .banExpired => "ban-expired"

def EventType.ends : EventType → Bool
  | .banRevoked => true
  | .banExpired => true
  | _ => false

structure Case (T : Type) where
  id : String
  accountId : Option Int
  (characterName funcomId platformId category severity : String)
  status : Status
  (summary openedBy assignedTo : String)
  (createdAt updatedAt : T)
  closedAt : Option T
  metadata : String

structure CaseEvent (T : Type) where
  caseId : String
  eventType : EventType
  (actor detail : String)
  createdAt : T
  metadata : String

structure Ban (T : Type) where
  (id caseId : String)
  accountId : Option Int
  (funcomId platformId reason : String)
  startsAt : T
  expiresAt : Option T
  active : Bool
  createdBy : String
  createdAt : T
  revokedBy : Option String
  revokedAt : Option T
  revokeReason : Option String

structure Db (T : Type) where
  cases : List (Case T)
  caseEvents : List (CaseEvent T)
  bans : List (Ban T)

def Db.empty (T : Type) : Db T := ⟨[], [], []⟩

abbrev Action (T α : Type) : Type := Transaction (Db T) Exception α

/-- `str(uuid.uuid4())`: text without blanks of fewer than 64 characters. -/
structure Uuid where
  text : String
  plain : ∀ char ∈ text.toList, isSpace char = false
  short : text.length ≤ 64

structure Platform (F T : Type) extends Runtime F where
  /-- `time + timedelta(hours=hours)` -/
  later : T → Int → T
  /-- The text of a time. -/
  iso : T → String

variable {F T : Type}

def Action.valueError {α : Type} (message : String) : Action T α :=
  Transaction.raise ⟨.valueError, message⟩

namespace Platform

variable (rt : Platform F T)

/-- `_clean` of a string. -/
def cleanText (limit : Nat) (text : String) : String := clip limit (strip text)

def clean (limit : Nat) (value : Value F) : String :=
  cleanText limit (rt.str (rt.orElse value (.str "")))

def actorName (other : String) (actor : String) : String :=
  if cleanText 128 actor = "" then other else cleanText 128 actor

/-- `_int` -/
def boundedInt (value : Value F) (label : String) (minimum : Int) (maximum : Option Int) : Result Int :=
  match rt.int value with
  | .error why =>
    if why.type = .typeError ∨ why.type = .valueError then
      Python.valueError (label ++ " must be an integer")
    else .error why
  | .ok parsed =>
    if parsed < minimum then Python.valueError (label ++ " must be at least " ++ toString minimum)
    else
      match maximum with
      | some most =>
        if most < parsed then Python.valueError (label ++ " must be at most " ++ toString most)
        else .ok parsed
      | none => .ok parsed

def json (value : Value F) : Result String :=
  rt.dumps true (if value.isNone then .dict [] else value)

def accountOf (value : Value F) : Result (Option Int) :=
  if value.isBlank then .ok none else (rt.boundedInt value "account id" 1 none).map some

/-- `add_case_event`; the case has to exist. -/
def addCaseEvent (now : T) (caseId : String) (eventType : EventType) (actor detail : String)
    (metadata : Value F) : Action T Unit := do
  let text ← Transaction.lift (rt.json metadata)
  let known ← Transaction.read fun db => decide (caseId ∈ db.cases.map Case.id)
  Transaction.check known ⟨.integrityError, "FOREIGN KEY constraint failed"⟩
  Transaction.write fun db => { db with
    caseEvents := db.caseEvents ++ [⟨caseId, eventType, actorName "system" actor,
      cleanText 4000 detail, now, text⟩] }

def createCase (id : Uuid) (now : T) (body : Value F) (actor : String) : Action T String := do
  let severity := rt.lower (rt.clean 16 (rt.orElse (body.get "severity") (.str "medium")))
  if severity ∉ CASE_SEVERITIES then Action.valueError "invalid case severity"
  else
    let summary := rt.clean 500 (body.get "summary")
    if summary = "" then Action.valueError "case summary is required"
    else do
      let account ← Transaction.lift (rt.accountOf (getOr body "accountId" (body.get "account_id")))
      let metadata ← Transaction.lift (rt.json (body.get "metadata"))
      let row : Case T := ⟨id.text, account, rt.clean 200 (body.get "characterName"),
        rt.clean 200 (body.get "funcomId"), rt.clean 200 (body.get "platformId"),
        rt.clean 80 (rt.orElse (body.get "category") (.str "conduct")), severity, .opened, summary,
        actorName "operator" actor, rt.clean 128 (body.get "assignedTo"), now, now, none, metadata⟩
      let taken ← Transaction.read fun db => decide (id.text ∈ db.cases.map Case.id)
      Transaction.check (!taken) ⟨.integrityError, "UNIQUE constraint failed: cases.id"⟩
      Transaction.write fun db => { db with cases := db.cases ++ [row] }
      rt.addCaseEvent now id.text .opened actor summary (body.get "metadata")
      pure id.text

/-- The row `case` returns. -/
def findCase (caseId : String) : Action T (Case T) := do
  let found ← Transaction.read fun db =>
    db.cases.find? fun row => row.id = cleanText 64 caseId
  match found with
  | some row => pure row
  | none => Action.valueError "moderation case not found"

/-- `update_case`. The row that is found is not the row that is updated when the identifier has
blanks around it; then the event has no case and the whole call fails. -/
def updateCase (now : T) (caseId : String) (body : Value F) (actor : String) : Action T Unit := do
  let status := rt.lower (rt.clean 20 (body.get "status"))
  let wanted := CASE_STATUSES.find? fun known => known.text = status
  if status ≠ "" ∧ wanted = none then Action.valueError "invalid case status"
  else do
    let current ← findCase caseId
    let newStatus := wanted.getD current.status
    let assigned := match body.get? "assignedTo" with
      | some value => rt.clean 128 value
      | none => current.assignedTo
    let summary := match body.get? "summary" with
      | some value => rt.clean 500 value
      | none => current.summary
    let closedAt :=
      if newStatus = .closed ∧ current.status ≠ .closed then some now
      else if newStatus ≠ .closed then none
      else current.closedAt
    Transaction.write fun db => { db with
      cases := update Case.id caseId (fun row => { row with
        status := newStatus, assignedTo := assigned, summary := summary, updatedAt := now,
        closedAt := closedAt }) db.cases }
    let note := rt.clean 4000 (body.get "note")
    rt.addCaseEvent now caseId .updated actor (if note = "" then "status=" ++ newStatus.text else note)
      (.object [("status", .str newStatus.text), ("assignedTo", .str assigned)])

/-- `durationHours` asks for no end of the ban. -/
def forever : Value F → Bool
  | .none => true
  | .str text => text = "" || text = "0"
  | .int value => value = 0
  | .bool value => !value
  | .float value => !rt.nonzero value
  | _ => false

def banMetadata (id : String) : Value F := .object [("banId", .str id)]

/-- The insertion of `ban`, after its checks. -/
def insertBan (id : Uuid) (now : T) (caseId : String) (accountId : Option Int)
    (funcomId platformId reason : String) (expiresAt : Option T) (actor : String) :
    Action T Unit := do
  let known ← Transaction.read fun db => decide (caseId ∈ db.cases.map Case.id)
  Transaction.check known ⟨.integrityError, "FOREIGN KEY constraint failed"⟩
  let taken ← Transaction.read fun db => decide (id.text ∈ db.bans.map Ban.id)
  Transaction.check (!taken) ⟨.integrityError, "UNIQUE constraint failed: bans.id"⟩
  Transaction.write fun db => { db with
    bans := db.bans ++ [⟨id.text, caseId, accountId, funcomId, platformId, reason, now, expiresAt,
      true, actorName "operator" actor, now, none, none, none⟩] }
  Transaction.write fun db => { db with
    cases := update Case.id caseId (fun row => { row with status := .actioned, updatedAt := now }) db.cases }
  rt.addCaseEvent now caseId .banCreated actor reason (.object [("banId", .str id.text),
    ("expiresAt", .ofOption (expiresAt.map rt.iso))])

/-- `ban`: the identifier of the new ban. -/
def ban (id : Uuid) (now : T) (caseId : String) (body : Value F) (actor : String) :
    Action T String := do
  let current ← findCase caseId
  let accountId ← Transaction.lift (match body.get? "accountId" with
    | some value => rt.accountOf value
    | none => .ok current.accountId)
  let funcomId := match body.get? "funcomId" with
    | some value => rt.clean 200 value
    | none => cleanText 200 current.funcomId
  let platformId := match body.get? "platformId" with
    | some value => rt.clean 200 value
    | none => cleanText 200 current.platformId
  if accountId = none ∧ funcomId = "" ∧ platformId = "" then
    Action.valueError "ban requires an account, Funcom, or platform identity"
  else do
    let reason := rt.clean 1000 (rt.orElse (body.get "reason") (.str current.summary))
    let expiresAt ← Transaction.lift
      (if rt.forever (body.get "durationHours") then .ok none
      else (rt.boundedInt (body.get "durationHours") "duration hours" 1 (some 87600)).map
        fun hours => some (rt.later now hours))
    rt.insertBan id now caseId accountId funcomId platformId reason expiresAt actor
    pure id.text

/-- `unban`: whether there was nothing to do. The ban is looked up by the identifier without its
blanks and updated by the identifier as it was given. -/
def unban (now : T) (banId actor reason : String) : Action T Bool := do
  let reason := if cleanText 1000 reason = "" then "revoked by operator" else cleanText 1000 reason
  let found ← Transaction.read fun db => db.bans.find? fun row => row.id = cleanText 64 banId
  match found with
  | none => Action.valueError "ban not found"
  | some row =>
    if row.active then do
      Transaction.write fun db => { db with
        bans := update Ban.id banId (fun row => { row with
          active := false, revokedBy := some (actorName "operator" actor), revokedAt := some now,
          revokeReason := some reason }) db.bans }
      rt.addCaseEvent now row.caseId .banRevoked actor reason (banMetadata banId)
      Transaction.write fun db => { db with
        cases := update Case.id row.caseId (fun row => { row with updatedAt := now }) db.cases }
      pure false
    else pure true

variable [LinearOrder T]

def expired (now : T) (row : Ban T) : Bool :=
  match row.expiresAt with
  | some at_ => decide (at_ ≤ now)
  | none => false

/-- One row of the loop of `expire_bans`. -/
def expireOne (now : T) (row : String × String) : Action T Unit := do
  Transaction.write fun db => { db with
    bans := update Ban.id row.1 (fun row => { row with
      active := false, revokedBy := some "system", revokedAt := some now,
      revokeReason := some "expired" }) db.bans }
  rt.addCaseEvent now row.2 .banExpired "system" "temporary ban expired" (banMetadata row.1)

/-- `expire_bans`: the number of bans that expired. -/
def expireBans (now : T) : Action T Nat := do
  let rows ← Transaction.read fun db =>
    (db.bans.filter fun row => row.active && expired now row).map fun row => (row.id, row.caseId)
  let _ ← Transaction.each (rt.expireOne now) rows
  pure rows.length

end Platform

/-- Who may be banned: what `active_ban` is asked for. -/
structure Identity where
  accountId : Option Int
  (funcomId platformId : String)

def Ban.names (row : Ban T) (identity : Identity) : Bool :=
  (identity.accountId.isSome && decide (row.accountId = identity.accountId)) ||
    (decide (identity.funcomId ≠ "") && decide (row.funcomId = identity.funcomId)) ||
    (decide (identity.platformId ≠ "") && decide (row.platformId = identity.platformId))

/-- `active_ban`: the newest ban in force. -/
def Db.activeBan [LinearOrder T] (db : Db T) (identity : Identity) (now : T) : Option (Ban T) :=
  ((db.bans.filter fun row => row.active && !Platform.expired now row && row.names identity).insertionSort
    fun first second => second.createdAt ≤ first.createdAt).head?

end Dash.Moderation
