import Dash.Python.Plain
import Dash.Python.Reencoding

/-! The audit ledger: a table of events, each with the code of the event before it, and a file
that anchors the last one.

An append checks that the table ends at the anchor, commits one row and then replaces the
anchor. The permissions of the files, the lock of one process and the cache of a verification
are not modelled; whether an append verifies the chain first is up to its caller.
-/

set_option autoImplicit false

namespace Dash.Audit

open Dash.Python

def SCHEMA_VERSION : Int := 1

def ZERO_HMAC : String := String.ofList (List.replicate 64 '0')

def MAX_EVENT_BYTES : Nat := 65536

/-- A row of `events`. -/
structure Row where
  sequence : Int
  (eventId occurredAt action : String)
  ok : Bool
  requestId : Option String
  (eventJson eventSha256 previousHmacSha256 eventHmacSha256 : String)

structure Disk where
  rows : List Row
  anchor : String

def isHexDigit (char : Char) : Bool :=
  decide ('0' ≤ char ∧ char ≤ '9') || decide ('a' ≤ char ∧ char ≤ 'f')

def isHex (count : Nat) (text : List Char) : Bool :=
  decide (text.length = count) && text.all isHexDigit

def isDigest (text : String) : Bool := isHex 64 text.toList

def isEventId (text : String) : Bool :=
  startsWith "audit-" text && isHex 32 (text.toList.drop 6)

def isRequestId (text : String) : Bool :=
  startsWith "request-" text && isHex 32 (text.toList.drop 8)

/-- The interpreter, `hashlib.sha256(text).hexdigest()`, and `hmac.new(key, text,
sha256).hexdigest()` under the key of the ledger. -/
structure Platform (F : Type) extends Runtime F where
  sha256 : String → String
  mac : String → String
  mac_digest : ∀ text, isDigest (mac text) = true
  /-- `_parse_time(text) is not None` -/
  isTime : String → Bool

def runtimeError {α : Type} (message : String) : Result α := .error ⟨.runtimeError, message⟩

@[simp] theorem runtimeError_guard {α : Type} {condition : Prop} [Decidable condition]
    {message : String} {rest : Result α} {value : α} :
    (if condition then runtimeError message else rest) = .ok value ↔
      ¬ condition ∧ rest = .ok value := result_guard

variable {F : Type}

/-- An event after `_normalize_event`, as it was written and read back. -/
structure Normalized (F : Type) where
  event : Value F
  (encoded eventId occurredAt action : String)
  ok : Bool
  requestId : Option String

/-- `hmac.compare_digest(text, value)`, which takes ASCII strings only. -/
def compareDigest (text : String) : Value F → Result Bool
  | .str other =>
    if text.toList.all (fun char => decide (char.toNat < 128)) &&
        other.toList.all (fun char => decide (char.toNat < 128)) then .ok (decide (text = other))
    else typeError "comparing strings with non-ASCII characters is not supported"
  | _ => typeError "unsupported operand types(s) or combination of types"

/-- `value == text`, where the text may be missing. -/
def isText : Value F → Option String → Bool
  | .none, none => true
  | .str text, some other => decide (text = other)
  | _, _ => false

/-- `set(document) == required` of a dictionary -/
def hasKeys (required : List String) : Value F → Bool
  | .dict entries =>
    (entries.all fun entry => required.any fun name => entry.1.named name) &&
      required.all fun name => entries.any fun entry => entry.1.named name
  | _ => false

def anchorFields : List String :=
  ["schemaVersion", "sequence", "headHmacSha256", "updatedAt", "anchorHmacSha256"]

namespace Platform

variable (rt : Platform F)

def canonical (value : Value F) : Result String := rt.dumps false value

def eventHmac (sequence : Int) (eventSha256 previousHmacSha256 : String) : Result String := do
  let text ← rt.canonical (.object [("schemaVersion", .int SCHEMA_VERSION),
    ("sequence", .int sequence), ("eventSha256", .str eventSha256),
    ("previousHmacSha256", .str previousHmacSha256)])
  .ok (rt.mac text)

def anchorHmac (sequence : Int) (headHmacSha256 updatedAt : Value F) : Result String := do
  let text ← rt.canonical (.object [("schemaVersion", .int SCHEMA_VERSION),
    ("sequence", .int sequence), ("headHmacSha256", headHmacSha256), ("updatedAt", updatedAt)])
  .ok (rt.mac text)

/-- What `_write_anchor` puts in place of the anchor at a time. -/
def anchorText (sequence : Int) (headHmacSha256 updatedAt : String) : Result String := do
  let digest ← rt.anchorHmac sequence (.str headHmacSha256) (.str updatedAt)
  let text ← rt.dumps true (.object [("schemaVersion", .int SCHEMA_VERSION),
    ("sequence", .int sequence), ("headHmacSha256", .str headHmacSha256),
    ("updatedAt", .str updatedAt), ("anchorHmacSha256", .str digest)])
  .ok (text ++ "\n")

def readAnchor (text : String) : Result (Value F) :=
  match rt.loads text with
  | .error _ => runtimeError "audit ledger head anchor is unreadable"
  | .ok document =>
    if hasKeys anchorFields document = false then
      runtimeError "audit ledger head anchor has an invalid shape"
    else do
      let version ← rt.int (document.get "schemaVersion")
      let sequence ← rt.int (document.get "sequence")
      if version ≠ SCHEMA_VERSION ∨ sequence < 0 then
        runtimeError "audit ledger head anchor has invalid metadata"
      else if isDigest (rt.str (document.get "headHmacSha256")) = false then
        runtimeError "audit ledger head anchor has an invalid head HMAC"
      else do
        let expected ← rt.anchorHmac sequence (document.get "headHmacSha256") (document.get "updatedAt")
        let same ← compareDigest (F := F) expected (.str (rt.str (document.get "anchorHmacSha256")))
        if same = false then runtimeError "audit ledger head anchor HMAC verification failed"
        else .ok document

def normalizeEvent (event : Value F) : Result (Normalized F) :=
  if event.isDict = false then valueError "audit event must be a JSON object"
  else
    match rt.canonical event with
    | .error _ => valueError "audit event must contain only JSON-compatible values"
    | .ok encoded =>
      match rt.loads encoded with
      | .error _ => valueError "audit event must contain only JSON-compatible values"
      | .ok normalized =>
        let eventId := rt.str (rt.orElse (normalized.get "eventId") (.str ""))
        let occurredAt := rt.str (rt.orElse (normalized.get "ts") (.str ""))
        let action := strip (rt.str (rt.orElse (normalized.get "action") (.str "")))
        let requestId := match normalized.get "request_id" with
          | .none => none
          | value => some (rt.str value)
        if encoded.utf8ByteSize < 2 ∨ MAX_EVENT_BYTES < encoded.utf8ByteSize then
          valueError ("audit event must be at most " ++ toString MAX_EVENT_BYTES ++ " bytes")
        else if isEventId eventId = false then
          valueError "audit event requires an audit-<32 lowercase hex> eventId"
        else if rt.isTime occurredAt = false then
          valueError "audit event requires an ISO-8601 ts"
        else if action = "" ∨ 128 < action.length then
          valueError "audit event action must contain 1-128 characters"
        else
          match normalized.get "ok" with
          | .bool ok =>
            if (requestId.all isRequestId) = false then
              valueError "audit event request_id must be request-<32 lowercase hex>"
            else .ok ⟨normalized, encoded, eventId, occurredAt, action, ok, requestId⟩
          | _ => valueError "audit event ok must be boolean"

def assertHead (disk : Disk) : Result (Int × String) := do
  let sequence := (disk.rows.getLast?.map Row.sequence).getD 0
  let head := (disk.rows.getLast?.map Row.eventHmacSha256).getD ZERO_HMAC
  let anchor ← rt.readAnchor disk.anchor
  let anchored ← rt.int (anchor.get "sequence")
  if anchored ≠ sequence then
    runtimeError "audit ledger database head does not match its authenticated anchor"
  else do
    let same ← compareDigest head (anchor.get "headHmacSha256")
    if same = false then
      runtimeError "audit ledger database head does not match its authenticated anchor"
    else .ok (sequence, head)

/-- One row of `_verify_connection`, after the row with the given code. -/
def verifyRow (previous : String) (expected : Int) (row : Row) : Result Unit :=
  if row.sequence ≠ expected then
    runtimeError ("audit ledger sequence gap at " ++ toString expected)
  else
    match rt.loads row.eventJson with
    | .error _ =>
      runtimeError ("audit ledger event " ++ toString row.sequence ++ " contains invalid JSON")
    | .ok event => do
      let encoded ← rt.canonical event
      if rt.sha256 encoded ≠ row.eventSha256 then
        runtimeError ("audit ledger event " ++ toString row.sequence ++ " payload digest verification failed")
      else if event.isDict = false then
        .error ⟨.attributeError, "object has no attribute 'get'"⟩
      else if isText (event.get "eventId") (some row.eventId) = false ∨
          isText (event.get "ts") (some row.occurredAt) = false ∨
          isText (event.get "action") (some row.action) = false ∨
          rt.truthy (event.get "ok") ≠ row.ok ∨
          isText (event.get "request_id") row.requestId = false then
        runtimeError ("audit ledger event " ++ toString row.sequence ++ " indexed fields do not match its payload")
      else if previous ≠ row.previousHmacSha256 then
        runtimeError ("audit ledger event " ++ toString row.sequence ++ " previous HMAC verification failed")
      else do
        let expectedHmac ← rt.eventHmac row.sequence (rt.sha256 encoded) previous
        if expectedHmac ≠ row.eventHmacSha256 then
          runtimeError ("audit ledger event " ++ toString row.sequence ++ " HMAC verification failed")
        else .ok ()

/-- The rows of `_verify_connection`, and the code they end in. -/
def verifyRows (previous : String) (expected : Int) : List Row → Result String
  | [] => .ok previous
  | row :: rest => do
    rt.verifyRow previous expected row
    verifyRows row.eventHmacSha256 (expected + 1) rest

/-- `_verify_connection`: the number of events and the code of the last one. -/
def verify (disk : Disk) : Result (Int × String) := do
  let head ← rt.verifyRows ZERO_HMAC 1 disk.rows
  let anchor ← rt.readAnchor disk.anchor
  let sequence ← rt.int (anchor.get "sequence")
  if sequence ≠ disk.rows.length then
    runtimeError "audit ledger tail deletion or head mismatch detected"
  else do
    let same ← compareDigest head (anchor.get "headHmacSha256")
    if same = false then runtimeError "audit ledger tail deletion or head mismatch detected"
    else .ok (disk.rows.length, head)

end Platform

/-- `insert into events` and the commit. -/
def Disk.insert (row : Row) (disk : Disk) : Result Disk :=
  if row.sequence ∈ disk.rows.map Row.sequence ∨ row.eventId ∈ disk.rows.map Row.eventId then
    .error ⟨.integrityError, "UNIQUE constraint failed: events"⟩
  else .ok { disk with rows := disk.rows ++ [row] }

inductive Admission where
  | known (row : Row)
  | fresh (row : Row)

/-- What `append` returns. -/
structure Receipt where
  idempotent : Bool
  sequence : Int
  eventHmacSha256 : String
  eventSha256 : Option String

def Receipt.existing (row : Row) : Receipt := ⟨true, row.sequence, row.eventHmacSha256, none⟩

def Receipt.inserted (row : Row) : Receipt :=
  ⟨false, row.sequence, row.eventHmacSha256, some row.eventSha256⟩

namespace Platform

variable (rt : Platform F)

def lookup (normalized : Normalized F) (sequence : Int) (previous : String) (rows : List Row) :
    Result Admission :=
  let eventSha256 := rt.sha256 normalized.encoded
  match rows.find? fun row => row.eventId = normalized.eventId with
  | some existing =>
    if existing.eventSha256 ≠ eventSha256 then
      runtimeError "audit event ID collision has a different payload"
    else .ok (.known existing)
  | none => do
    let eventHmac ← rt.eventHmac (sequence + 1) eventSha256 previous
    .ok (.fresh ⟨sequence + 1, normalized.eventId, normalized.occurredAt, normalized.action,
      normalized.ok, normalized.requestId, normalized.encoded, eventSha256, previous, eventHmac⟩)

/-- The first part of `append`, under the write lock of the database. -/
def admitEvent (event : Value F) (verifyChain : Bool) (disk : Disk) : Result Admission := do
  let normalized ← rt.normalizeEvent event
  if verifyChain then
    let _ ← rt.verify disk
  let (sequence, previous) ← rt.assertHead disk
  rt.lookup normalized sequence previous disk.rows

/-- `_write_anchor` at a time. -/
def writeAnchor (row : Row) (updatedAt : String) (disk : Disk) : Result Disk := do
  let text ← rt.anchorText row.sequence row.eventHmacSha256 updatedAt
  .ok { disk with anchor := text }

end Platform

def hexDigits (number : Nat) : String :=
  String.ofList ((List.range 64).map fun place => Nat.digitChar (number / 16 ^ place % 16))

theorem hexDigits_digest (number : Nat) : isDigest (hexDigits number) = true := by
  have digit : ∀ value, value < 16 → isHexDigit (Nat.digitChar value) = true := by decide
  rw [isDigest, hexDigits, String.toList_ofList, isHex, List.length_map, List.length_range,
    Bool.and_eq_true, decide_eq_true_eq, List.all_eq_true]
  refine ⟨rfl, fun char member => ?_⟩
  obtain ⟨place, -, rfl⟩ := List.mem_map.mp member
  exact digit _ (Nat.mod_lt _ (by decide))

def digestOf (text : String) : String :=
  hexDigits (text.toList.foldl (fun number char => number * 1114112 + char.toNat + 1) 0)

def plain : Platform FloatText where
  toRuntime := plainRuntime
  sha256 := digestOf
  mac := digestOf
  mac_digest _ := hexDigits_digest _
  isTime text := decide (10 ≤ text.length)

def loginTime : String := "2026-07-17T00:00:00Z"

def eventName (last : String) : String := "audit-0123456789abcdef0123456789abcde" ++ last

def eventOf (name action : String) : Value FloatText :=
  .object [("action", .str action), ("eventId", .str name), ("ok", .bool true), ("ts", .str loginTime)]

end Dash.Audit
