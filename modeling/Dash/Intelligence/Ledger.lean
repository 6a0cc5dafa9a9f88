import Dash.Foundation.Transaction
import Dash.Python.Value

/-! The change-intelligence ledger: how events get into it, with the payload, actor and scope that it
stores for them.

An event is kept with what the incident views read of it. What else is stored is a parameter, with what
it raises.
-/

set_option autoImplicit false

namespace Dash.Intelligence

open Dash.Python Dash.Foundation

inductive Kind where
  | change | incidentOpen | incidentResolved | evidence | observation
  deriving DecidableEq, Repr

structure Event (T D : Type) where
  sequence : Nat
  id : String
  occurredAt : T
  action : String
  kind : Kind
  sourceFingerprint : String
  incidentKey : Option String
  details : D

/-- The table of events, in the order of their sequence numbers. -/
structure Db (T D : Type) where
  events : List (Event T D)

structure Rule where
  pattern : String
  kind : Kind

/-- The interpreter, the policy and the key of the store. -/
structure Platform (F T D : Type) extends Runtime F where
  /-- `fnmatch.fnmatchcase(name, pattern)` -/
  fnmatch : String → String → Bool
  sha256 : String → String
  mac : String → String
  /-- `_epoch` -/
  epoch : Value F → Result T
  /-- The other columns of an event; a payload that is too large or a source that is not
  well formed raises. -/
  details : Value F → String → T → Result D
  /-- `_iso`; a time out of the calendar's range raises. -/
  iso : T → Result String
  rules : List Rule
  (maxEvents historyImportLimit : Nat)
  statusEventLimit : Int

structure Prepared (T D : Type) where
  action : String
  kind : Kind
  occurred : T
  key : Option String
  (sourceFingerprint eventId : String)
  details : D

variable {F T D : Type}

def isWord (char : Char) : Bool :=
  char.isAlphanum || char = '_' || char = '.' || char = ':' || char = '-'

def isName (text : String) : Bool :=
  text ≠ "" && text.toList.all fun char => isWord char || char = '/'

/-- `(?:slo|desired|event):[A-Za-z0-9_.:-]{1,224}` of at most 256 characters -/
def isIncidentKey (text : String) : Bool :=
  decide (text.length ≤ 256) && ["slo:", "desired:", "event:"].any fun start =>
    startsWith start text &&
      let rest := text.toList.drop start.length
      decide (1 ≤ rest.length) && decide (rest.length ≤ 224) && rest.all isWord

namespace Platform

variable (rt : Platform F T D)

def validateIncidentKey (value : Value F) : Result String :=
  let value := strip (rt.str (rt.orElse value (.str "")))
  if isIncidentKey value = false then valueError "invalid change-intelligence incident key"
  else .ok value

def canonical (value : Value F) : Result String := rt.dumps true value

/-- `classify`, of which only the kind matters here. -/
def classify (action : String) (event : Value F) : Kind :=
  match rt.rules.find? fun rule => rt.fnmatch action rule.pattern with
  | some rule => rule.kind
  | none =>
    let method := rt.upper (rt.str (rt.orElse (event.get "method") (.str "")))
    if method ∈ ["POST", "PUT", "PATCH", "DELETE"] then .change else .observation

def incidentKey (action : String) (event : Value F) (kind : Kind) : Result (Option String) :=
  if action = "incident-response-drill" ∧ rt.truthy (event.get "response_incident_key") = true then
    (rt.validateIncidentKey (event.get "response_incident_key")).map some
  else if kind ≠ .incidentOpen ∧ kind ≠ .incidentResolved then .ok none
  else if rt.truthy (event.get "finding_id") = true then
    .ok (some ("desired:" ++ clip 128 (rt.str (event.get "finding_id"))))
  else if rt.truthy (event.get "incident_id") = true then
    .ok (some ("slo:" ++ clip 128 (rt.str (event.get "incident_id"))))
  else (rt.canonical event).map fun text =>
    some ("event:" ++ clip 32 (rt.sha256 (action ++ text)))

def prepare (rawEvent : Value F) (source : String) (ingestedAt : Value F) (eventId : String) :
    Result (Prepared T D) :=
  if !rawEvent.isDict then valueError "change-intelligence event must be an object"
  else
    let action := clip 128 (strip (rt.str (rt.orElse (rawEvent.get "action") (.str ""))))
    if isName action = false then valueError "change-intelligence action is invalid"
    else do
      let kind := rt.classify action rawEvent
      let occurred ← rt.epoch (rawEvent.get "ts")
      let ingested ← rt.epoch ingestedAt
      let details ← rt.details rawEvent source ingested
      let key ← rt.incidentKey action rawEvent kind
      let text ← rt.canonical rawEvent
      .ok ⟨action, kind, occurred, key, rt.mac text, eventId, details⟩

abbrev Action (T D α : Type) : Type := Transaction (Db T D) Exception α

/-- `_insert_prepared`, with the time it has to write into its result. -/
def insertPrepared (prepared : Prepared T D) : Action T D Unit := do
  let taken ← Transaction.read fun db => db.events.map fun event =>
    (event.id, event.sourceFingerprint)
  Transaction.check (prepared.eventId ∉ taken.map Prod.fst ∧ prepared.sourceFingerprint ∉ taken.map Prod.snd)
    ⟨.integrityError, "UNIQUE constraint failed: events"⟩
  Transaction.write fun db => ⟨db.events ++ [⟨db.events.length + 1, prepared.eventId,
    prepared.occurred, prepared.action, prepared.kind, prepared.sourceFingerprint, prepared.key,
    prepared.details⟩]⟩
  let _ ← Transaction.lift (rt.iso prepared.occurred)
  pure ()

def insertNew (prepared : Prepared T D) : Action T D Unit := do
  let db ← Transaction.read id
  if prepared.sourceFingerprint ∈ db.events.map Event.sourceFingerprint then pure ()
  else if rt.maxEvents ≤ db.events.length then
    Transaction.raise ⟨.runtimeError, "change-intelligence maxEvents reached; archive and rotate the ledger"⟩
  else rt.insertPrepared prepared

/-- The transaction of `record`. The candidates it looks up afterwards are only read. -/
def record (rawEvent : Value F) (source : String) (ingestedAt : Value F) (eventId : String) :
    Action T D Unit := do
  let prepared ← Transaction.lift (rt.prepare rawEvent source ingestedAt eventId)
  rt.insertNew prepared

def skips (why : Exception) : Bool :=
  why.type ∈ [.valueError, .typeError, .overflowError, .jsonDecodeError]

/-- The first loop of `record_many`, over the events and the identifiers drawn for them. -/
def prepareMany (source : String) (ingestedAt : Value F) (skipInvalid : Bool) :
    List (Value F × String) → Result (List (Prepared T D))
  | [] => .ok []
  | (event, eventId) :: rest =>
    match rt.prepare event source ingestedAt eventId with
    | .ok prepared => (prepareMany source ingestedAt skipInvalid rest).map (prepared :: ·)
    | .error why =>
      if skipInvalid && skips why then prepareMany source ingestedAt skipInvalid rest
      else .error why

def recordMany (rawEvents : List (Value F × String)) (source : String) (ingestedAt : Value F)
    (skipInvalid : Bool) : Action T D Unit :=
  if rt.historyImportLimit < rawEvents.length then
    Transaction.raise ⟨.valueError, "change-intelligence batch exceeds historyImportLimit"⟩
  else do
    let rows ← Transaction.lift (rt.prepareMany source ingestedAt skipInvalid rawEvents)
    let _ ← Transaction.each rt.insertNew rows
    pure ()

end Platform

inductive Call (F : Type) where
  | record (rawEvent : Value F) (source : String) (ingestedAt : Value F) (eventId : String)
  | recordMany (rawEvents : List (Value F × String)) (source : String) (ingestedAt : Value F)
      (skipInvalid : Bool)

namespace Platform

variable (rt : Platform F T D)

def perform : Call F → Action T D Unit
  | .record rawEvent source ingestedAt eventId => rt.record rawEvent source ingestedAt eventId
  | .recordMany rawEvents source ingestedAt skipInvalid =>
    rt.recordMany rawEvents source ingestedAt skipInvalid

/-- The ledger after the calls; one that raised changed nothing. -/
def run (calls : List (Call F)) : Db T D :=
  calls.foldl (fun db call => (rt.perform call).commit db) ⟨[]⟩

end Platform

def fold (char : Char) : Char :=
  if char = Char.ofNat 0x130 || char = Char.ofNat 0x131 then 'i'
  else if char = Char.ofNat 0x17F then 's'
  else if char = Char.ofNat 0x212A then 'k'
  else char.toLower

def sensitiveWords : List (List Char) :=
  ["password", "passwd", "secret", "token", "cookie", "authorization", "credential"].map String.toList

/-- `private.?key` at the start of the text. -/
def privateKeyHere (text : List Char) : Bool :=
  "private".toList.isPrefixOf text &&
    let rest := text.drop 7
    "key".toList.isPrefixOf rest ||
      match rest with
      | char :: rest => decide (char ≠ '\n') && "key".toList.isPrefixOf rest
      | [] => false

def sensitiveIn : List Char → Bool
  | [] => false
  | char :: rest =>
    (sensitiveWords.any fun word => word.isPrefixOf (char :: rest)) ||
      privateKeyHere (char :: rest) || sensitiveIn rest

def sensitiveKey (key : String) : Bool := sensitiveIn (key.toList.map fold)

def identityWords : List (List Char) :=
  ["account", "fls", "player", "character", "peer", "client", "target", "subject"].map String.toList

def identityHere (text : List Char) : Bool :=
  identityWords.any fun word => word.isPrefixOf text &&
    match text.drop word.length with
    | [] => true
    | ['\n'] => true
    | char :: _ => decide (char = '_')

def identityAfter : List Char → Bool
  | [] => false
  | char :: rest => decide (char = '_') && identityHere rest || identityAfter rest

def identityKey (key : String) : Bool :=
  identityHere (key.toList.map fold) || identityAfter (key.toList.map fold)

/-- `ABSOLUTE_PATH.match` -/
def absolutePath (text : String) : Bool :=
  match text.toList with
  | '/' :: _ => true
  | letter :: ':' :: slash :: _ => letter.isAlpha && (slash = '\\' || slash = '/')
  | _ => false

/-- The interpreter, the key and the policy of the store. -/
structure Sanitizer (F : Type) extends Runtime F where
  /-- `_hmac_value` -/
  hmacValue : String → String
  /-- `ipaddress.ip_address(text)` does not raise. -/
  ipAddress : String → Bool
  /-- The substitutions of `URL_CREDENTIALS` and `BEARER`. -/
  redactUrls : String → String
  redactBearer : String → String
  maxPayloadBytes : Nat

variable {F : Type}

namespace Sanitizer

variable (rt : Sanitizer F)

/-- `str(key)` -/
def keyStr : Key F → String
  | .str name => name
  | key => rt.keyRepr key

/-- What `sanitize` does with a string. -/
def sanitizeText (key text : String) : String :=
  let text := clip 2000 text
  if identityKey key then "hmac:" ++ rt.hmacValue text
  else if rt.lower key ∈ ["ip", "ipaddress", "remoteaddr", "remote_address"] ∧ rt.ipAddress text then
    "hmac:" ++ rt.hmacValue text
  else if absolutePath text &&
      !(startsWith "/api/" text || startsWith "/metrics/" text || startsWith "/health" text) then
    "path-hmac:" ++ rt.hmacValue text
  else
    let text := rt.redactBearer (rt.redactUrls text)
    clip 500 text ++ (if 500 < text.length then "...[truncated]" else "")

/-- The first two tests of `sanitize`, and what the others give. -/
def guarded (key : String) (depth : Nat) (passed : Value F) : Value F :=
  if 6 < depth then .str "<depth-limit>"
  else if sensitiveKey key then .str "<redacted>"
  else passed

mutual
/-- `sanitize` -/
def sanitize (key : String) (depth : Nat) : Value F → Value F
  | .dict entries => guarded key depth (.dict (dictOf (sanitizeEntries (depth + 1) 64 entries)))
  | .list items => guarded key depth (.list (sanitizeItems key (depth + 1) 32 items))
  | .str text => guarded key depth (.str (rt.sanitizeText key text))
  | .none => guarded key depth .none
  | .bool value => guarded key depth (.bool value)
  | .int value => guarded key depth (.int value)
  | .float value => guarded key depth (.float value)

def sanitizeItems (key : String) (depth : Nat) : Nat → List (Value F) → List (Value F)
  | left + 1, item :: rest => sanitize key depth item :: sanitizeItems key depth left rest
  | _, _ => []

def sanitizeEntries (depth : Nat) : Nat → List (Key F × Value F) → List (String × Value F)
  | left + 1, (key, item) :: rest =>
    (clip 128 (rt.keyStr key), sanitize (rt.keyStr key) depth item) :: sanitizeEntries depth left rest
  | _, _ => []
end

def scopeKeys : List String :=
  ["path", "target", "service", "map", "category", "subject", "objective_id",
    "desired_state_action", "capacity_action", "slo_action", "response_incident_key", "runbook_id"]

/-- What `event_scope` adds for one key. -/
def scopeOf (key : String) (value : Value F) : List String :=
  if !value.isNone && strip (rt.str value) ≠ "" then
    let normalized := if key = "target" ∨ key = "subject" then
        "hmac:" ++ rt.hmacValue (strip (rt.str value))
      else rt.str (rt.sanitize key 0 value)
    [key ++ ":" ++ clip 160 normalized]
  else []

def eventScope (action : String) (event : Value F) : List String :=
  (("action:" ++ action) :: scopeKeys.flatMap fun key => rt.scopeOf key (event.get key)).dedup.mergeSort
    fun first second => decide (first ≤ second)

/-- One or more letters, digits and `_.:@-` or a slash. -/
def isActor (text : String) : Bool :=
  text ≠ "" && text.toList.all fun char => isWord char || char = '@' || char = '/'

def principalOf (event : Value F) : Value F :=
  let actor := rt.orElse (rt.orElse (event.get "actor") (event.get "principal_id")) (event.get "principal")
  if actor.isDict then actor.get "id" else actor

/-- The `actor` column. -/
def actorOf (event : Value F) : Option String :=
  let actor := rt.principalOf event
  if rt.truthy actor then
    let text := clip 128 (strip (rt.str actor))
    if text ≠ "" ∧ isActor text = false then some ("hmac:" ++ rt.hmacValue text) else some text
  else none

def ownColumns : List String := ["action", "ts", "ok", "actor", "principal", "principal_id"]

def payloadOf (event : Value F) : Value F :=
  match event with
  | .dict entries => .dict (entries.filter fun entry =>
      !(ownColumns.any fun name => entry.1.named name))
  | other => other

end Sanitizer

structure Columns (F : Type) where
  data : Value F
  encoded : String
  actor : Option String
  source : String
  scope : List String

namespace Sanitizer

variable (rt : Sanitizer F)

def actionOf (event : Value F) : String :=
  clip 128 (strip (rt.str (rt.orElse (event.get "action") (.str ""))))

/-- What `_prepare` makes of the event besides its kind, times and keys. -/
def columns (event : Value F) (source : String) : Result (Columns F) := do
  let payload := rt.sanitize "" 0 (payloadOf event)
  let encoded ← rt.dumps true payload
  if rt.maxPayloadBytes < encoded.length then
    valueError "change-intelligence payload exceeds maxPayloadBytes"
  else
    let source := clip 128 (strip (if source ≠ "" then source else "unknown"))
    if isName source = false then valueError "change-intelligence source is invalid"
    else .ok ⟨payload, encoded, rt.actorOf event, source, rt.eventScope (rt.actionOf event) event⟩

/-- The ledger that stores these columns. -/
def ledger {T : Type} (base : Platform F T Unit) : Platform F T (Columns F) where
  toRuntime := rt.toRuntime
  fnmatch := base.fnmatch
  sha256 := base.sha256
  mac := base.mac
  epoch := base.epoch
  details event source _ := rt.columns event source
  iso := base.iso
  rules := base.rules
  maxEvents := base.maxEvents
  historyImportLimit := base.historyImportLimit
  statusEventLimit := base.statusEventLimit

def masked (placeholder : String) : Sanitizer F := { rt with hmacValue := fun _ => placeholder }

end Sanitizer

end Dash.Intelligence
