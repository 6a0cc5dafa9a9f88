import Dash.Foundation.Transaction
import Dash.Python.Value

/-! Which mutations are governed, who acts, what of a request body is kept, and what the handlers of the
governed paths read from a body before they change anything.
-/

set_option autoImplicit false

namespace Dash.Approvals

open Dash.Python

def MAX_BODY_BYTES : Nat := 33554432

def MAX_SUMMARY_BYTES : Nat := 1000

inductive Risk where
  | standard | high | critical
  deriving DecidableEq, Repr

def Risk.text : Risk → String
  | .standard => "standard"
  | .high => "high"
  | .critical => "critical"

inductive Predicate where
  | always
  | nonDry
  | actions (names : List String)
  | actionsNonDry (names : List String)
  /-- `confirm` is not blank. -/
  | confirmed
  /-- Not a dry run, which has to be asked for. -/
  | unlessDry
  /-- `execute` is true. -/
  | executed

structure PolicyRow where
  path : String
  risk : Risk
  label : String
  predicate : Predicate

def POLICIES : List PolicyRow := [
  ⟨"/api/ops/backups/restore", .critical, "Restore a backup set", .nonDry⟩,
  ⟨"/api/ops/database/row", .critical, "Edit an arbitrary database row", .always⟩,
  ⟨"/api/ops/database/password", .critical, "Rotate the game database password", .always⟩,
  ⟨"/api/ops/database/query", .critical, "Execute write-capable database SQL", .confirmed⟩,
  ⟨"/api/ops/updates", .critical, "Apply a game or stack update",
    .actions ["game-apply", "stack-apply", "auto-update-install"]⟩,
  ⟨"/api/settings/env", .critical, "Change environment configuration", .always⟩,
  ⟨"/api/admin/base-retirement", .critical, "Archive and retire a player base",
    .actions ["archive"]⟩,
  ⟨"/api/admin/character-slots/execute", .critical, "Swap or restore a character slot", .nonDry⟩,
  ⟨"/api/admin/player-identity-integrity", .critical, "Clean orphan identity state or delete a character",
    .actions ["cleanup-orphans", "delete-character"]⟩,
  ⟨"/api/admin/blueprints", .critical, "Import or delete a Solido blueprint",
    .actionsNonDry ["import", "delete"]⟩,
  ⟨"/api/admin/cosmetics", .critical, "Change or roll back persistent cosmetic state", .always⟩,
  ⟨"/api/presets/gameplay", .critical, "Apply or roll back a gameplay preset",
    .actions ["apply", "rollback"]⟩,
  ⟨"/api/admin/player-maintenance", .high, "Change or roll back player progression/recovery state",
    .nonDry⟩,
  ⟨"/api/admin/player-runtime-action", .high, "Execute a native player runtime action", .nonDry⟩,
  ⟨"/api/admin/player-recovery/offline-teleport", .high, "Move an offline player", .nonDry⟩,
  ⟨"/api/admin/player-recovery/life-state", .high, "Recover an offline player's persisted life state", .nonDry⟩,
  ⟨"/api/admin/character-backups", .critical, "Restore or delete a native character backup",
    .actions ["restore", "delete"]⟩,
  ⟨"/api/admin/vehicle", .high, "Change persistent vehicle state", .nonDry⟩,
  ⟨"/api/admin/item", .high, "Grant or modify an item", .unlessDry⟩,
  ⟨"/api/admin/item/delete", .high, "Delete an owned item", .always⟩,
  ⟨"/api/admin/item/stack", .high, "Change item stack or quality", .always⟩,
  ⟨"/api/admin/currency", .high, "Change player currency", .always⟩,
  ⟨"/api/admin/solari/inventory", .high, "Change inventory Solari", .nonDry⟩,
  ⟨"/api/admin/solari/bank", .high, "Change bank Solari", .nonDry⟩,
  ⟨"/api/admin/xp", .high, "Change specialization XP", .always⟩,
  ⟨"/api/admin/bundle", .high, "Execute an economy bundle", .nonDry⟩,
  ⟨"/api/admin/landsraad", .high, "Change Landsraad state", .nonDry⟩,
  ⟨"/api/admin/faction-reputation", .high, "Change faction reputation", .nonDry⟩,
  ⟨"/api/admin/faction", .high, "Change player faction", .nonDry⟩,
  ⟨"/api/admin/journey", .high, "Change journey state", .nonDry⟩,
  ⟨"/api/admin/guild", .high, "Change guild state", .nonDry⟩,
  ⟨"/api/admin/marker", .high, "Change world markers", .nonDry⟩,
  ⟨"/api/admin/landclaim", .high, "Change landclaim state", .nonDry⟩,
  ⟨"/api/admin/permission", .high, "Change actor permissions", .nonDry⟩,
  ⟨"/api/admin/access-code", .high, "Change a player access code", .nonDry⟩,
  ⟨"/api/admin/respawn-location", .high, "Change a player respawn location", .nonDry⟩,
  ⟨"/api/moderation", .high, "Change moderation enforcement state",
    .actions ["ban", "unban", "allowlist-policy"]⟩,
  ⟨"/api/ops/audit/reconcile", .high, "Resolve an investigated incomplete privileged request",
    .always⟩,
  ⟨"/api/ops/services/control", .standard, "Control a service", .always⟩,
  ⟨"/api/ops/memory", .standard, "Change map memory policy", .always⟩,
  ⟨"/api/ops/autoscaler", .standard, "Change autoscaler policy", .always⟩,
  ⟨"/api/ops/restart", .standard, "Schedule an executable restart", .executed⟩,
  ⟨"/api/ops/restore-drill", .standard, "Queue an isolated PostgreSQL recovery rehearsal", .always⟩,
  ⟨"/api/ops/rabbitmq-restore-drill", .standard, "Queue an isolated RabbitMQ recovery rehearsal",
    .always⟩,
  ⟨"/api/admin/gm/execute", .standard, "Execute a generic GM command", .always⟩]

structure Policy where
  path : String
  risk : Risk
  label : String

structure Actor where
  (id displayName : String)

/-- `SECRET_KEY`, where `?` stands for the optional character of `private.?key`. -/
def secretWords : List (List Char) :=
  ["password", "secret", "token", "credential", "authorization", "archive_base64", "privatekey"].map String.toList

def foldCase (char : Char) : Char :=
  if 'A' ≤ char ∧ char ≤ 'Z' then Char.ofNat (char.toNat + 32)
  else if char.toNat = 304 ∨ char.toNat = 305 then 'i'
  else if char.toNat = 383 then 's'
  else if char.toNat = 8490 then 'k'
  else char

/-- The text starts with `private`, one character that is no line end, and `key`. -/
def startsSplitKey (text : List Char) : Bool :=
  "private".toList.isPrefixOf text &&
    match text.drop 7 with
    | [] => false
    | char :: rest => char ≠ '\n' && "key".toList.isPrefixOf rest

/-- `SECRET_KEY.search(text)` -/
def isSecretKey (text : String) : Bool :=
  ((text.toList.map foldCase).tails).any fun rest =>
    secretWords.any (fun word => word.isPrefixOf rest) || startsSplitKey rest

variable {F : Type}

namespace Policies

variable (rt : Runtime F)

def truthy (value : Value F) : Bool :=
  rt.lower (strip (rt.str value)) ∈ ["1", "true", "yes", "on"]

def dryRun (body : Value F) (default : Bool) : Bool :=
  match getOr body "dry_run" (getOr body "dryRun" (.bool default)) with
  | .bool value => value
  | value => truthy rt value

def action (body : Value F) : String :=
  rt.lower (strip (rt.str (rt.orElse (body.get "action") (.str ""))))

def holds (body : Value F) : Predicate → Bool
  | .always => true
  | .nonDry => !dryRun rt body true
  | .actions names => decide (action rt body ∈ names)
  | .actionsNonDry names => decide (action rt body ∈ names) && !dryRun rt body true
  | .confirmed => strip (rt.str (rt.orElse (body.get "confirm") (.str ""))) ≠ ""
  | .unlessDry => !dryRun rt body false
  | .executed => truthy rt (getOr body "execute" (.bool false))

def policyFor (path : String) (body : Value F) : Result (Option Policy) :=
  let path := before '?' path
  if !body.isDict then valueError "approval target body must be an object"
  else
    match POLICIES.find? fun row => row.path = path with
    | none => .ok none
    | some row => .ok (if holds rt body row.predicate then some ⟨path, row.risk, row.label⟩ else none)

def normalizedBody (body : Value F) : Result (Value F × String) :=
  match body with
  | .dict entries => do
    let clean := Value.dict (entries.filter fun entry =>
      !(entry.1.named "approvalId" || entry.1.named "approval_id"))
    let encoded ← rt.dumps true clean
    if MAX_BODY_BYTES < encoded.length then
      valueError "approval request body exceeds 32 MiB"
    else .ok (clean, encoded)
  | _ => valueError "approval request body must be an object"

def keyStr : Key F → String
  | .str key => key
  | key => rt.keyRepr key

mutual
def redactedBody (key : String) : Value F → Value F
  | .dict entries =>
    if isSecretKey key then .str "[redacted]" else .dict (dictOf (redactedEntries entries))
  | .list items =>
    if isSecretKey key then .str "[redacted]"
    else .list ((redactedItems key items).take 200 ++
      if 200 < items.length then [.str "[truncated]"] else [])
  | .str text =>
    if isSecretKey key then .str "[redacted]"
    else .str (clip 2000 text ++ if 2000 < text.length then "…" else "")
  | .none => if isSecretKey key then .str "[redacted]" else .none
  | .bool value => if isSecretKey key then .str "[redacted]" else .bool value
  | .int value => if isSecretKey key then .str "[redacted]" else .int value
  | .float value => if isSecretKey key then .str "[redacted]" else .float value

def redactedItems (key : String) : List (Value F) → List (Value F)
  | [] => []
  | item :: rest => redactedBody key item :: redactedItems key rest

def redactedEntries : List (Key F × Value F) → List (String × Value F)
  | [] => []
  | (child, item) :: rest => (keyStr rt child, redactedBody (keyStr rt child) item) ::
    redactedEntries rest
end

def actor (principal : Value F) : Result Actor :=
  let principal := rt.orElse principal (.dict [])
  if !principal.isDict then .error ⟨.attributeError, "object has no attribute 'get'"⟩
  else
    let id := strip (rt.str (rt.orElse (principal.get "id") (.str "")))
    if id = "" ∨ 128 < id.length ∨ hasControl id = true then
      .error ⟨.permissionError, "dual control requires an authenticated named identity"⟩
    else .ok ⟨id, clip 160 (strip (rt.str (rt.orElse (principal.get "displayName") (.str id))))⟩

end Policies

/-- How a handler reads `action`. -/
inductive Reading where
  /-- `body.get("action") or default` -/
  | given (default : String)
  /-- `body.get("action", default)` -/
  | absent (default : String)

inductive Handling where
  | always
  | nonDry
  | actions (reading : Reading) (names : List String)
  | actionsNonDry (reading : Reading) (names : List String)
  /-- A statement that may write needs the phrase. -/
  | confirmed (phrase : String)
  /-- `dry_run` has one spelling here, and a dry run has to be asked for. -/
  | unlessDry
  /-- A restart that is not executed is announced. -/
  | executed

structure HandlerRow where
  path : String
  handling : Handling

/-- The branches of `do_POST` for the governed paths. -/
def HANDLERS : List HandlerRow := [
  ⟨"/api/ops/backups/restore", .nonDry⟩,
  ⟨"/api/ops/database/row", .always⟩,
  ⟨"/api/ops/database/password", .always⟩,
  ⟨"/api/ops/database/query", .confirmed "EXECUTE DATABASE WRITE"⟩,
  ⟨"/api/ops/updates", .actions (.absent "")
    ["game-stage", "game-apply", "stack-apply", "runtime-repair", "auto-update-install"]⟩,
  ⟨"/api/settings/env", .always⟩,
  ⟨"/api/admin/base-retirement", .actions (.given "preview") ["archive", "cooldown-reset"]⟩,
  ⟨"/api/admin/character-slots/execute", .nonDry⟩,
  ⟨"/api/admin/player-identity-integrity",
    .actions (.given "preview-cleanup") ["cleanup-orphans", "delete-character"]⟩,
  ⟨"/api/admin/blueprints", .actionsNonDry (.absent "import") ["import", "delete"]⟩,
  ⟨"/api/admin/cosmetics", .always⟩,
  ⟨"/api/presets/gameplay", .actions (.given "preview") ["apply", "rollback"]⟩,
  ⟨"/api/admin/player-maintenance", .nonDry⟩,
  ⟨"/api/admin/player-runtime-action", .nonDry⟩,
  ⟨"/api/admin/player-recovery/offline-teleport", .nonDry⟩,
  ⟨"/api/admin/player-recovery/life-state", .nonDry⟩,
  ⟨"/api/admin/character-backups", .actions (.given "") ["capture", "restore", "delete"]⟩,
  ⟨"/api/admin/vehicle", .nonDry⟩,
  ⟨"/api/admin/item", .unlessDry⟩,
  ⟨"/api/admin/item/delete", .always⟩,
  ⟨"/api/admin/item/stack", .always⟩,
  ⟨"/api/admin/currency", .always⟩,
  ⟨"/api/admin/solari/inventory", .nonDry⟩,
  ⟨"/api/admin/solari/bank", .nonDry⟩,
  ⟨"/api/admin/xp", .always⟩,
  ⟨"/api/admin/bundle", .nonDry⟩,
  ⟨"/api/admin/landsraad", .nonDry⟩,
  ⟨"/api/admin/faction-reputation", .nonDry⟩,
  ⟨"/api/admin/faction", .nonDry⟩,
  ⟨"/api/admin/journey", .nonDry⟩,
  ⟨"/api/admin/guild", .nonDry⟩,
  ⟨"/api/admin/marker", .nonDry⟩,
  ⟨"/api/admin/landclaim", .nonDry⟩,
  ⟨"/api/admin/permission", .nonDry⟩,
  ⟨"/api/admin/access-code", .nonDry⟩,
  ⟨"/api/admin/respawn-location", .nonDry⟩,
  ⟨"/api/moderation", .actions (.given "")
    ["case-create", "case-update", "case-note", "ban", "unban", "allowlist-add", "allowlist-remove",
      "allowlist-policy", "tick", "prune"]⟩,
  ⟨"/api/ops/audit/reconcile", .always⟩,
  ⟨"/api/ops/services/control", .always⟩,
  ⟨"/api/ops/memory", .always⟩,
  ⟨"/api/ops/autoscaler", .always⟩,
  ⟨"/api/ops/restart", .executed⟩,
  ⟨"/api/ops/restore-drill", .always⟩,
  ⟨"/api/ops/rabbitmq-restore-drill", .always⟩,
  ⟨"/api/admin/gm/execute", .always⟩]

/-- The actions that no policy names. -/
def UNGOVERNED : List (String × String) := [
  ("/api/ops/updates", "game-stage"), ("/api/ops/updates", "runtime-repair"),
  ("/api/admin/base-retirement", "cooldown-reset"), ("/api/admin/character-backups", "capture"),
  ("/api/moderation", "case-create"), ("/api/moderation", "case-update"),
  ("/api/moderation", "case-note"), ("/api/moderation", "allowlist-add"),
  ("/api/moderation", "allowlist-remove"), ("/api/moderation", "tick"),
  ("/api/moderation", "prune"), ("/api/ops/restart", "announce")]

variable {F : Type}

namespace Handlers

variable (rt : Runtime F)

def spelled (value : Value F) : String := rt.lower (rt.str value)

/-- `str(body.get("dry_run", body.get("dryRun", "true"))).lower() not in ("0", "false", "no", "off")` -/
def dryRun (body : Value F) : Bool :=
  decide (spelled rt (getOr body "dry_run" (getOr body "dryRun" (.str "true"))) ∉ ["0", "false", "no", "off"])

/-- `dry_run` of `/api/admin/item` and `grant_item`. -/
def itemDryRun (body : Value F) : Bool :=
  decide (spelled rt (getOr body "dry_run" (.str "")) ∈ ["1", "true", "yes", "on"])

def action (body : Value F) : Reading → String
  | .given default => rt.lower (strip (rt.str (rt.orElse (body.get "action") (.str default))))
  | .absent default => rt.lower (strip (rt.str (getOr body "action" (.str default))))

def handle (body : Value F) : Handling → Option String
  | .always => some ""
  | .nonDry => if dryRun rt body then none else some ""
  | .actions reading names =>
    if action rt body reading ∈ names then some (action rt body reading) else none
  | .actionsNonDry reading names =>
    if action rt body reading ∈ names ∧ dryRun rt body = false then some (action rt body reading)
    else none
  | .confirmed phrase =>
    if strip (rt.str (getOr body "confirm" (.str ""))) = phrase then some "" else none
  | .unlessDry => if itemDryRun rt body then none else some ""
  | .executed => some (if spelled rt (getOr body "execute" (.str "")) ∈ ["1", "true", "yes", "on"]
      then "execute" else "announce")

def mutation (path : String) (body : Value F) : Option String :=
  (HANDLERS.find? fun row => row.path = path).bind fun row => handle rt body row.handling

end Handlers

end Dash.Approvals
