import Dash.Approvals.Policies

/-! What each governed request can touch. -/

set_option autoImplicit false

namespace Dash.Contracts

/-- `_impact` and its defaults. -/
structure Impact where
  scopes : List String
  backup : String := "conditional"
  reversibility : String := "conditional"
  restartImpact : String := "none"
  playerDisruption : Bool := false
  mapLifecycle : Bool := false
  safeguards : List String := []

def IMPACTS : List (String × Impact) := [
  ("/api/ops/backups/restore", {
    scopes := ["database", "saved-state", "configuration", "service-lifecycle"]
    backup := "required"
    reversibility := "backup-restore"
    restartImpact := "full-farm"
    playerDisruption := true
    mapLifecycle := true
    safeguards :=
      ["verified source backup", "automatic pre-restore backup", "stopped writers",
       "post-start hooks"] }),
  ("/api/ops/database/row", {
    scopes := ["database", "game-state"]
    backup := "required"
    reversibility := "backup-restore"
    safeguards := ["primary-key predicate", "bounded row update", "database backup"] }),
  ("/api/ops/database/password", {
    scopes := ["database", "credentials", "service-connectivity"]
    backup := "required"
    reversibility := "manual-secret-rotation"
    restartImpact := "dependent-services"
    playerDisruption := true
    safeguards := ["database backup", "coordinated credential update"] }),
  ("/api/ops/database/query", {
    scopes := ["database", "game-state"]
    backup := "required"
    reversibility := "unknown"
    safeguards := ["single-statement parser", "explicit write confirmation", "database backup"] }),
  ("/api/ops/updates", {
    scopes := ["software", "service-lifecycle", "game-build"]
    backup := "required"
    reversibility := "release-rollback"
    restartImpact := "candidate-dependent"
    playerDisruption := true
    mapLifecycle := true
    safeguards := ["candidate-bound readiness receipt", "verified backup", "deployment assurance"] }),
  ("/api/ops/restore-drill", {
    scopes := ["backup-proof", "disposable-container"]
    backup := "none"
    reversibility := "automatic-cleanup"
    safeguards := ["network none", "copied source", "bounded resources", "mandatory cleanup"] }),
  ("/api/ops/rabbitmq-restore-drill", {
    scopes := ["backup-proof", "rabbitmq-copied-state", "disposable-container"]
    backup := "none"
    reversibility := "automatic-cleanup"
    safeguards :=
      ["network none", "no published ports", "no live broker mounts", "sequential brokers",
       "mandatory cleanup"] }),
  ("/api/ops/audit/reconcile", {
    scopes := ["audit-evidence", "privileged-request-lifecycle"]
    backup := "none"
    reversibility := "append-only-correction"
    safeguards :=
      ["verified ledger chain", "open-request check", "explicit outcome",
       "append-only reconciliation evidence"] }),
  ("/api/settings/env", {
    scopes := ["configuration", "credentials", "service-runtime"]
    backup := "required"
    reversibility := "file-backup"
    restartImpact := "deferred-dependent-services"
    playerDisruption := true
    mapLifecycle := true
    safeguards := ["allowlisted keys", "secret redaction", "file backup"] }),
  ("/api/admin/base-retirement", {
    scopes := ["world-state", "base", "database"]
    backup := "required"
    reversibility := "native-base-backup"
    playerDisruption := true
    safeguards :=
      ["offline owner", "compare-and-swap fingerprint", "full database backup",
       "native base archive"] }),
  ("/api/admin/character-slots/execute", {
    scopes := ["player-state", "account", "database"]
    backup := "required"
    reversibility := "receipted-rollback"
    playerDisruption := true
    safeguards := ["offline accounts", "locked recheck", "database backup", "rollback receipt"] }),
  ("/api/admin/player-identity-integrity", {
    scopes := ["player-state", "account", "database"]
    backup := "required"
    reversibility := "backup-restore"
    playerDisruption := true
    safeguards :=
      ["canonical identity preview", "offline row locks", "fingerprint-bound target",
       "native delete function", "orphan-only cleanup predicate", "database backup",
       "post-write verification", "private receipt"] }),
  ("/api/admin/blueprints", {
    scopes := ["player-state", "blueprint", "database"]
    backup := "required"
    reversibility := "rollback-archive"
    playerDisruption := true
    safeguards :=
      ["schema validation", "transaction", "database backup", "post-write verification"] }),
  ("/api/admin/cosmetics", {
    scopes := ["player-state", "cosmetics", "database"]
    backup := "required"
    reversibility := "receipted-rollback"
    playerDisruption := true
    safeguards :=
      ["catalog validation", "database backup", "before/after digest", "rollback receipt"] }),
  ("/api/presets/gameplay", {
    scopes := ["configuration", "world-rules"]
    backup := "required"
    reversibility := "file-backup"
    restartImpact := "map-restart-required"
    playerDisruption := true
    mapLifecycle := true
    safeguards := ["typed preset", "configuration backup", "Coriolis/Landsraad invariant"] }),
  ("/api/admin/player-maintenance", {
    scopes := ["player-state", "progression", "database"]
    backup := "required"
    reversibility := "receipted-rollback"
    playerDisruption := true
    safeguards :=
      ["offline player", "compare-and-swap digest", "database backup", "rollback receipt"] }),
  ("/api/admin/player-runtime-action", {
    scopes := ["player-runtime", "game-command"]
    backup := "none"
    reversibility := "action-dependent"
    playerDisruption := true
    safeguards := ["catalog-backed command", "online-state contract", "RabbitMQ authentication"] }),
  ("/api/admin/player-recovery/offline-teleport", {
    scopes := ["player-state", "location", "database"]
    backup := "required"
    reversibility := "manual-teleport"
    playerDisruption := true
    safeguards :=
      ["explicitly offline player", "bounded finite coordinates", "fingerprint-bound preview",
       "advisory and row locks", "full database backup", "native game function",
       "post-write verification", "private receipt", "isolated semantic restore proof"] }),
  ("/api/admin/player-recovery/life-state", {
    scopes := ["player-state", "life-state", "database"]
    backup := "required"
    reversibility := "backup-restore"
    playerDisruption := true
    safeguards :=
      ["explicitly offline player", "dead-state allowlist", "fingerprint-bound preview",
       "advisory and row locks", "full database backup", "native game function",
       "post-write verification", "private receipt", "isolated semantic restore proof"] }),
  ("/api/admin/character-backups", {
    scopes := ["player-state", "account", "character-transfer", "database"]
    backup := "required-for-restore"
    reversibility := "backup-restore"
    playerDisruption := true
    safeguards :=
      ["dual offline evidence", "private SHA-256 snapshot", "patch checksum binding",
       "fingerprint-bound preview", "advisory and row locks",
       "full database backup before restore", "native game functions", "exact orphan cleanup",
       "post-write identity verification", "private receipt", "isolated semantic restore proof"] }),
  ("/api/admin/vehicle", {
    scopes := ["vehicle-state", "database"]
    backup := "required"
    reversibility := "backup-restore"
    playerDisruption := true
    safeguards := ["ownership validation", "database backup", "transaction"] }),
  ("/api/admin/item", {
    scopes := ["player-state", "inventory", "economy", "database"]
    backup := "required"
    reversibility := "item-delete"
    playerDisruption := true
    safeguards :=
      ["catalog validation", "ownership validation", "database backup", "post-write verification"] }),
  ("/api/admin/item/delete", {
    scopes := ["player-state", "inventory", "economy", "database"]
    backup := "required"
    reversibility := "backup-restore"
    playerDisruption := true
    safeguards := ["ownership validation", "bounded delete", "database backup"] }),
  ("/api/admin/item/stack", {
    scopes := ["player-state", "inventory", "economy", "database"]
    backup := "required"
    reversibility := "backup-restore"
    playerDisruption := true
    safeguards := ["ownership validation", "stack bounds", "database backup"] }),
  ("/api/admin/currency", {
    scopes := ["player-state", "economy", "database"]
    backup := "required"
    reversibility := "compensating-write"
    playerDisruption := true
    safeguards := ["currency allowlist", "bounded amount", "database backup", "transaction"] }),
  ("/api/admin/solari/inventory", {
    scopes := ["player-state", "economy", "inventory", "database"]
    backup := "required"
    reversibility := "compensating-write"
    playerDisruption := true
    safeguards := ["inventory ownership", "bounded amount", "database backup", "transaction"] }),
  ("/api/admin/solari/bank", {
    scopes := ["player-state", "economy", "bank", "database"]
    backup := "required"
    reversibility := "compensating-write"
    playerDisruption := true
    safeguards := ["account validation", "bounded amount", "database backup", "transaction"] }),
  ("/api/admin/xp", {
    scopes := ["player-state", "progression", "database"]
    backup := "required"
    reversibility := "compensating-write"
    playerDisruption := true
    safeguards := ["track validation", "bounded XP", "database backup", "transaction"] }),
  ("/api/admin/bundle", {
    scopes := ["player-state", "inventory", "economy", "database"]
    backup := "required"
    reversibility := "backup-restore"
    playerDisruption := true
    safeguards :=
      ["atomic preflight", "database backup", "transaction", "post-write verification"] }),
  ("/api/admin/landsraad", {
    scopes := ["world-state", "landsraad", "database"]
    backup := "required"
    reversibility := "backup-restore"
    playerDisruption := true
    safeguards :=
      ["term/task validation", "database backup", "transaction", "aggregate recomputation"] }),
  ("/api/admin/faction-reputation", {
    scopes := ["player-state", "faction", "database"]
    backup := "required"
    reversibility := "compensating-write"
    playerDisruption := true
    safeguards := ["faction validation", "bounded value", "database backup", "transaction"] }),
  ("/api/admin/faction", {
    scopes := ["player-state", "faction", "database"]
    backup := "required"
    reversibility := "compensating-write"
    playerDisruption := true
    safeguards := ["faction validation", "database backup", "transaction"] }),
  ("/api/admin/journey", {
    scopes := ["player-state", "progression", "database"]
    backup := "required"
    reversibility := "backup-restore"
    playerDisruption := true
    safeguards := ["journey validation", "database backup", "transaction"] }),
  ("/api/admin/guild", {
    scopes := ["world-state", "guild", "database"]
    backup := "required"
    reversibility := "compensating-write"
    playerDisruption := true
    safeguards := ["guild/member validation", "database backup", "transaction"] }),
  ("/api/admin/marker", {
    scopes := ["world-state", "markers", "database"]
    backup := "required"
    reversibility := "backup-restore"
    playerDisruption := true
    safeguards := ["bounded marker selection", "database backup", "transaction"] }),
  ("/api/admin/landclaim", {
    scopes := ["world-state", "landclaim", "database"]
    backup := "required"
    reversibility := "backup-restore"
    playerDisruption := true
    safeguards := ["claim validation", "database backup", "transaction"] }),
  ("/api/admin/permission", {
    scopes := ["world-state", "permissions", "database"]
    backup := "required"
    reversibility := "compensating-write"
    playerDisruption := true
    safeguards := ["actor validation", "permission bounds", "database backup", "transaction"] }),
  ("/api/admin/access-code", {
    scopes := ["player-state", "access-control", "database"]
    backup := "required"
    reversibility := "compensating-write"
    playerDisruption := true
    safeguards := ["player validation", "database backup", "transaction"] }),
  ("/api/admin/respawn-location", {
    scopes := ["player-state", "location", "database"]
    backup := "required"
    reversibility := "backup-restore"
    playerDisruption := true
    safeguards := ["player validation", "database backup", "transaction"] }),
  ("/api/moderation", {
    scopes := ["player-access", "moderation", "game-command"]
    backup := "none"
    reversibility := "policy-reversal"
    playerDisruption := true
    safeguards := ["identity selectors", "expiry bounds", "enforcement history"] }),
  ("/api/ops/services/control", {
    scopes := ["service-lifecycle"]
    backup := "conditional"
    reversibility := "inverse-control"
    restartImpact := "targeted-service"
    playerDisruption := true
    mapLifecycle := true
    safeguards := ["project service allowlist", "stateful-service gate", "post-start hooks"] }),
  ("/api/ops/memory", {
    scopes := ["resource-policy", "service-runtime"]
    backup := "automatic-state-file"
    reversibility := "prior-policy"
    restartImpact := "action-dependent"
    playerDisruption := true
    mapLifecycle := true
    safeguards := ["bounded memory limits", "pressure guardrails", "retained prior policy"] }),
  ("/api/ops/autoscaler", {
    scopes := ["resource-policy", "map-lifecycle"]
    backup := "automatic-state-file"
    reversibility := "prior-policy"
    restartImpact := "dynamic-map-lifecycle"
    playerDisruption := true
    mapLifecycle := true
    safeguards := ["mode bounds", "pressure budget", "post-start hooks", "retained prior policy"] }),
  ("/api/ops/restart", {
    scopes := ["service-lifecycle", "player-session"]
    backup := "conditional"
    reversibility := "cancel-before-execution"
    restartImpact := "scheduled-farm-or-target"
    playerDisruption := true
    mapLifecycle := true
    safeguards :=
      ["announcement cadence", "online-player visibility", "target-aware restart path",
       "post-start hooks"] }),
  ("/api/admin/gm/execute", {
    scopes := ["game-command", "runtime-state"]
    backup := "none"
    reversibility := "unknown"
    playerDisruption := true
    safeguards := ["command catalog", "command authentication", "explicit confirmation"] })
  ]

def impact? (path : String) : Option Impact :=
  (IMPACTS.find? fun row => decide (row.1 = path)).map Prod.snd

end Dash.Contracts
