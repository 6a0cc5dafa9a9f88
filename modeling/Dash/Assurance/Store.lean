import Dash.Addons.Store
import Mathlib.Algebra.Order.Ring.Rat

/-! Deployment assurance: manifests, container snapshots, receipts and their verification, and the windows
of deployments, which may end between two files.

Documents keep their types: what the files hold comes back from them as it was written.
-/

set_option autoImplicit false

namespace Dash.Assurance

open Dash.Python

def MAX_FILES : Nat := 256

def MAX_FILE_BYTES : Int := 10 * 1024 * 1024

def MAX_TOTAL_BYTES : Int := 100 * 1024 * 1024

structure RawFile where
  (path sha256 : String)
  bytes : Option Int

structure File where
  (path sha256 : String)
  bytes : Int
  deriving DecidableEq

structure RawContainer where
  present : Bool
  (containerId state startedAt : String)

structure Container where
  present : Bool
  containerId : Option String
  state : String
  startedAt : Option String
  deriving DecidableEq

abbrev Snapshot := String → Option RawContainer

/-- A row of `compare_snapshots`; `none` is the empty object. -/
structure Compared where
  service : String
  (strict sameContainer runningProcessUnrestarted strictContinuity : Bool)
  (before after : Option Container)
  deriving DecidableEq

structure Continuity where
  rows : List Compared
  (containersUnrecreated runningProcessesUnrestarted strictServicesContinuous : Bool)
  deriving DecidableEq

structure Health where
  (desiredStateAttested readinessCurrent sloHealthy changeIntegrity prometheusReadiness : Bool)
  (adminHealthy backupVerified : Bool)
  deriving DecidableEq

def Health.all (health : Health) : Bool :=
  health.desiredStateAttested && health.readinessCurrent && health.sloHealthy &&
    health.changeIntegrity && health.prometheusReadiness && health.adminHealthy &&
    health.backupVerified

structure Invariants where
  (sourceManifestMatches protectedContainersUnrecreated runningMapProcessesUnrestarted : Bool)
  strictMapServicesContinuous : Bool
  health : Health

def Invariants.all (invariants : Invariants) : Bool :=
  invariants.sourceManifestMatches && invariants.protectedContainersUnrecreated &&
    invariants.runningMapProcessesUnrestarted && invariants.strictMapServicesContinuous &&
    invariants.health.all

structure Backup where
  path : String
  verified : Bool
  exitCode : Int

structure SourceArchive where
  (path sha256 : String)
  bytes : Int
  verified : Bool

structure Receipt where
  (id windowId commit reason principalId startedAt completedAt manifestSha256 : String)
  files : List File
  (protectedServices strictServices : List String)
  containerContinuity : Continuity
  health : Health
  (backup preChangeBackup : Backup)
  preChangeSourceArchive : SourceArchive
  invariants : Invariants
  (ready recoveryExecuted gameMutationExecuted : Bool)

structure Document where
  (generatedAt signingKeyFingerprint : String)
  receipt : Receipt
  (receiptSha256 signature : String)

/-- A digit of `[0-9a-f]`. -/
def isHex (char : Char) : Bool := char.isDigit || (decide ('a' ≤ char) && decide (char ≤ 'f'))

def isHash (text : String) : Bool := decide (text.length = 64) && text.toList.all isHex

def isCommit (text : String) : Bool :=
  decide (text.length = 40 ∨ text.length = 64) && text.toList.all isHex

def isToken (text : List Char) : Bool := decide (text.length = 32) && text.all isHex

def WINDOW_START : String := "deployment-window-"

def RECEIPT_START : String := "deployment-assurance-"

/-- `WINDOW_PATTERN` and `RECEIPT_PATTERN` -/
def named (start text : String) : Bool :=
  start.toList.isPrefixOf text.toList && isToken (text.toList.drop start.toList.length)

structure Platform where
  lower : String → String
  /-- `iso` of a time. -/
  iso : ℚ → String
  /-- `epoch` of a text; `none` raises. -/
  epoch : String → Option ℚ
  epoch_iso : ∀ time, (epoch (iso time)).isSome = true
  /-- The digests of a manifest and of a receipt. -/
  manifestDigest : List File → String
  digest : Receipt → String
  digest_hash : ∀ receipt, isHash (digest receipt) = true
  fingerprint : String
  /-- The HMAC of a document without its signature. -/
  mac : String → String → Receipt → String → String
  mac_hash : ∀ generated fingerprint receipt code, isHash (mac generated fingerprint receipt code) = true
  /-- The tokens that `secrets` draws. -/
  token : Nat → String
  token_hex : ∀ number, isToken (token number).toList = true

/-- A character of `[A-Za-z0-9_.-]`. -/
def isPathChar (char : Char) : Bool :=
  (decide (48 ≤ char.toNat) && decide (char.toNat ≤ 57)) ||
    (decide (65 ≤ char.toNat) && decide (char.toNat ≤ 90)) ||
    (decide (97 ≤ char.toNat) && decide (char.toNat ≤ 122)) ||
    decide (char.toNat = 95) || decide (char.toNat = 46) || decide (char.toNat = 45)

def isPart (part : List Char) : Bool :=
  decide (1 ≤ part.length ∧ part.length ≤ 128) && part.all isPathChar

def joinSlash : List (List Char) → List Char
  | [] => []
  | [part] => part
  | part :: rest => part ++ '/' :: joinSlash rest

/-- The parts of a `PurePosixPath`, without its root. -/
def pathParts (text : List Char) : List (List Char) :=
  (Addons.splitSlash text).filter fun part => part ≠ [] ∧ part ≠ ['.']

def isPrivate (parts : List (List Char)) : Bool :=
  match parts with
  | [] => true
  | first :: rest =>
    decide (String.ofList first ∈ ["backups", "captures", "data", ".git"]) ||
      decide (first = "config".toList ∧ rest.head? = some "secrets".toList)

def safe_relative_path (value : String) : Option String :=
  let text := (strip value).toList.map fun char => if char = '\\' then '/' else char
  let parts := pathParts text
  if text = [] ∨ text.head? = some '/' ∨ 12 < parts.length then none
  else if parts.any fun part => part = ['.', '.'] || !isPart part then none
  else if isPrivate parts = true ∨ text = ".env".toList then none
  else some (String.ofList (joinSlash parts))

namespace Platform

variable (rt : Platform)

/-- A row of `validate_manifest_rows`. -/
def validateRow (requireBytes : Bool) (row : RawFile) : Option RawFile :=
  match safe_relative_path row.path with
  | none => none
  | some relative =>
    let expected := rt.lower (strip row.sha256)
    if isHash expected = false then none
    else if requireBytes = true ∧ row.bytes = none then none
    else if row.bytes.all (fun size => decide (0 ≤ size ∧ size ≤ MAX_FILE_BYTES)) = true then
      some ⟨relative, expected, row.bytes⟩
    else none

def byPath (rows : List RawFile) : List RawFile :=
  rows.insertionSort fun first second => first.path ≤ second.path

def validate_manifest_rows (rows : List RawFile) (requireBytes : Bool) : Option (List RawFile) :=
  if rows.length < 1 ∨ MAX_FILES < rows.length then none
  else
    match rows.mapM (rt.validateRow requireBytes) with
    | none => none
    | some normalized =>
      if (normalized.map RawFile.path).Nodup ∧
          (normalized.map fun row => row.bytes.getD 0).sum ≤ MAX_TOTAL_BYTES then
        some (byPath normalized)
      else none

end Platform

abbrev Disk := String → Option (Int × String)

/-- A row of `normalize_manifest` with what it declared and what the file is. -/
structure Checked where
  (path sha256 : String)
  bytes : Int
  actualSha256 : String

def checkRow (disk : Disk) (requireMatch : Bool) (row : RawFile) : Option Checked :=
  match disk row.path with
  | none => none
  | some (size, actual) =>
    if size < 0 ∨ MAX_FILE_BYTES < size then none
    else if requireMatch = true ∧ (actual ≠ row.sha256 ∨ (row.bytes ≠ none ∧ row.bytes ≠ some size)) then
      none
    else some ⟨row.path, row.sha256, size, actual⟩

def Platform.normalize_manifest (rt : Platform) (disk : Disk) (rows : List RawFile)
    (requireMatch : Bool) : Option (List Checked) :=
  match rt.validate_manifest_rows rows false with
  | none => none
  | some expected =>
    match expected.mapM (checkRow disk requireMatch) with
    | none => none
    | some checked =>
      if (checked.map Checked.bytes).sum ≤ MAX_TOTAL_BYTES then some checked else none

def sortedSet (values : List String) : List String :=
  values.dedup.insertionSort fun first second => first ≤ second

def missing : Container := ⟨false, none, "missing", none⟩

def isContainerId (text : String) : Bool :=
  decide (12 ≤ text.length ∧ text.length ≤ 64) && text.toList.all isHex

def Platform.normalizeContainer (rt : Platform) (row : Option RawContainer) : Option Container :=
  match row with
  | none => some missing
  | some row =>
    if row.containerId ≠ "" ∧ isContainerId row.containerId = false then none
    else if row.startedAt ≠ "" ∧ rt.epoch row.startedAt = none then none
    else some
      { present := row.present
        containerId := if row.containerId = "" then none else some row.containerId
        state := clip 32 (if row.state = "" then "unknown" else row.state)
        startedAt := if row.startedAt = "" then none else some row.startedAt }

def Platform.normalize_snapshot (rt : Platform) (snapshot : Snapshot) (services : List String) :
    Option (List (String × Container)) :=
  (sortedSet services).mapM fun service =>
    (rt.normalizeContainer (snapshot service)).map fun container => (service, container)

def container? (rows : List (String × Container)) (service : String) : Option Container :=
  (rows.find? fun row => row.1 = service).map Prod.snd

def isRunning (row : Option Container) : Bool := row.map Container.state = some "running"

def startedOf (row : Option Container) : Option String := row.bind Container.startedAt

def compareOne (strict : List String) (before after : List (String × Container)) (service : String) :
    Compared :=
  let old := container? before service
  let new := container? after service
  let sameStart := decide (startedOf old = startedOf new)
  { service := service
    strict := strict.contains service
    sameContainer := decide (old.map Container.present = new.map Container.present ∧
      old.bind Container.containerId = new.bind Container.containerId)
    runningProcessUnrestarted := !(isRunning old && isRunning new && !sameStart)
    strictContinuity := !strict.contains service || (isRunning old && isRunning new && sameStart)
    before := old
    after := new }

def Continuity.ofRows (rows : List Compared) : Continuity :=
  ⟨rows, rows.all Compared.sameContainer, rows.all Compared.runningProcessUnrestarted,
    rows.all Compared.strictContinuity⟩

def compare_snapshots (before after : List (String × Container)) (strict : List String) : Continuity :=
  .ofRows ((sortedSet (before.map Prod.fst ++ after.map Prod.fst)).map (compareOne strict before after))

def validFile (row : File) : Bool :=
  decide (safe_relative_path row.path = some row.path) && isHash row.sha256 &&
    decide (0 ≤ row.bytes ∧ row.bytes ≤ MAX_FILE_BYTES)

namespace Platform

variable (rt : Platform)

def validFiles (receipt : Receipt) : Bool :=
  decide (1 ≤ receipt.files.length ∧ receipt.files.length ≤ MAX_FILES) && receipt.files.all validFile &&
    decide (receipt.files.map File.path).Nodup &&
    decide ((receipt.files.map File.bytes).sum ≤ MAX_TOTAL_BYTES) &&
    decide (receipt.files = receipt.files.insertionSort fun first second => first.path ≤ second.path) &&
    decide (receipt.manifestSha256 = rt.manifestDigest receipt.files)

def validTimes (receipt : Receipt) : Bool :=
  match rt.epoch receipt.startedAt, rt.epoch receipt.completedAt with
  | some started, some completed => decide (started ≤ completed)
  | _, _ => false

def validServices (receipt : Receipt) : Bool :=
  decide (receipt.protectedServices ≠ [] ∧ receipt.protectedServices = sortedSet receipt.protectedServices) &&
    decide (receipt.strictServices = sortedSet receipt.strictServices) &&
    receipt.strictServices.all (fun service => receipt.protectedServices.contains service) &&
    decide (receipt.containerContinuity.rows.map Compared.service = receipt.protectedServices) &&
    decide (receipt.containerContinuity = .ofRows receipt.containerContinuity.rows)

def validInvariants (receipt : Receipt) : Bool :=
  let continuity := receipt.containerContinuity
  let invariants := receipt.invariants
  decide (invariants.protectedContainersUnrecreated = continuity.containersUnrecreated ∧
      invariants.runningMapProcessesUnrestarted = continuity.runningProcessesUnrestarted ∧
      invariants.strictMapServicesContinuous = continuity.strictServicesContinuous ∧
      receipt.health = invariants.health) &&
    decide (receipt.backup.verified = invariants.health.backupVerified) &&
    receipt.preChangeBackup.verified && receipt.preChangeSourceArchive.verified &&
    isHash receipt.preChangeSourceArchive.sha256 &&
    decide (receipt.preChangeSourceArchive.path ≠ "") &&
    decide (receipt.ready = invariants.all) && !receipt.recoveryExecuted &&
    !receipt.gameMutationExecuted

def validate_receipt (receipt : Receipt) : Bool :=
  named RECEIPT_START receipt.id && named WINDOW_START receipt.windowId && isCommit receipt.commit &&
    decide (10 ≤ receipt.reason.length ∧ receipt.reason.length ≤ 1000) &&
    decide (receipt.principalId ≠ "") && rt.validTimes receipt && rt.validFiles receipt &&
    validServices receipt && validInvariants receipt

def signed_document (receipt : Receipt) (generatedAt : ℚ) : Document :=
  let generated := rt.iso generatedAt
  let code := rt.digest receipt
  ⟨generated, rt.fingerprint, receipt, code, rt.mac generated rt.fingerprint receipt code⟩

/-- `ok` of `verify_signed_document` -/
def verify_signed_document (document : Document) : Bool :=
  (rt.epoch document.generatedAt).isSome && rt.validate_receipt document.receipt &&
    isHash document.receiptSha256 && decide (document.receiptSha256 = rt.digest document.receipt) &&
    decide (document.signingKeyFingerprint = rt.fingerprint) && isHash document.signature &&
    decide (document.signature = rt.mac document.generatedAt document.signingKeyFingerprint
      document.receipt document.receiptSha256)

end Platform

def MAX_WINDOW_SECONDS : ℚ := 6 * 3600

inductive Status where
  | opened
  | completed (receiptId : String) (ready : Bool)
  | cancelled
  deriving DecidableEq

structure Window where
  (commit reason startedAt expiresAt : String)
  status : Status
  manifest : List File
  manifestSha256 : String
  (protectedServices strictServices : List String)
  preChangeBackup : Backup
  preChangeSourceArchive : SourceArchive
  before : List (String × Container)

structure GivenBackup where
  ok : Bool
  path : String
  exitCode : Int

structure Start where
  (commit reason : String)
  manifest : List RawFile
  snapshot : Snapshot
  (protectedServices strictServices : List String)
  recoveryBackup : GivenBackup
  sourceRollback : SourceArchive
  workspaceMatches : Bool
  disk : Disk
  now : ℚ

structure Finish where
  (windowId principalId : String)
  snapshot : Snapshot
  health : Health
  backup : GivenBackup
  disk : Disk
  now : ℚ

inductive Fate where
  | beforeFirst | afterFirst | whole
  deriving DecidableEq

structure System where
  tokens : Nat
  windows : String → Option Window
  /-- The signed receipts of the evidence root, with the call that wrote each. -/
  evidence : List (Document × Finish)
  /-- The snapshots that windows were started with. -/
  begun : String → Option Snapshot

def start : System := ⟨0, fun _ => none, [], fun _ => none⟩

inductive Call where
  | start (given : Start) (fate : Fate)
  | finish (given : Finish) (fate : Fate)
  | cancel (windowId : String) (reason : String) (fate : Fate)

def cancel (windowId reason : String) (fate : Fate) (system : System) : System :=
  let reason := strip reason
  if ¬(5 ≤ reason.length ∧ reason.length ≤ 1000) then system
  else
    match system.windows windowId with
    | none => system
    | some window =>
      if window.status ≠ .opened ∨ fate = .beforeFirst then system
      else
        { system with
          windows := Function.update system.windows windowId (some { window with status := .cancelled }) }

namespace Platform

variable (rt : Platform)

def startFiles (given : Start) : Option (List File) :=
  if given.workspaceMatches then
    (rt.normalize_manifest given.disk given.manifest true).map fun rows =>
      rows.map fun row => ⟨row.path, row.sha256, row.bytes⟩
  else
    (rt.validate_manifest_rows given.manifest true).map fun rows =>
      rows.map fun row => ⟨row.path, row.sha256, row.bytes.getD 0⟩

/-- What `start` signs; `none` raises. -/
def openedWindow (given : Start) : Option Window :=
  let commit := rt.lower (strip given.commit)
  let reason := strip given.reason
  let «protected» := sortedSet given.protectedServices
  let strict := sortedSet given.strictServices
  if isCommit commit = false then none
  else if ¬(10 ≤ reason.length ∧ reason.length ≤ 1000) then none
  else if «protected» = [] ∨ ¬(∀ service ∈ strict, service ∈ «protected») then none
  else if given.recoveryBackup.ok = false ∨ given.recoveryBackup.path = "" then none
  else if given.sourceRollback.verified = false ∨ isHash given.sourceRollback.sha256 = false ∨
      given.sourceRollback.path = "" then none
  else
    match rt.startFiles given, rt.normalize_snapshot given.snapshot «protected» with
    | some files, some before => some
      { commit := commit
        reason := reason
        startedAt := rt.iso given.now
        expiresAt := rt.iso (given.now + MAX_WINDOW_SECONDS)
        status := .opened
        manifest := files
        manifestSha256 := rt.manifestDigest files
        protectedServices := «protected»
        strictServices := strict
        preChangeBackup := ⟨clip 500 given.recoveryBackup.path, true, given.recoveryBackup.exitCode⟩
        preChangeSourceArchive :=
          ⟨clip 500 given.sourceRollback.path, given.sourceRollback.sha256, given.sourceRollback.bytes, true⟩
        before := before }
    | _, _ => none

def begin (given : Start) (fate : Fate) (system : System) : System :=
  match rt.openedWindow given with
  | none => system
  | some window =>
    let name := WINDOW_START ++ rt.token system.tokens
    if fate = .beforeFirst then { system with tokens := system.tokens + 1 }
    else
      { system with
        tokens := system.tokens + 1
        windows := Function.update system.windows name (some window)
        begun := Function.update system.begun name (some given.snapshot) }

def manifestMatches (window : Window) (checked : List Checked) : Bool :=
  (checked.zip window.manifest).all fun pair =>
    decide (pair.1.sha256 = pair.1.actualSha256 ∧ pair.1.bytes = pair.2.bytes)

/-- What `finish` signs, where the files and the containers were read. -/
def receiptOf (window : Window) (given : Finish) (id : String) (checked : List Checked)
    (after : List (String × Container)) : Receipt :=
  let continuity := compare_snapshots window.before after window.strictServices
  let invariants : Invariants :=
    ⟨manifestMatches window checked, continuity.containersUnrecreated,
      continuity.runningProcessesUnrestarted, continuity.strictServicesContinuous, given.health⟩
  { id := id
    windowId := given.windowId
    commit := window.commit
    reason := window.reason
    principalId := clip 128 (if given.principalId = "" then "unknown" else given.principalId)
    startedAt := window.startedAt
    completedAt := rt.iso given.now
    manifestSha256 := window.manifestSha256
    files := window.manifest
    protectedServices := window.protectedServices
    strictServices := window.strictServices
    containerContinuity := continuity
    health := given.health
    backup := ⟨clip 500 given.backup.path, given.backup.ok, given.backup.exitCode⟩
    preChangeBackup := window.preChangeBackup
    preChangeSourceArchive := window.preChangeSourceArchive
    invariants := invariants
    ready := invariants.all
    recoveryExecuted := false
    gameMutationExecuted := false }

/-- The receipt of `finish`; `none` raises. -/
def receipt (window : Window) (given : Finish) (id : String) : Option Receipt :=
  let rows := window.manifest.map fun row => (⟨row.path, row.sha256, some row.bytes⟩ : RawFile)
  match rt.normalize_manifest given.disk rows false,
      rt.normalize_snapshot given.snapshot window.protectedServices with
  | some checked, some after => some (rt.receiptOf window given id checked after)
  | _, _ => none

def expired (window : Window) (now : ℚ) : Bool :=
  match rt.epoch window.expiresAt with
  | some expires => decide (expires < now)
  | none => true

def finish (given : Finish) (fate : Fate) (system : System) : System :=
  match system.windows given.windowId with
  | none => system
  | some window =>
    if window.status ≠ .opened ∨ rt.expired window given.now = true then system
    else
      let id := RECEIPT_START ++ rt.token system.tokens
      match rt.receipt window given id with
      | none => system
      | some receipt =>
        let drawn := { system with tokens := system.tokens + 1 }
        let written :=
          { drawn with evidence := system.evidence ++ [(rt.signed_document receipt given.now, given)] }
        match fate with
        | .beforeFirst => drawn
        | .afterFirst => written
        | .whole =>
          { written with
            windows := Function.update system.windows given.windowId
              (some { window with status := .completed id receipt.ready }) }

def perform (system : System) : Call → System
  | .start given fate => rt.begin given fate system
  | .finish given fate => rt.finish given fate system
  | .cancel windowId reason fate => Assurance.cancel windowId reason fate system

def run (calls : List Call) : System := calls.foldl rt.perform start

end Platform

def System.receipts (system : System) (windowId : String) : List (Document × Finish) :=
  system.evidence.filter fun entry => entry.1.receipt.windowId = windowId

end Dash.Assurance
