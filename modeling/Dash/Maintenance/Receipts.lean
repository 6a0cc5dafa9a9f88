import Dash.Maintenance.Restart
import Mathlib.Data.Rat.Floor

/-! The signed receipts of maintenance outcomes: how one is built from a job and its result, and what
its verification demands.

A time to the microsecond stands for its text.
-/

set_option autoImplicit false

namespace Dash.Maintenance.Receipts

open Dash.Python

/-- Python's `round`, which takes the even one of two neighbours. -/
def roundEven (value : ℚ) : Int :=
  let rest := value - ⌊value⌋
  if rest < 1 / 2 then ⌊value⌋
  else if 1 / 2 < rest ∨ ⌊value⌋ % 2 ≠ 0 then ⌊value⌋ + 1
  else ⌊value⌋

/-- `iso`, which rounds to the microsecond. -/
def iso (time : ℚ) : Int := roundEven (time * 1000000)

def epoch (stamp : Int) : ℚ := stamp / 1000000

def orNone (text : String) : Option String := if text = "" then none else some text

def boundedText (value : String) (maximum : Nat) (required : Bool) : Option String :=
  let text := strip value
  if required = true ∧ text = "" then none
  else if maximum < text.length ∨ hasControl text = true then none
  else some text

def isHex (char : Char) : Bool := char.isDigit || (decide ('a' ≤ char) && decide (char ≤ 'f'))

def isHash (text : String) : Bool := decide (text.length = 64) && text.toList.all isHex

def isName (char : Char) : Bool := char.isAlphanum || char == '_' || char == '-'

def isJob (text : String) : Bool :=
  decide (1 ≤ text.length ∧ text.length ≤ 128) && text.toList.all isName

def isLower (char : Char) : Bool := char.isLower || char.isDigit

/-- `TARGET_PATTERN` -/
def isTarget (text : String) : Bool :=
  match text.toList with
  | [] => false
  | first :: rest => isLower first && decide (rest.length ≤ 63) &&
      rest.all fun char => isLower char || char == '_' || char == '-'

def RECEIPT_START : String := "maintenance-outcome-"

/-- `RECEIPT_PATTERN` -/
def isReceipt (text : String) : Bool :=
  RECEIPT_START.toList.isPrefixOf text.toList && decide (text.length = RECEIPT_START.length + 32) &&
    (text.toList.drop RECEIPT_START.length).all isHex

def policies : List String := ["current", "certified", "automatic"]

inductive Field where
  | text (value : Option String)
  | flag (value : Bool)
  deriving DecidableEq

abbrev Fields := List (String × Field)

def get (fields : Fields) (key : String) : Option Field :=
  (fields.find? fun field => field.1 = key).map Prod.snd

/-- `str(value or "")` -/
def textOf : Option Field → String
  | some (.text (some text)) => text
  | some (.flag true) => "True"
  | _ => ""

/-- `bool(value)` -/
def truth : Option Field → Bool
  | some (.text (some text)) => decide (text ≠ "")
  | some (.flag value) => value
  | _ => false

structure RawCandidate where
  (imageTag currentImageTag status installedBuildId targetBuildId loadedBuildId : String)

/-- `TAG_PATTERN` -/
def isTag (text : String) : Bool :=
  match text.toList with
  | [] => false
  | first :: rest => first.isAlphanum && decide (rest.length ≤ 127) &&
      rest.all fun char => char.isAlphanum || char == '_' || char == '.' || char == '-'

def isBuild (text : String) : Bool :=
  decide (1 ≤ text.length ∧ text.length ≤ 32) && text.toList.all Char.isDigit

def normalizeCandidate (digest : Fields → String) (candidate : RawCandidate) : Option Fields :=
  let tag := strip candidate.imageTag
  let current := strip candidate.currentImageTag
  let status := strip candidate.status
  let installed := strip candidate.installedBuildId
  let target := strip candidate.targetBuildId
  let loaded := strip candidate.loadedBuildId
  if isTag tag = false ∨ isTag current = false then none
  else if status ∉ ["current", "update-available", "reload-required", "unknown"] then none
  else if [installed, target, loaded].any fun build => decide (build ≠ "") && !isBuild build then none
  else
    let normalized : Fields :=
      [("imageTag", .text (some tag)), ("currentImageTag", .text (some current)),
        ("status", .text (some status)), ("installedBuildId", .text (orNone installed)),
        ("targetBuildId", .text (orNone target)), ("loadedBuildId", .text (orNone loaded)),
        ("updateRequired", .flag (decide (status ∈ ["update-available", "reload-required"])))]
    some (normalized ++ [("fingerprint", .text (some (digest normalized)))])

def candidateKeys : List String :=
  ["status", "fingerprint", "imageTag", "currentImageTag", "updateRequired"]

/-- `set(fields) == set(keys)` -/
def sameKeys (fields : Fields) (keys : List String) : Bool :=
  fields.all (fun field => keys.contains field.1) && keys.all fun key => (fields.map Prod.fst).contains key

/-- `_candidate` -/
def candidateOf (value : Fields) : Option Fields :=
  if value ≠ [] ∧ sameKeys value candidateKeys = false then none
  else
    match boundedText (textOf (get value "status")) 32 false,
        boundedText (textOf (get value "fingerprint")) 64 false,
        boundedText (textOf (get value "imageTag")) 128 false,
        boundedText (textOf (get value "currentImageTag")) 128 false with
    | some status, some fingerprint, some imageTag, some currentImageTag =>
      if fingerprint ≠ "" ∧ isHash fingerprint = false then none
      else some [("status", .text (orNone status)), ("fingerprint", .text (orNone fingerprint)),
          ("imageTag", .text (orNone imageTag)), ("currentImageTag", .text (orNone currentImageTag)),
          ("updateRequired", .flag (truth (get value "updateRequired")))]
    | _, _, _, _ => none

/-- `update-readiness-[0-9a-f]{32}` -/
def isReadiness (text : String) : Bool :=
  "update-readiness-".toList.isPrefixOf text.toList && decide (text.length = 49) && (text.toList.drop 17).all isHex

structure ReadinessId where
  (id sha256 : Option String)
  deriving DecidableEq

/-- `_readiness` -/
def readinessOf (value : ReadinessId) : Option ReadinessId :=
  match boundedText (value.id.getD "") 128 false, boundedText (value.sha256.getD "") 64 false with
  | some id, some sha256 =>
    if id ≠ "" ∧ isReadiness id = false then none
    else if sha256 ≠ "" ∧ isHash sha256 = false then none
    else if decide (id = "") ≠ decide (sha256 = "") then none
    else some ⟨orNone id, orNone sha256⟩
  | _, _ => none

/-- `STAGE_NAMES` -/
inductive StageName where
  | preflight | disconnect | stop | backup | update | start | online | recovery | reboot
  deriving DecidableEq

def stageNames : List StageName :=
  [.preflight, .disconnect, .stop, .backup, .update, .start, .online, .recovery, .reboot]

structure Stage where
  (required attempted ok : Bool)
  durationMs : Int
  returncode : Option Int
  deriving DecidableEq

def normalizeStage (stage : Stage) : Option Stage :=
  if stage.attempted = false ∧ stage.ok ≠ !stage.required then none
  else if stage.durationMs < 0 ∨ 86400000 < stage.durationMs then none
  else if stage.returncode.any fun code => decide (code < -255 ∨ 255 < code) then none
  else if stage.attempted = false ∧ (stage.durationMs ≠ 0 ∨ stage.returncode ≠ none) then none
  else some stage

structure Ran where
  ok : Bool
  durationMs : Int
  returncode : Option Int

def stageFromResult (value : Option Ran) (required : Bool) : Option Stage :=
  match value with
  | none => some ⟨required, false, !required, 0, none⟩
  | some ran => normalizeStage ⟨required, true, ran.ok, ran.durationMs, ran.returncode⟩

structure BackupEvidence where
  (required attempted verified : Bool)
  path : Option String

/-- `_backup` -/
def backupOf (value : BackupEvidence) : Option BackupEvidence :=
  match boundedText (value.path.getD "") 512 false with
  | none => none
  | some path =>
    if value.verified = true ∧ (value.attempted = false ∨ path = "") then none
    else if value.attempted = false ∧ path ≠ "" then none
    else some { value with path := orNone path }

/-- `text.split(mark, 1)[1]`, where the mark is in the text. -/
def afterMark (mark : List Char) : List Char → Option (List Char)
  | [] => if mark = [] then some [] else none
  | char :: rest =>
    if mark.isPrefixOf (char :: rest) then some ((char :: rest).drop mark.length)
    else afterMark mark rest

def relativePath (path : String) : String :=
  match afterMark "/backups/".toList path.toList with
  | some rest => String.ofList rest
  | none => path

structure Scheduled where
  job : RestartJob
  runAt : ℚ
  principalId : String
  deriving DecidableEq

structure Request where
  (target action : String)
  updatePolicy : Option String
  (execute backup requireSoftDisconnect : Bool)
  principalId : String
  runAt : ℚ

/-- The keys of `RESTART_TARGETS`. -/
def restartTargets : List String :=
  ["all", "core", "service-layer", "game-all", "survival", "overmap", "arrakeen", "harko-village", "deep-desert"]

def defaultPolicy (settings : Settings) (target : String) : String :=
  if target ≠ "all" then "current"
  else if settings.updateReadinessRequireReceipt then "certified" else "automatic"

/-- `schedule_restart`, where the calendar admits the job; `none` raises. -/
def scheduleRestart (settings : Settings) (request : Request) (id : String) : Option Scheduled :=
  let target := strip request.target
  let action := settings.lower (strip request.action)
  let policy := settings.lower (strip (request.updatePolicy.getD (defaultPolicy settings target)))
  if target ∉ restartTargets then none
  else if action ≠ "restart" ∧ action ≠ "shutdown" then none
  else if policy ∉ policies then none
  else if target ≠ "all" ∧ policy ≠ "current" then none
  else if policy = "automatic" ∧ settings.updateReadinessRequireReceipt = true then none
  else some
    { job :=
        { id := id
          target := target
          action := some action
          updatePolicy := some policy
          requireSoftDisconnect := some request.requireSoftDisconnect
          backup := some request.backup
          execute := request.execute }
      runAt := request.runAt
      principalId := clip 128 (if request.principalId = "" then "system" else request.principalId) }

structure Measured where
  outcomes : Outcomes
  /-- The candidate that readiness evaluated. -/
  candidate : Fields
  durations : StageName → Int
  recoveryReturncode : Option Int

inductive Outcome where
  | passed | failed | deferred | dryRun
  deriving DecidableEq

structure Receipt where
  (id jobId principalId target action requestedUpdatePolicy effectiveUpdatePolicy : String)
  (scheduledAt startedAt completedAt durationMs : Int)
  outcome : Outcome
  (ready dryRun deferred serviceRecovered updateAttempted updateApplied : Bool)
  candidateUpdateBlocked : Bool
  candidate : Fields
  readinessReceipt : ReadinessId
  backup : BackupEvidence
  stages : List (StageName × Stage)
  warnings : List String
  (recoveryExecuted gameDataMutationExecuted : Bool)

structure Document where
  generatedAt : Int
  signingKeyFingerprint : String
  receipt : Receipt
  (receiptSha256 signature : String)

structure Platform where
  /-- The digest of a receipt without its digest. -/
  digest : Receipt → String
  digest_hash : ∀ receipt, isHash (digest receipt) = true
  fingerprint : String
  /-- The HMAC of a document without its signature. -/
  mac : Int → String → Receipt → String → String
  /-- The tokens that `secrets` draws. -/
  token : Nat → String
  token_hex : ∀ number, (token number).length = 32 ∧ (token number).toList.all isHex = true

def ranOf (job : RestartJob) (measured : Measured) (result : Result) : StageName → Option Ran
  | .preflight => result.updatePreflight.map fun part => ⟨part.ok, measured.durations .preflight, none⟩
  | .disconnect => result.disconnect.map fun part =>
      ⟨part.ok, if job.requireSoftDisconnect.getD true then measured.durations .disconnect else 0, none⟩
  | .stop => result.stop.map fun part => ⟨part.ok, measured.durations .stop, part.returncode⟩
  | .backup => result.backup.map fun part => ⟨part.ok, measured.durations .backup, none⟩
  | .update => result.update.map fun part =>
      ⟨part.ok, if part.skipped then 0 else measured.durations .update, part.returncode⟩
  | .start => result.start.map fun part => ⟨part.ok, measured.durations .start, part.returncode⟩
  | .online => result.online.map fun part => ⟨part.ok, measured.durations .online, none⟩
  | .recovery => result.recovery.map fun part =>
      ⟨part.ok, if part.skipped then 0 else measured.durations .recovery,
        if part.skipped then none else measured.recoveryReturncode⟩
  | .reboot => result.reboot.map fun part => ⟨part.ok, measured.durations .reboot, part.returncode⟩

def requiredOf (job : RestartJob) (action : String) (result : Result) : StageName → Bool
  | .preflight => !result.dryRun
  | .disconnect => !result.dryRun && job.requireSoftDisconnect.getD true
  | .stop => !result.dryRun
  | .backup => job.backup.getD true && !result.dryRun
  | .update => !result.dryRun && result.update.any fun part => !part.skipped
  | .start => !result.dryRun && decide (action = "restart") && result.stop.any fun part => part.ok
  | .online => !result.dryRun && decide (action = "restart") && result.start.isSome
  | .recovery => result.recovery.isSome
  | .reboot => result.reboot.isSome

def outcomeOf (dryRun deferred ready : Bool) : Outcome :=
  if dryRun && ready then .dryRun
  else if deferred && ready then .deferred
  else if ready then .passed else .failed

def carried (measured : Measured) (result : Result) : Fields :=
  if (result.updatePreflight.bind Preflight.candidate).isSome then measured.candidate else []

def effectivePolicy (settings : Settings) (job : RestartJob) (result : Result) : String :=
  if result.updateSuppressedByBackupFailure then "current"
  else
    let preflight := result.updatePreflight
    let policy := orElse (preflight.map Preflight.policy) (policyOf settings job)
    settings.lower (strip (orElse (preflight.bind Preflight.effectivePolicy) policy))

def evidenceOf (job : RestartJob) (result : Result) : BackupEvidence where
  required := job.backup.getD true && !result.dryRun
  attempted := result.backup.isSome
  verified := result.backup.any BackupReport.verified
  path := (result.backup.bind BackupReport.path).map relativePath

variable (rt : Platform) (settings : Settings)

/-- What `build_receipt` reads of a job and its result, where it does not raise. -/
structure Parts where
  stages : List (StageName × Stage)
  warnings : List String
  (jobId principalId target : String)
  candidate : Fields
  readinessReceipt : ReadinessId
  backup : BackupEvidence

def actionOf (job : RestartJob) (result : Result) : String :=
  settings.lower (strip (orElse job.action (orElse (some result.action) "restart")))

def partsOf (scheduled : Scheduled) (measured : Measured) (result : Result) : Option Parts :=
  let job := scheduled.job
  let preflight := result.updatePreflight
  match stageNames.mapM fun name => (stageFromResult (ranOf job measured result name)
        (requiredOf job (actionOf settings job result) result name)).map fun stage => (name, stage),
      (result.warnings.take 32).mapM fun warning => boundedText warning 1000 true,
      boundedText job.id 128 true,
      boundedText (if scheduled.principalId = "" then "system" else scheduled.principalId) 128 true,
      boundedText job.target 64 true, candidateOf (carried measured result),
      readinessOf ⟨preflight.bind Preflight.receiptId, preflight.bind Preflight.receiptSha256⟩,
      backupOf (evidenceOf job result) with
  | some stages, some warnings, some jobId, some principalId, some target, some candidate,
    some readinessReceipt, some backup =>
    some ⟨stages, warnings, jobId, principalId, target, candidate, readinessReceipt, backup⟩
  | _, _, _, _, _, _, _, _ => none

def assembled (number : Nat) (scheduled : Scheduled) (result : Result) (started completed : ℚ)
    (parts : Parts) : Receipt where
  id := RECEIPT_START ++ rt.token number
  jobId := parts.jobId
  principalId := parts.principalId
  target := parts.target
  action := actionOf settings scheduled.job result
  requestedUpdatePolicy := policyOf settings scheduled.job
  effectiveUpdatePolicy := effectivePolicy settings scheduled.job result
  scheduledAt := iso (if scheduled.runAt = 0 then started else scheduled.runAt)
  startedAt := iso started
  completedAt := iso completed
  durationMs := roundEven ((completed - started) * 1000)
  outcome := outcomeOf result.dryRun result.deferred result.ok
  ready := result.ok
  dryRun := result.dryRun
  deferred := result.deferred
  serviceRecovered := result.serviceRecovered
  updateAttempted := result.update.any fun part => !part.skipped
  updateApplied := result.updateApplied
  candidateUpdateBlocked := result.updatePreflight.any Preflight.candidateUpdateBlocked ||
    result.updateSuppressedByBackupFailure
  candidate := parts.candidate
  readinessReceipt := parts.readinessReceipt
  backup := parts.backup
  stages := parts.stages
  warnings := parts.warnings
  recoveryExecuted := result.recovery.isSome
  gameDataMutationExecuted := false

/-- `build_receipt`; `none` raises. -/
def buildReceipt (number : Nat) (scheduled : Scheduled) (measured : Measured) (result : Result)
    (started completed : ℚ) : Option Receipt :=
  let action := actionOf settings scheduled.job result
  if ¬(0 ≤ completed - started ∧ completed - started ≤ 86400) then none
  else if action ≠ "restart" ∧ action ≠ "shutdown" then none
  else if policyOf settings scheduled.job ∉ policies ∨
      effectivePolicy settings scheduled.job result ∉ policies then none
  else (partsOf settings scheduled measured result).map
    (assembled rt settings number scheduled result started completed)

def signedDocument (receipt : Receipt) (generatedAt : ℚ) : Document :=
  let stamp := iso generatedAt
  ⟨stamp, rt.fingerprint, receipt, rt.digest receipt, rt.mac stamp rt.fingerprint receipt (rt.digest receipt)⟩

def stageOf (receipt : Receipt) (name : StageName) : Option Stage :=
  (receipt.stages.find? fun stage => stage.1 = name).map Prod.snd

def validTimes (receipt : Receipt) : Bool :=
  let elapsed := epoch receipt.completedAt - epoch receipt.startedAt
  decide (epoch receipt.scheduledAt ≤ epoch receipt.startedAt + 300 ∧ 0 ≤ elapsed ∧ elapsed ≤ 86400) &&
    decide (0 ≤ receipt.durationMs ∧ receipt.durationMs ≤ 86400000 ∧
      |receipt.durationMs - roundEven (elapsed * 1000)| ≤ 2000)

def validVerdict (receipt : Receipt) : Bool :=
  decide (receipt.outcome = outcomeOf receipt.dryRun receipt.deferred receipt.ready) &&
    (!receipt.updateApplied || receipt.updateAttempted) && !receipt.gameDataMutationExecuted

def validStages (receipt : Receipt) : Bool :=
  decide (receipt.stages.map Prod.fst = stageNames) &&
    receipt.stages.all (fun stage => decide (normalizeStage stage.2 = some stage.2)) &&
    decide ((stageOf receipt .recovery).map Stage.attempted = some receipt.recoveryExecuted) &&
    (backupOf receipt.backup).any fun backup =>
      decide ((stageOf receipt .backup).map Stage.attempted = some backup.attempted) &&
        (!backup.verified || decide ((stageOf receipt .backup).map Stage.ok = some true))

def validReceipt (receipt : Receipt) : Bool :=
  isReceipt receipt.id && isJob receipt.jobId && (boundedText receipt.principalId 128 true).isSome &&
    isTarget receipt.target && decide (receipt.action = "restart" ∨ receipt.action = "shutdown") &&
    decide (receipt.requestedUpdatePolicy ∈ policies ∧ receipt.effectiveUpdatePolicy ∈ policies) &&
    validTimes receipt && validVerdict receipt &&
    decide (candidateOf receipt.candidate = some receipt.candidate) &&
    decide (readinessOf receipt.readinessReceipt = some receipt.readinessReceipt) &&
    validStages receipt && decide (receipt.warnings.length ≤ 32) &&
    receipt.warnings.all fun warning => (boundedText warning 1000 true).isSome

/-- `ok` of `verify_signed_document` -/
def verifySignedDocument (document : Document) : Bool :=
  decide (document.signature = rt.mac document.generatedAt document.signingKeyFingerprint
      document.receipt document.receiptSha256) &&
    decide (document.signingKeyFingerprint = rt.fingerprint) && validReceipt document.receipt &&
    isHash document.receiptSha256 && decide (document.receiptSha256 = rt.digest document.receipt)

structure Store where
  tokens : Nat
  /-- The documents of the evidence root, the newest first. -/
  documents : List Document

def kept (retention : Nat) : Nat := max 10 (min retention 5000)

def record (retention : Nat) (scheduled : Scheduled) (measured : Measured) (result : Result)
    (started completed : ℚ) (store : Store) : Option Document × Store :=
  match buildReceipt rt settings store.tokens scheduled measured result started completed with
  | none => (none, store)
  | some receipt =>
    let document := signedDocument rt receipt completed
    (some document, ⟨store.tokens + 1, (document :: store.documents).take (kept retention)⟩)

/-- `ok` of `Store.status` -/
def status (store : Store) : Bool := store.documents.all (verifySignedDocument rt)

end Dash.Maintenance.Receipts
