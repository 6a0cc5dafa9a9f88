import Dash.Foundation.Faults
import Dash.Python.Value
import Mathlib.Algebra.GroupWithZero.Nat
import Mathlib.Data.List.Dedup

/-! What an addon archive, its manifests and the community index say; installing, enabling and removing addons,
operation by operation.

Directories are moved and the state file is replaced in one operation each. The directories of the
downloads are left out, and so are the times.
-/

set_option autoImplicit false

namespace Dash.Addons

open Dash.Python

variable {F : Type}

structure Entry where
  filename : String
  fileSize : Nat
  symlink : Bool
  content : String

structure Platform (F : Type) extends Runtime F where
  sha256 : List UInt8 → String
  /-- Whether the URL is an HTTPS one of a host that is allowed, without a user. -/
  urlAllowed : String → Bool
  /-- What `zipfile` reads; `none` raises. -/
  unzip : List UInt8 → Option (List Entry)

structure Manifest where
  (id name description author version : String)
  permissions : List String
  deriving DecidableEq

structure RemoteManifest extends Manifest where
  (sourceUrl downloadUrl sha256 : String)
  deriving DecidableEq

structure LocalManifest extends Manifest where
  (navigation path : String)
  deriving DecidableEq

structure Summary where
  (id name description author version manifestUrl lifecycle lifecycleMessage : String)
  permissions : List String
  sourceUrl : Option String
  deriving DecidableEq

/-- `PERMISSIONS`, in order. -/
def PERMISSIONS : List String :=
  ["admin:grant-items", "broadcast:send", "database:read", "database:write", "files:addon-data",
    "ops:read", "players:read", "server:restart", "server:status"]

def BLOCKED_LIFECYCLES : List String := ["unsupported", "removed", "blocked"]

/-- `ID_RE.fullmatch` -/
def isId (text : String) : Bool :=
  match text.toList with
  | [] => false
  | first :: rest =>
    (first.isLower || first.isDigit) && decide (1 ≤ rest.length ∧ rest.length ≤ 63) &&
      rest.all fun char => char.isLower || char.isDigit || char = '-'

/-- `SHA_RE.fullmatch`, of a text in lower case. -/
def isSha (text : String) : Bool :=
  decide (text.toList.length = 64) && text.toList.all (· ∈ "0123456789abcdef".toList)

/-- `text.split("/")` -/
def splitSlash : List Char → List (List Char)
  | [] => [[]]
  | '/' :: rest => [] :: splitSlash rest
  | char :: rest =>
    match splitSlash rest with
    | [] => [[char]]
    | word :: words => (char :: word) :: words

namespace Platform

variable (rt : Platform F)

def text (value : Value F) (name : String) (optional : Bool) : Result String :=
  let value := strip (rt.str (rt.orElse value (.str "")))
  if value = "" ∧ optional = false then valueError (name ++ " is required")
  else if 1024 < value.toList.length then valueError (name ++ " is too long")
  else .ok value

def url (value : Value F) (name : String) : Result String := do
  let value ← rt.text value name false
  if rt.urlAllowed value then .ok value
  else valueError (name ++ " must be an allowed HTTPS GitHub URL")

def keyText : Key F → String
  | .str value => value
  | key => rt.keyRepr key

def categoryPermissions (entry : Key F × Value F) : Result (List (Value F)) :=
  match entry.2 with
  | .list actions => .ok (actions.map fun action =>
      .str (rt.keyText entry.1 ++ ":" ++ rt.str action))
  | _ => valueError ("addon permissions." ++ rt.keyText entry.1 ++ " must be an array")

/-- The entries of `permissions`, from a list or from lists by category. -/
def rawPermissions : Value F → Result (List (Value F))
  | .list items => .ok items
  | .dict entries => (entries.mapM rt.categoryPermissions).map List.flatten
  | _ => valueError "addon permissions must be an array or object"

def permissions (value : Value F) : Result (List String) := do
  let raw ← rt.rawPermissions value
  let named ← raw.mapM fun item => (rt.text item "permission" false).map rt.lower
  let unknown := (named.dedup.filter (· ∉ PERMISSIONS)).insertionSort fun first second => first ≤ second
  if unknown = [] then .ok (PERMISSIONS.filter (· ∈ named))
  else valueError ("unsupported addon permissions: " ++ rt.repr (.list (unknown.map .str)))

def relative (value : Value F) (name : String) : Result String := do
  let text ← rt.text value name false
  let text := text.toList.map fun char => if char = '\\' then '/' else char
  let parts := (splitSlash text).filter fun part => part ≠ [] ∧ part ≠ ['.']
  if text.head? = some '/' ∨ parts.contains ['.', '.'] ∨ parts = [] ∨ 512 < text.length then
    valueError ("unsafe " ++ name)
  else .ok (join "/" (parts.map String.ofList))

def normalizeCommon (value : Value F) : Result Manifest := do
  let schema ← if value.isDict then rt.int (getOr value "schemaVersion" (.int 1)) else .ok 0
  if schema ≠ 1 then valueError "unsupported addon manifest"
  else
    let id ← rt.text (value.get "id") "id" false
    if isId id = false then valueError "invalid addon id"
    else
      let type ← rt.text (value.get "type") "type" false
      if type ≠ "ui" then valueError "only UI addons are supported"
      else
        let name ← rt.text (value.get "name") "name" false
        let description ← rt.text (value.get "description") "description" true
        let author ← rt.text (value.get "author") "author" true
        let version ← rt.text (value.get "version") "version" false
        let permissions ← rt.permissions (rt.orElse (value.get "permissions") (.list []))
        .ok ⟨id, name, description, author, version, permissions⟩

/-- `normalize_manifest(value, remote=True)` -/
def normalizeRemote (value : Value F) : Result RemoteManifest := do
  let manifest ← rt.normalizeCommon value
  let sourceUrl ← rt.url (value.get "sourceUrl") "sourceUrl"
  let downloadUrl ← rt.url (value.get "downloadUrl") "downloadUrl"
  let sha256 ← (rt.text (value.get "sha256") "sha256" false).map rt.lower
  if isSha sha256 then .ok ⟨manifest, sourceUrl, downloadUrl, sha256⟩
  else valueError "invalid addon SHA-256"

/-- `normalize_manifest(value)` -/
def normalizeLocal (value : Value F) : Result LocalManifest := do
  let manifest ← rt.normalizeCommon value
  let entry : Value F := if (value.get "entry").isDict then value.get "entry" else .dict []
  let navigation ← rt.text (entry.get "navigation") "entry.navigation" true
  let path ← rt.relative (entry.get "path") "entry.path"
  .ok ⟨manifest, navigation, path⟩

structure Fetcher where
  text : String → Result String
  bytes : String → Result (List UInt8)

/-- The permissions that the remote manifest has where the index has none. -/
def complete (fetcher : Fetcher) (row : Summary) : Summary :=
  if row.permissions ≠ [] then row
  else
    match (do rt.normalizeRemote (← rt.loads (← fetcher.text row.manifestUrl))) with
    | .ok manifest =>
      if manifest.id = row.id then
        { row with permissions := manifest.permissions, sourceUrl := some manifest.sourceUrl }
      else row
    | .error _ => row

def summary (fetcher : Fetcher) (raw : Value F) (seen : List String) : Result Summary := do
  let id ← rt.text (raw.get "id") "id" false
  if isId id = false ∨ id ∈ seen then valueError "invalid or duplicate community addon id"
  else
    let name ← rt.text (raw.get "name") "name" false
    let description ← rt.text (raw.get "description") "description" true
    let author ← rt.text (raw.get "author") "author" true
    let version ← rt.text (raw.get "version") "version" false
    let manifestUrl ← rt.url (raw.get "manifestUrl") "manifestUrl"
    let lifecycle ← rt.text (rt.orElse (raw.get "lifecycle") (.str "active")) "lifecycle" false
    let lifecycleMessage ← rt.text
      (rt.orElse (raw.get "lifecycleMessage") (raw.get "lifecycleReason")) "lifecycleMessage" true
    let permissions ← rt.permissions (rt.orElse (raw.get "permissions") (.list []))
    .ok (rt.complete fetcher ⟨id, name, description, author, version, manifestUrl, lifecycle,
      lifecycleMessage, permissions, none⟩)

def summaries (fetcher : Fetcher) : List String → List (Value F) → Result (List Summary)
  | _, [] => .ok []
  | seen, raw :: rest => do
    let row ← rt.summary fetcher raw seen
    return row :: (← summaries fetcher (row.id :: seen) rest)

def fetchIndex (fetcher : Fetcher) (indexUrl : String) : Result (List Summary) := do
  let data ← rt.loads (← fetcher.text indexUrl)
  let schema ← if data.isDict then rt.int (getOr data "schemaVersion" (.int 0)) else .ok 0
  match data.get "addons" with
  | .list rows =>
    if schema ≠ 1 ∨ 200 < rows.length then valueError "invalid community addon index"
    else rt.summaries fetcher [] rows
  | _ => valueError "invalid community addon index"

end Platform

open Dash.Foundation Dash.Foundation.Program

structure Directory where
  files : List (String × String)
  archive : List UInt8
  remote : RemoteManifest
  approved : List String

/-- An addon's entry of `state.json`. -/
structure Saved where
  enabled : Bool
  approvedPermissions : List String
  lifecycle : Option String

/-- What `state.get(addon_id, {})` has without an entry. -/
def noEntry : Saved := ⟨false, [], none⟩

structure World where
  installed : List (String × Directory)
  recovery : List (String × Directory)
  staging : String → Option (List (String × String))
  state : String → Option Saved
  /-- Since the directory was put in place, the addon was enabled and not disabled again. -/
  standing : String → Bool

def empty : World := ⟨[], [], fun _ => none, fun _ => none, fun _ => false⟩

inductive Kind where
  | other
  | placing (id : String)
  | placed (id : String)

abbrev Work (α : Type) : Type := Program World Kind α

/-- A row of `list_installed`. -/
inductive Row where
  | valid (manifest : LocalManifest) (saved : Saved)
  | invalid (id : String)

def Row.id : Row → String
  | valid manifest _ => manifest.id
  | invalid id => id

structure InstallArgs (F : Type) where
  addonId : String
  approvedPermissions : Value F
  indexUrl : String
  fetcher : Platform.Fetcher

structure Prepared where
  summary : Summary
  remote : RemoteManifest
  approved : List String
  archive : List UInt8

def directory? (id : String) (world : World) : Option Directory :=
  (world.installed.find? fun entry => entry.1 = id).map Prod.snd

def withoutDirectory (id : String) (world : World) : List (String × Directory) :=
  world.installed.filter fun entry => entry.1 ≠ id

def stage (key : String) (files : Option (List (String × String))) (world : World) : World :=
  { world with staging := Function.update world.staging key files }

def extract (key : String) (entry : Entry) (world : World) : World :=
  stage key ((world.staging key).map fun files => files ++ [(entry.filename, entry.content)]) world

/-- `shutil.move(directory, recovery / …)` -/
def setAside (id : String) (world : World) : World :=
  { world with
    installed := withoutDirectory id world
    recovery := world.recovery ++ (directory? id world).toList.map fun directory => (id, directory) }

/-- `stage.replace(destination)` -/
def place (id key : String) (directory : Directory) (world : World) : World :=
  { world with
    installed := withoutDirectory id world ++ [(id, directory)]
    staging := Function.update world.staging key none
    standing := Function.update world.standing id false }

def writeState (state : String → Option Saved) (world : World) : World := { world with state := state }

def writeEnabled (id : String) (enabled : Bool) (state : String → Option Saved) (world : World) : World :=
  { world with
    state := state
    standing := Function.update world.standing id enabled }

/-- `_state`: a file that cannot be read is empty. -/
def readState (kind : Kind) : Work (String → Option Saved) :=
  attempt (look kind World.state) (done fun _ => none)

namespace Platform

variable (rt : Platform F)

def manifest? (directory : Directory) : Result LocalManifest :=
  match (directory.files.find? fun file => file.1 = "addon.json").map Prod.snd with
  | some text => do rt.normalizeLocal (← rt.loads text)
  | none => .error ⟨.runtimeError, "No such file or directory"⟩

def rowOf (world : World) (entry : String × Directory) : Row :=
  match rt.manifest? entry.2 with
  | .ok manifest => .valid manifest ((world.state manifest.id).getD noEntry)
  | .error _ => .invalid entry.1

def listInstalled (world : World) : List Row :=
  ((world.installed.filter fun entry => isId entry.1).insertionSort
    fun first second => first.1 ≤ second.1).map (rt.rowOf world)

def row? (world : World) (addonId : String) : Option Row :=
  (rt.listInstalled world).find? fun row => row.id = addonId

def enabledRow? (world : World) (addonId : String) : Option (LocalManifest × Saved) :=
  match rt.row? world addonId with
  | some (.valid manifest saved) => if saved.enabled then some (manifest, saved) else none
  | _ => none

/-- `content_path`: the file that is served. -/
def contentPath (world : World) (addonId path : String) : Option String :=
  match rt.enabledRow? world addonId, rt.relative (.str path) "content path" with
  | some _, .ok target =>
    (directory? addonId world).bind fun directory =>
      (directory.files.find? fun file => file.1 = target).map Prod.snd
  | _, _ => none

def assertPermission (world : World) (addonId permission : String) : Bool :=
  match rt.enabledRow? world addonId with
  | some (manifest, saved) =>
    permission ∈ manifest.permissions && permission ∈ saved.approvedPermissions && saved.lifecycle ≠ some "blocked"
  | none => false

/-- The checks of `install` before it writes. -/
def prepare (args : InstallArgs F) : Result Prepared := do
  let index ← rt.fetchIndex args.fetcher args.indexUrl
  match index.find? fun row => row.id = args.addonId with
  | none => valueError "community addon not found"
  | some summary =>
    if summary.lifecycle ∈ BLOCKED_LIFECYCLES then
      .error ⟨.permissionError, "addon lifecycle blocks installation: " ++ summary.lifecycle⟩
    else
      let remote ← rt.normalizeRemote (← rt.loads (← args.fetcher.text summary.manifestUrl))
      if remote.id ≠ summary.id ∨ remote.version ≠ summary.version then
        valueError "community index and manifest identity do not match"
      else
        let approved ← rt.permissions (rt.orElse args.approvedPermissions (.list []))
        if remote.permissions.all (· ∈ approved) = false then
          .error ⟨.permissionError, "permissions require explicit approval: " ++
            rt.repr (.list ((remote.permissions.filter (· ∉ approved)).map .str))⟩
        else
          let archive ← args.fetcher.bytes remote.downloadUrl
          if rt.sha256 archive ≠ remote.sha256 then
            valueError "addon archive SHA-256 does not match manifest"
          else .ok ⟨summary, remote, approved, archive⟩

def checkEntries (entries : List Entry) : Bool :=
  decide (entries ≠ [] ∧ entries.length ≤ 10000 ∧ (entries.map Entry.fileSize).sum ≤ 256 * 1024 * 1024) &&
  (match entries.mapM fun entry => rt.relative (.str entry.filename) "zip entry" with
    | .ok names => decide ("addon.json" ∈ names)
    | .error _ => false) &&
  entries.all fun entry => !entry.symlink

def checkStaged (remote : RemoteManifest) (directory : Directory) : Bool :=
  match rt.manifest? directory with
  | .ok manifest => manifest.id = remote.id && manifest.version = remote.version &&
      directory.files.any fun file => file.1 = manifest.path
  | .error _ => false

def stageKey (prepared : Prepared) : String :=
  prepared.remote.id ++ "-" ++ clip 12 (rt.sha256 prepared.archive)

/-- The writes of `install`. Temporary files and the directories around are part of the operation
that follows them. -/
def write (prepared : Prepared) : Work Unit :=
  let id := prepared.remote.id
  let key := rt.stageKey prepared
  andThen (act .other (stage key none)) fun _ =>
  andThen (act .other (stage key (some []))) fun _ =>
  andThen (require (rt.unzip prepared.archive).isSome) fun _ =>
  let entries := (rt.unzip prepared.archive).getD []
  andThen (require (rt.checkEntries entries)) fun _ =>
  andThen (each (fun entry => act .other (extract key entry)) entries) fun _ =>
  andThen (look .other fun world => (world.staging key).getD []) fun files =>
  let directory : Directory := ⟨files, prepared.archive, prepared.remote, prepared.approved⟩
  andThen (require (rt.checkStaged prepared.remote directory)) fun _ =>
  andThen (look .other fun world => (directory? id world).isSome) fun there =>
  andThen (if there then act .other (setAside id) else done ()) fun _ =>
  andThen (act (.placing id) (place id key directory)) fun _ =>
  andThen (readState (.placed id)) fun state =>
  act (.placed id) (writeState (Function.update state id
    (some ⟨false, prepared.approved, some prepared.summary.lifecycle⟩)))

def install (args : InstallArgs F) : Work Unit :=
  match rt.prepare args with
  | .ok prepared => rt.write prepared
  | .error _ => fail

/-- Whether `set_enabled` refuses. -/
def blocks (manifest : LocalManifest) (saved : Saved) : Bool :=
  (match saved.lifecycle with
    | some lifecycle => decide (lifecycle ∈ BLOCKED_LIFECYCLES)
    | none => false) ||
    !manifest.permissions.all (· ∈ saved.approvedPermissions)

def setEnabled (addonId : String) (enabled : Bool) : Work Unit :=
  andThen (look .other fun world => rt.row? world addonId) fun row =>
  match row with
  | some (.valid manifest _) =>
    andThen (readState .other) fun state =>
    let saved := (state addonId).getD noEntry
    andThen (require (!(enabled && blocks manifest saved))) fun _ =>
    act .other (writeEnabled addonId enabled
      (Function.update state addonId (some { saved with enabled := enabled })))
  | _ => fail

end Platform

def remove (addonId : String) : Work Unit :=
  andThen (require (isId addonId)) fun _ =>
  andThen (look .other fun world => (directory? addonId world).isSome) fun there =>
  andThen (require there) fun _ =>
  andThen (act .other (setAside addonId)) fun _ =>
  andThen (readState .other) fun state =>
  act .other (writeState (Function.update state addonId none))

inductive Call (F : Type) where
  | install (args : InstallArgs F)
  | setEnabled (addonId : String) (enabled : Bool)
  | remove (addonId : String)

namespace Platform

variable (rt : Platform F)

def program : Call F → Work Unit
  | .install args => rt.install args
  | .setEnabled addonId enabled => rt.setEnabled addonId enabled
  | .remove addonId => Addons.remove addonId

/-- The calls of a run, each with what happens at its operations: its moments and the world left. -/
def run : List (Call F × List Fault) → World → List (Moment World Kind) × World
  | [], world => ([], world)
  | (call, plan) :: rest, world =>
    let execution := rt.program call plan world
    let later := run rest execution.world
    (execution.trace ++ later.1, later.2)

theorem run_single (call : Call F) (plan : List Fault) (world : World) :
    (rt.run [(call, plan)] world).2 = (rt.program call plan world).world := rfl

theorem run_append (calls later : List (Call F × List Fault)) (world : World) :
    (rt.run (calls ++ later) world).2 = (rt.run later (rt.run calls world).2).2 := by
  induction calls generalizing world with
  | nil => rfl
  | cons call rest ih => exact ih _

end Platform

end Dash.Addons
