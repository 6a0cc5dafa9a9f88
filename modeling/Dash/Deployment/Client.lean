import Dash.Foundation.Faults

/-! Deployment of client files: install, adopt and rollback, over the files they touch.

A file is its bytes and its mode; the targets are files of one game directory under their relative
paths, with no links among them. The replacement of one file is one operation, and so is that of the
manifest; reads that belong to one check are one operation. A manifest is read as it was written.
Whether a client is running and whether another deployment owns a target is given with each call.
-/

set_option autoImplicit false

namespace Dash.Deployment

open Dash.Foundation

abbrev Bytes : Type := List UInt8

structure File where
  bytes : Bytes
  mode : Nat
  deriving DecidableEq

inductive Status where
  | prepared | installed | failedRolledBack | failedRollbackRequired | rolledBack
  deriving DecidableEq

/-- `original` of a file that existed. -/
structure Original where
  sha256 : String
  mode : Nat
  deriving DecidableEq

structure Row where
  (relativeTarget source installedSha256 : String)
  original : Option Original
  deriving DecidableEq

structure Manifest where
  status : Status
  gameExecutableSha256 : String
  files : List Row

structure Planned where
  (source relativeTarget sourceSha256 : String)
  currentSha256 : Option String
  deriving DecidableEq

structure Plan where
  gameExecutableSha256 : String
  files : List Planned

structure World where
  targets : String → Option File
  /-- The files outside of the game directory. -/
  sources : String → Option File
  executable : Option Bytes
  /-- The directory of the deployment exists. -/
  deploymentDir : Bool
  backups : String → Option Bytes
  manifest : Option Manifest
  /-- The list `installed` of a running install. -/
  installed : List Row

inductive Kind where
  | read | file | manifest

structure Platform where
  sha256 : Bytes → String
  /-- The relative path of a source inside of the game directory. -/
  inside : String → Option String
  /-- `plan_sha256` -/
  planSha256 : Plan → String

def FIXED_TARGETS : List String :=
  ["DuneSandbox/Binaries/Win64/version.dll", "DuneSandbox/Binaries/Win64/dune-win-client-probe.env",
    "DuneSandbox/Binaries/Win64/lua54.dll"]

def safeOverlay (name : List Char) : Bool :=
  let rest := name.drop 9
  let stem := rest.take (rest.length - 4)
  name.take 9 = "zzz_dash_".toList && !stem.isEmpty &&
    (rest.drop stem.length = ".pak".toList || rest.drop stem.length = ".sig".toList) &&
    stem.all fun char => char.isAlphanum || char = '_' || char = '.' || char = '-'

def allowedTarget (relative : String) : Bool :=
  let start := "DuneSandbox/Content/Paks/".toList
  relative ∈ FIXED_TARGETS || (relative.toList.take start.length = start &&
    safeOverlay (relative.toList.drop start.length))

/-- The arguments of a call that deploys, and what it finds around it. -/
structure Request where
  (confirmed validId clientRunning : Bool)
  /-- Another active deployment owns a target. -/
  collisions : Bool

structure InstallArgs extends Request where
  /-- Sources and relative targets. -/
  file : List (String × String)
  expectPlanSha256 : String

structure AdoptArgs extends Request where
  /-- Relative targets and the paths of their originals, if there were any. -/
  installed : List (String × Option String)

abbrev Work (α : Type) : Type := Program World Kind α

namespace Platform

open Program

variable (pl : Platform)

def shaOf (file : Option File) : Option String := file.map fun file => pl.sha256 file.bytes

def fileAt (world : World) (path : String) : Option File :=
  match pl.inside path with
  | some relative => world.targets relative
  | none => world.sources path

def planRow (world : World) (entry : String × String) : Option Planned :=
  match pl.fileAt world entry.1 with
  | none => none
  | some source =>
    if allowedTarget entry.2 then
      some ⟨entry.1, entry.2, pl.sha256 source.bytes, pl.shaOf (world.targets entry.2)⟩
    else none

/-- `build_plan`; `none` raises. -/
def buildPlan (args : InstallArgs) (world : World) : Option Plan :=
  match world.executable, args.file.mapM (pl.planRow world) with
  | some executable, some rows =>
    if args.validId && !rows.isEmpty && decide ((rows.map Planned.relativeTarget).Nodup) then
      some ⟨pl.sha256 executable, rows⟩
    else none
  | _, _ => none

def copyTarget (relative : String) (file : File) (world : World) : World :=
  { world with targets := Function.update world.targets relative (some file) }

def copyBackup (relative : String) (bytes : Bytes) (world : World) : World :=
  { world with backups := Function.update world.backups relative (some bytes) }

def writeManifest (manifest : Manifest) (world : World) : World :=
  { world with manifest := some manifest }

/-- `verify_backups`: every backup has its checksum. -/
def verifyBackups (rows : List Row) (world : World) : Bool :=
  rows.all fun row =>
    match row.original with
    | some original =>
      decide ((world.backups row.relativeTarget).map pl.sha256 = some original.sha256)
    | none => true

/-- What `rollback_rows` does with one target. -/
def restore (row : Row) (world : World) : World :=
  match row.original with
  | some original =>
    match world.backups row.relativeTarget with
    | some bytes => copyTarget row.relativeTarget ⟨bytes, original.mode⟩ world
    | none => world
  | none => { world with targets := Function.update world.targets row.relativeTarget none }

def rollbackRows (rows : List Row) : Work Unit :=
  andThen (look .read (pl.verifyBackups rows)) fun healthy =>
  andThen (require healthy) fun _ =>
  each (fun row => act .file (restore row)) rows.reverse

/-- One file of the first loop of `install`: the backup of its target. -/
def backUp (planned : Planned) : Work Row :=
  andThen (look .read fun world => (pl.shaOf (pl.fileAt world planned.source),
    world.targets planned.relativeTarget)) fun seen =>
  andThen (require (decide (seen.1 = some planned.sourceSha256) &&
    decide (pl.shaOf seen.2 = planned.currentSha256))) fun _ =>
  match seen.2 with
  | none => done ⟨planned.relativeTarget, planned.source, planned.sourceSha256, none⟩
  | some current =>
    andThen (act .file (copyBackup planned.relativeTarget current.bytes)) fun _ =>
    andThen (look .read fun world => (world.backups planned.relativeTarget).map pl.sha256) fun actual =>
    andThen (require (decide (actual = some (pl.sha256 current.bytes)))) fun _ =>
    done ⟨planned.relativeTarget, planned.source, planned.sourceSha256,
      some ⟨pl.sha256 current.bytes, current.mode⟩⟩

def removeDeployment (world : World) : World :=
  { world with deploymentDir := false, backups := fun _ => none }

/-- One file of the second loop of `install`. -/
def put (row : Row) : Work Unit :=
  andThen (look .read fun world => pl.fileAt world row.source) fun source =>
  match source with
  | none => fail
  | some source =>
    andThen (require (decide (pl.sha256 source.bytes = row.installedSha256))) fun _ =>
    andThen (note fun world => { world with installed := world.installed ++ [row] }) fun _ =>
    andThen (act .file (copyTarget row.relativeTarget ⟨source.bytes, 0o644⟩)) fun _ =>
    andThen (look .read fun world => pl.shaOf (world.targets row.relativeTarget)) fun actual =>
    require (decide (actual = some row.installedSha256))

/-- What `install` does when a file could not be put in place. -/
def recoverInstall (manifest : Manifest) : Work Unit :=
  andThen (recollect World.installed) fun installed =>
  andThen (attempt (pl.rollbackRows installed)
    (andThen (act .manifest (writeManifest { manifest with status := .failedRollbackRequired }))
      fun _ => fail)) fun _ =>
  andThen (act .manifest (writeManifest { manifest with status := .failedRolledBack })) fun _ => fail

def install (args : InstallArgs) : Work Unit :=
  andThen (require (args.confirmed && !args.clientRunning)) fun _ =>
  andThen (look .read (pl.buildPlan args)) fun reviewed =>
  andThen (require (decide (reviewed.map pl.planSha256 = some args.expectPlanSha256))) fun _ =>
  andThen (look .read fun world => (world.deploymentDir, pl.buildPlan args world)) fun seen =>
  match seen.2 with
  | none => fail
  | some plan =>
    andThen (require (!seen.1 && decide (pl.planSha256 plan = args.expectPlanSha256) && !args.collisions)) fun _ =>
    andThen (act .file fun world => { world with deploymentDir := true }) fun _ =>
    andThen (attempt (collect pl.backUp [] plan.files)
      (andThen (act .file removeDeployment) fun _ => fail)) fun rows =>
    andThen (act .manifest (writeManifest ⟨.prepared, plan.gameExecutableSha256, rows⟩)) fun _ =>
    andThen (note fun world => { world with installed := [] }) fun _ =>
    attempt (andThen (each pl.put rows) fun _ =>
        act .manifest (writeManifest ⟨.installed, plan.gameExecutableSha256, rows⟩))
      (pl.recoverInstall ⟨.prepared, plan.gameExecutableSha256, rows⟩)

/-- What `adopt` has read of a target before it takes the lock. -/
structure Adopted where
  relativeTarget : String
  original : Option String
  installedSha256 : String
  originalFile : Option File

def adoptedRow (world : World) (entry : String × Option String) : Option Adopted :=
  match world.targets entry.1 with
  | none => none
  | some target =>
    if allowedTarget entry.1 then
      match entry.2 with
      | none => some ⟨entry.1, none, pl.sha256 target.bytes, none⟩
      | some path =>
        (pl.fileAt world path).map fun file =>
          ⟨entry.1, some path, pl.sha256 target.bytes, some file⟩
    else none

/-- The rows of `adopt` and the checksum of the executable; `none` raises. -/
def adoptedRows (args : AdoptArgs) (world : World) : Option (String × List Adopted) :=
  match world.executable, args.installed.mapM (pl.adoptedRow world) with
  | some executable, some rows =>
    if args.validId && !rows.isEmpty && decide ((rows.map Adopted.relativeTarget).Nodup) then
      some (pl.sha256 executable, rows)
    else none
  | _, _ => none

/-- One file of the loop of `adopt`. -/
def keepOriginal (row : Adopted) : Work Row :=
  andThen (look .read fun world => (pl.shaOf (world.targets row.relativeTarget),
    row.original.bind (pl.fileAt world))) fun seen =>
  andThen (require (decide (seen.1 = some row.installedSha256))) fun _ =>
  match row.original, row.originalFile with
  | some _, some original =>
    match seen.2 with
    | none => fail
    | some current =>
      andThen (require (decide (pl.sha256 current.bytes = pl.sha256 original.bytes))) fun _ =>
      andThen (act .file (copyBackup row.relativeTarget current.bytes)) fun _ =>
      andThen (look .read fun world => (world.backups row.relativeTarget).map pl.sha256) fun actual =>
      andThen (require (decide (actual = some (pl.sha256 original.bytes)))) fun _ =>
      done ⟨row.relativeTarget, "<adopted-current>", row.installedSha256,
        some ⟨pl.sha256 original.bytes, original.mode⟩⟩
  | _, _ => done ⟨row.relativeTarget, "<adopted-current>", row.installedSha256, none⟩

def adopt (args : AdoptArgs) : Work Unit :=
  andThen (require (args.confirmed && !args.clientRunning)) fun _ =>
  andThen (look .read fun world => (world.deploymentDir, pl.adoptedRows args world)) fun seen =>
  match seen.2 with
  | none => fail
  | some (executable, rows) =>
    andThen (require (!seen.1 && !args.collisions)) fun _ =>
    andThen (act .file fun world => { world with deploymentDir := true }) fun _ =>
    andThen (attempt (collect pl.keepOriginal [] rows)
      (andThen (act .file removeDeployment) fun _ => fail)) fun files =>
    act .manifest (writeManifest ⟨.installed, executable, files⟩)

/-- `verify_manifest`: the targets are as they were installed. -/
def verifyManifest (manifest : Manifest) (world : World) : Bool :=
  decide (manifest.status = .installed) &&
    decide (world.executable.map pl.sha256 = some manifest.gameExecutableSha256) &&
    (manifest.files.all fun row =>
      decide (pl.shaOf (world.targets row.relativeTarget) = some row.installedSha256)) &&
    pl.verifyBackups manifest.files world

/-- `verify_recoverable_rollback`: the targets are as installed or as before. -/
def verifyRecoverableRollback (manifest : Manifest) (world : World) : Bool :=
  decide (world.executable.map pl.sha256 = some manifest.gameExecutableSha256) && (manifest.files.all fun row =>
      decide (pl.shaOf (world.targets row.relativeTarget) = some row.installedSha256 ∨
        pl.shaOf (world.targets row.relativeTarget) = row.original.map Original.sha256)) &&
    pl.verifyBackups manifest.files world

def recovering (status : Status) : Bool :=
  status = .prepared || status = .failedRollbackRequired

def verifyRestored (rows : List Row) (world : World) : Bool :=
  rows.all fun row =>
    decide (pl.shaOf (world.targets row.relativeTarget) = row.original.map Original.sha256)

def rollback (confirmed clientRunning : Bool) : Work Unit :=
  andThen (require (confirmed && !clientRunning)) fun _ =>
  andThen (look .read World.manifest) fun found =>
  match found with
  | none => fail
  | some manifest =>
    andThen (require (decide (manifest.status = .installed) || recovering manifest.status)) fun _ =>
    andThen (look .read fun world =>
      if recovering manifest.status then pl.verifyRecoverableRollback manifest world
      else pl.verifyManifest manifest world) fun checked =>
    andThen (require checked) fun _ =>
    andThen (attempt (andThen (pl.rollbackRows manifest.files) fun _ =>
        andThen (look .read (pl.verifyRestored manifest.files)) fun restored => require restored)
      (andThen (act .manifest (writeManifest { manifest with status := .failedRollbackRequired }))
        fun _ => fail)) fun _ =>
    act .manifest (writeManifest { manifest with status := .rolledBack })

end Platform

end Dash.Deployment
