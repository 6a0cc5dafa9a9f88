import Dash.Deployment.Calls
import Mathlib.Data.List.Sort

/-! Several deployments under one state root.

Files of the games are found by game directory and relative path: every allowed target has four
parts, so two game directories never share one. A call sees its own deployment and its game; which
targets others own it reads from their manifests. Calls hold the lock of the state root, so they come
one after the other, and each may fail or be killed at any of its operations.
-/

set_option autoImplicit false

namespace Dash.Deployment

open Dash.Foundation Dash.Foundation.Program

/-- The directory of one deployment; `gameRoot` belongs to the manifest. -/
structure Entry where
  gameRoot : String
  backups : String → Option Bytes
  manifest : Option Manifest

structure StateRoot where
  targets : String → String → Option File
  /-- The files outside of the game directories, which the calls only read. -/
  sources : String → Option File
  executables : String → Option Bytes
  /-- The deployments that have a directory. -/
  listing : List String
  deployments : String → Entry

structure Host where
  sha256 : Bytes → String
  /-- The game directory of a path, and the relative path in it. -/
  located : String → Option (String × String)
  /-- `plan_sha256` of a deployment, a game directory, the collisions and the rest of the plan. -/
  planSha256 : String → String → List (String × String) → Plan → String

inductive Command where
  | install (deployment gameRoot : String) (args : InstallArgs)
  | adopt (deployment gameRoot : String) (args : AdoptArgs)
  | rollback (deployment : String) (confirmed clientRunning : Bool)

def Command.deployment : Command → String
  | .install deployment _ _ | .adopt deployment _ _ | .rollback deployment _ _ => deployment

/-- The game directory a call works on; `rollback` takes that of the manifest. -/
def Command.gameRoot (state : StateRoot) : Command → String
  | .install _ gameRoot _ | .adopt _ gameRoot _ => gameRoot
  | .rollback deployment _ _ => (state.deployments deployment).gameRoot

def Manifest.targets (manifest : Manifest) : List String := manifest.files.map Row.relativeTarget

namespace Host

variable (host : Host)

def overlap (deployment gameRoot : String) (targets : List String) (other : String) (entry : Entry) :
    List (String × String) :=
  match entry.manifest with
  | none => []
  | some manifest =>
    if other ≠ deployment ∧ manifest.status = .installed ∧ entry.gameRoot = gameRoot then
      ((targets.filter fun target => decide (target ∈ manifest.targets)).insertionSort
        (· ≤ ·)).map fun target => (other, target)
    else []

def activeCollisions (state : StateRoot) (deployment gameRoot : String) (targets : List String) :
    List (String × String) :=
  state.listing.flatMap fun other =>
    overlap deployment gameRoot targets other (state.deployments other)

def platform (deployment gameRoot : String) (collisions : List (String × String)) : Platform where
  sha256 := host.sha256
  inside path :=
    match host.located path with
    | some (root, relative) => if root = gameRoot then some relative else none
    | none => none
  planSha256 := host.planSha256 deployment gameRoot collisions

/-- What a call sees of the state root. -/
def view (state : StateRoot) (deployment gameRoot : String) : World where
  targets := state.targets gameRoot
  sources path :=
    match host.located path with
    | some (root, relative) => state.targets root relative
    | none => state.sources path
  executable := state.executables gameRoot
  deploymentDir := decide (deployment ∈ state.listing)
  backups := (state.deployments deployment).backups
  manifest := (state.deployments deployment).manifest
  installed := []

def keep (state : StateRoot) (deployment gameRoot : String) (world : World) : StateRoot where
  targets := Function.update state.targets gameRoot world.targets
  sources := state.sources
  executables := Function.update state.executables gameRoot world.executable
  listing := state.listing.filter (fun other => decide (other ≠ deployment)) ++
    if world.deploymentDir then [deployment] else []
  deployments := Function.update state.deployments deployment
    { gameRoot :=
        if (state.deployments deployment).manifest.isSome then
          (state.deployments deployment).gameRoot
        else gameRoot
      backups := world.backups
      manifest := world.manifest }

def installArgs (state : StateRoot) (deployment gameRoot : String) (args : InstallArgs) : InstallArgs :=
  { args with collisions :=
      !(activeCollisions state deployment gameRoot (args.file.map Prod.snd)).isEmpty }

def adoptArgs (state : StateRoot) (deployment gameRoot : String) (args : AdoptArgs) : AdoptArgs :=
  { args with collisions :=
      !(activeCollisions state deployment gameRoot (args.installed.map Prod.fst)).isEmpty }

def installPlatform (state : StateRoot) (deployment gameRoot : String) (args : InstallArgs) : Platform :=
  host.platform deployment gameRoot (activeCollisions state deployment gameRoot (args.file.map Prod.snd))

def program (state : StateRoot) : Command → Work Unit
  | .install deployment gameRoot args =>
    (host.installPlatform state deployment gameRoot args).install (installArgs state deployment gameRoot args)
  | .adopt deployment gameRoot args =>
    (host.platform deployment gameRoot []).adopt (adoptArgs state deployment gameRoot args)
  | .rollback deployment confirmed clientRunning =>
    (host.platform deployment (state.deployments deployment).gameRoot []).rollback confirmed clientRunning

def perform (state : StateRoot) (command : Command) (plan : List Fault) : Execution World Kind Unit :=
  host.program state command plan (host.view state command.deployment (command.gameRoot state))

def step (state : StateRoot) (command : Command) (plan : List Fault) : StateRoot :=
  keep state command.deployment (command.gameRoot state) (host.perform state command plan).world

end Host

structure History where
  state : StateRoot
  /-- The deployments that were left after an operation on them failed or was killed. -/
  interrupted : List String

def disturbed (trace : List (Moment World Kind)) : Bool :=
  trace.any fun moment => decide (moment.fault ≠ .proceeds)

def History.next (host : Host) (history : History) (call : Command × List Fault) : History where
  state := host.step history.state call.1 call.2
  interrupted :=
    let execution := host.perform history.state call.1 call.2
    if execution.world.manifest.isSome && disturbed execution.trace then
      call.1.deployment :: history.interrupted
    else history.interrupted

def Host.run (host : Host) (calls : List (Command × List Fault)) (history : History) : History :=
  calls.foldl (History.next host) history

def StateRoot.Vacant (state : StateRoot) : Prop :=
  state.listing = [] ∧ ∀ deployment, (state.deployments deployment).manifest = none

/-- A manifest that says installed passes `verify_manifest`. -/
def Platform.Verified (pl : Platform) (world : World) : Prop :=
  ∀ manifest, world.manifest = some manifest → manifest.status = .installed →
    pl.verifyManifest manifest world = true

structure Apart (host : Host) (history : History) : Prop where
  healthy : ∀ deployment, deployment ∉ history.interrupted →
    let entry := history.state.deployments deployment
    (host.platform deployment entry.gameRoot []).Verified (host.view history.state deployment entry.gameRoot)
  disjoint : ∀ one two first second, one ≠ two → (history.state.deployments one).manifest = some first →
    (history.state.deployments two).manifest = some second →
    ¬ Platform.settled first.status → ¬ Platform.settled second.status →
    (history.state.deployments one).gameRoot = (history.state.deployments two).gameRoot →
    ∀ target ∈ first.targets, target ∉ second.targets

def Unfinished (state : StateRoot) (deployment gameRoot : String) (targets : List String) : Prop :=
  ∃ other manifest, other ≠ deployment ∧ (state.deployments other).manifest = some manifest ∧
    Platform.recovering manifest.status = true ∧ (state.deployments other).gameRoot = gameRoot ∧
    ∃ target ∈ targets, target ∈ manifest.targets

/-- No install or adoption that its checks let begin meets an unfinished deployment. -/
def Clear (host : Host) (state : StateRoot) : Command → Prop
  | .install deployment gameRoot args =>
    (host.installPlatform state deployment gameRoot args).Admits
      (Host.installArgs state deployment gameRoot args) (host.view state deployment gameRoot) →
    ¬ Unfinished state deployment gameRoot (args.file.map Prod.snd)
  | .adopt deployment gameRoot args =>
    (host.platform deployment gameRoot []).AdmitsAdoption
      (Host.adoptArgs state deployment gameRoot args) (host.view state deployment gameRoot) →
    ¬ Unfinished state deployment gameRoot (args.installed.map Prod.fst)
  | .rollback _ _ _ => True

def Cleared (host : Host) : List (Command × List Fault) → History → Prop
  | [], _ => True
  | call :: rest, history =>
    Clear host history.state call.1 ∧ Cleared host rest (history.next host call)

end Dash.Deployment
