import Dash.Foundation.Effectful
import Dash.Python.Text

/-! The restore of a backup set by the panel: the writers are stopped, a backup is made, the database
and the requested layers are replaced, and the writers are started again.

A set holds its dumps and archives under their file names. What the containers, the disk and
`pg_restore` answer is given; an archive's members are data of the set.
-/

set_option autoImplicit false

namespace Dash.Restore

open Foundation Python

inductive MemberKind where
  | regular | directory | symlink | hardlink | device
  deriving DecidableEq, Repr

structure Member where
  name : String
  kind : MemberKind
  size : Int
  content : String

/-- An archive as `tarfile` reads it: its members, unless it cannot be read, and why the extraction
refuses them, where it does. -/
structure Archive where
  members : Except String (List Member)
  refused : Option String := none

inductive Entry where
  | directory
  | file (content : String)
  deriving DecidableEq, Repr

def Tree : Type := List String → Option Entry

def Tree.isDirectory (tree : Tree) (path : List String) : Bool :=
  match tree path with
  | some .directory => true
  | _ => path = []

def Tree.below (tree : Tree) (path : List String) : Tree := fun rest => tree (path ++ rest)

def Tree.graft (tree : Tree) (name : String) (source : Tree) : Tree
  | first :: rest => if first = name then if rest = [] then some .directory else source rest
      else tree (first :: rest)
  | [] => tree []

inductive Destination where
  | serverSaved | rabbitmq | rabbitmqAdmin | rabbitmqGame | config | tls
  deriving DecidableEq, Repr

structure Container where
  (id service : String)
  running : Bool
  deriving DecidableEq

inductive StopOutcome where
  | done
  | raisesBefore (error : String)
  | raisesAfter (error : String)
  deriving DecidableEq

structure Layers where
  serverSaved : Bool := false
  rabbitmq : Bool := false
  config : Bool := false
  tls : Bool := false

structure BackupSet (δ : Type) where
  dumps : List (String × δ)
  archive : String → Option Archive
  verified : Except String Bool

structure Answers (δ : Type) where
  online : Except String Int
  containers : Except String (List Container)
  stop : String → StopOutcome
  start : String → Except String Unit
  staging : Except String Unit
  preRestore : Except String String
  /-- a `pg_restore` that fails leaves some database behind -/
  postgres : Except (String × δ) Unit
  extraction : String → Except String Unit
  /-- a replacement that fails leaves some tree behind -/
  replacement : Destination → Except (String × Tree) Unit
  environment : Except String Unit
  /-- the text of a file's bytes, where they are UTF-8 -/
  decoded : String → Except String String
  /-- `restart-target.sh` for the services it knows -/
  restartSafe : String → Bool
  hooks : Except String Bool

structure Site (δ : Type) where
  database : δ
  (serverSaved rabbitmq config : Tree)
  environment : Option String
  stopped : List String := []
  started : List String := []

structure Failure where
  message : String
  content : Bool

variable {δ : Type}

abbrev Restoring (δ α : Type) : Type := Effectful (Site δ) Failure α

def refuse {α : Type} (message : String) : Restoring δ α := Effectful.raise ⟨message, true⟩

def outside {α : Type} (outcome : Except String α) : Restoring δ α :=
  Effectful.lift (outcome.mapError fun message => ⟨message, false⟩)

inductive Rabbitmq where
  | combined (archive : String × Archive)
  | legacy (admin game : String × Archive)

structure Artifacts (δ : Type) where
  postgres : String × δ
  serverSaved : Option (String × Archive) := none
  rabbitmq : Option Rabbitmq := none
  config : Option (String × Archive) := none
  tls : Option (String × Archive) := none
  tlsFromConfig : Option (String × Archive) := none

def BackupSet.find (set : BackupSet δ) (name : String) : Option (String × Archive) :=
  (set.archive name).map fun archive => (name, archive)

def rabbitmqArtifact (set : BackupSet δ) : Except String Rabbitmq :=
  match set.find "rabbitmq.tgz", set.find "rabbitmq-admin.tgz", set.find "rabbitmq-game.tgz" with
  | some combined, _, _ => .ok (.combined combined)
  | none, some admin, some game => .ok (.legacy admin game)
  | _, _, _ => .error "selected backup has neither rabbitmq.tgz nor both legacy RabbitMQ archives"

def restoreBackupArtifacts (set : BackupSet δ) (layers : Layers) : Except String (Artifacts δ) := do
  let [dump] := set.dumps
    | throw ("backup must contain exactly one postgres-*.dump or .dump.gz file; found "
        ++ toString set.dumps.length)
  let serverSaved := set.find "server-saved.tgz"
  if layers.serverSaved && serverSaved.isNone then throw "selected backup has no server-saved.tgz"
  let rabbitmq ← if layers.rabbitmq then (rabbitmqArtifact set).map some else pure none
  let configArchive := (set.find "config-and-env.tgz").or (set.find "config.tgz")
  if layers.config && configArchive.isNone then throw "selected backup has no config archive"
  let tls := set.find "config-tls.tgz"
  if layers.tls && tls.isNone && configArchive.isNone then
    throw "selected backup has no TLS or config archive"
  return {
    postgres := dump
    serverSaved := if layers.serverSaved then serverSaved else none
    rabbitmq := rabbitmq
    config := if layers.config then configArchive else none
    tls := if layers.tls then tls else none
    tlsFromConfig := if layers.tls && tls.isNone then configArchive else none }

/-- `PurePosixPath(name).parts` without the root -/
def parts (name : String) : List String :=
  (name.splitOn "/").filter fun part => part ≠ "" && part ≠ "."

def unsafeMember (member : Member) : Bool :=
  startsWith "/" member.name || ".." ∈ parts member.name ||
    member.kind = .symlink || member.kind = .hardlink || member.kind = .device

def expandedBound : Int := 8 * 1024 * 1024 * 1024

def checkMembers (name : String) : List Member → Int → Except String Int
  | [], expanded => .ok expanded
  | member :: rest, expanded =>
    if unsafeMember member then .error ("restore archive " ++ name ++ " contains an unsafe member")
    else
      let expanded := expanded + max 0 member.size
      if expanded > expandedBound then .error ("restore archive " ++ name ++ " expands beyond 8 GiB")
      else checkMembers name rest expanded

/-- What is wrong with an archive itself, or the members to extract. -/
def Archive.check (archive : Archive) (name : String) : Except String (List Member) := do
  let members ← archive.members
  if members = [] ∨ members.length > 100000 then
    throw ("restore archive " ++ name ++ " has an invalid member count")
  let _ ← checkMembers name members 0
  match archive.refused with
  | some error => throw error
  | none => return members

def extracted (members : List Member) : Tree := fun path =>
  match members.reverse.find? fun member => parts member.name = path with
  | some member => some (if member.kind = .directory then .directory else .file member.content)
  | none =>
    if members.any fun member => path.isPrefixOf (parts member.name) then some .directory else none

def safeExtractRestoreArchive (answers : Answers δ) (artifact : String × Archive) : Restoring δ Tree :=
  match artifact.2.check artifact.1 with
  | .error error => refuse error
  | .ok members => do
    outside (answers.extraction artifact.1)
    return extracted members

def Site.replace (site : Site δ) (destination : Destination) (source : Tree) : Site δ :=
  match destination with
  | .serverSaved => { site with serverSaved := source }
  | .rabbitmq => { site with rabbitmq := source }
  | .rabbitmqAdmin => { site with rabbitmq := site.rabbitmq.graft "admin" source }
  | .rabbitmqGame => { site with rabbitmq := site.rabbitmq.graft "game" source }
  | .config => { site with config := source }
  | .tls => { site with config := site.config.graft "tls" source }

def replaceDirectoryContents (answers : Answers δ) (source : Tree) (destination : Destination) :
    Restoring δ Unit :=
  match answers.replacement destination with
  | .ok _ => Effectful.modify fun site => site.replace destination source
  | .error (error, left) => do
    Effectful.modify fun site => site.replace destination left
    Effectful.raise ⟨error, false⟩

def setsKey (key line : String) : Bool := startsWith (key ++ "=") line

/-- `re.sub` of a key's lines by a replacement, or the replacement behind the text. -/
def preserve (key value text : String) : String :=
  if value = "" then text
  else
    let lines := text.splitOn "\n"
    if lines.any (setsKey key) then
      join "\n" (lines.map fun line => if setsKey key line then key ++ "=" ++ value else line)
    else (String.ofList (text.toList.rdropWhile isSpace)) ++ "\n" ++ key ++ "=" ++ value ++ "\n"

/-- `env_file_value` -/
def environmentValue (environment : Option String) (key : String) : String :=
  let quote (char : Char) : Bool := char = '"' || char = '\''
  match ((environment.getD "").splitOn "\n").find? fun line =>
      !startsWith "#" (String.ofList (line.toList.dropWhile isSpace)) && line.toList.contains '=' &&
        strip (before '=' line) = key with
  | some line =>
    let value := strip (String.ofList ((line.toList.dropWhile fun char => char ≠ '=').drop 1))
    String.ofList ((value.toList.dropWhile quote).rdropWhile quote)
  | none => ""

def restoreEnvPreservingDatabasePassword (answers : Answers δ) (stage : Tree) : Restoring δ Unit :=
  match stage [".env"] with
  | some (.file bytes) => do
    let preserved ← Effectful.look fun site =>
      ["POSTGRES_DUNE_PASSWORD", "DUNE_ADMIN_DB_PASSWORD"].map fun key =>
        (key, environmentValue site.environment key)
    let content ← Effectful.lift ((answers.decoded bytes).mapError fun error => ⟨error, true⟩)
    outside answers.environment
    let content := preserved.foldl (fun text pair => preserve pair.1 pair.2 text) content
    Effectful.modify fun site => { site with
      environment := some (String.ofList (content.toList.rdropWhile isSpace) ++ "\n") }
  | _ => return ()

def restorePostgresDump (answers : Answers δ) (dump : δ) : Restoring δ Unit :=
  match answers.postgres with
  | .ok _ => Effectful.modify fun site => { site with database := dump }
  | .error (error, left) => do
    Effectful.modify fun site => { site with database := left }
    Effectful.raise ⟨error, false⟩

def Container.writes (container : Container) : Bool :=
  container.running && container.service ∉ ["postgres", "admin-panel", "admin-panel-ingress"]

def stopContainers (answers : Answers δ) (stopped : List Container) : List Container → Restoring δ (List Container)
  | [] => return stopped
  | container :: rest =>
    if !container.writes then stopContainers answers stopped rest
    else
      match answers.stop container.id with
      | .raisesBefore error => Effectful.raise ⟨error, false⟩
      | .raisesAfter error => do
        Effectful.modify fun site => { site with stopped := site.stopped ++ [container.id] }
        Effectful.raise ⟨error, false⟩
      | .done => do
        Effectful.modify fun site => { site with stopped := site.stopped ++ [container.id] }
        stopContainers answers (stopped ++ [container]) rest

def stopRestoreWriters (answers : Answers δ) : Restoring δ (List Container) := do
  let containers ← outside answers.containers
  stopContainers answers [] containers

def priority (service : String) : Nat :=
  (List.lookup service [("admin-rmq", 0), ("game-rmq", 0), ("rmq-auth-shim", 1), ("text-router", 2),
    ("gateway", 3), ("director", 4)]).getD 10

def startsEarlier (first second : Container) : Bool :=
  priority first.service < priority second.service ||
    (priority first.service = priority second.service && first.service ≤ second.service)

structure StartResult where
  ok : Bool
  service : String
  error : Option String := none

def startContainers (answers : Answers δ) : List Container → Restoring δ (List StartResult)
  | [] => return []
  | container :: rest => do
    Effectful.modify fun site => { site with started := site.started ++ [container.id] }
    let result : StartResult :=
      match answers.start container.id with
      | .ok _ => { ok := true, service := container.service }
      | .error error => { ok := false, service := container.service, error := some error }
    let others ← startContainers answers rest
    return result :: others

def startRestoreWriters (answers : Answers δ) (stopped : List Container) : Restoring δ (List StartResult) := do
  let results ← startContainers answers (stopped.mergeSort startsEarlier)
  if stopped.any fun container => answers.restartSafe container.service then do
    let ok ← outside answers.hooks
    return results ++ [{ ok := ok, service := "restart-target-post-hooks" }]
  else return results

def restoreServerSaved (answers : Answers δ) (artifact : String × Archive) : Restoring δ Unit := do
  let stage ← safeExtractRestoreArchive answers artifact
  let source := if stage.isDirectory ["server-saved"] then stage.below ["server-saved"] else stage
  replaceDirectoryContents answers source .serverSaved

def restoreRabbitmq (answers : Answers δ) : Rabbitmq → Restoring δ Unit
  | .combined artifact => do
    let stage ← safeExtractRestoreArchive answers artifact
    let source := if stage.isDirectory ["rabbitmq"] then stage.below ["rabbitmq"] else stage
    replaceDirectoryContents answers source .rabbitmq
  | .legacy admin game => do
    let adminStage ← safeExtractRestoreArchive answers admin
    replaceDirectoryContents answers adminStage .rabbitmqAdmin
    let gameStage ← safeExtractRestoreArchive answers game
    replaceDirectoryContents answers gameStage .rabbitmqGame

def restoreConfig (answers : Answers δ) (stage : Tree) : Restoring δ Unit := do
  let source := if stage.isDirectory ["config"] then stage.below ["config"] else stage
  replaceDirectoryContents answers source .config
  restoreEnvPreservingDatabasePassword answers stage

/-- The directory of a stage that holds `config/tls`. -/
def tlsSource (stage : Tree) (paths : List (List String)) : Option Tree :=
  (paths.find? fun path => stage.isDirectory path).map fun path => stage.below path

/-- The directory to restore `config/tls` from: of its own archive, or of the config archive. -/
def findTls (answers : Answers δ) (tls : Option (String × Archive)) (configStage : Option Tree) :
    Restoring δ (Option Tree) :=
  match tls with
  | some artifact => do
    let stage ← safeExtractRestoreArchive answers artifact
    return tlsSource stage [["config", "tls"], ["tls"], []]
  | none => return configStage.bind fun stage => tlsSource stage [["config", "tls"]]

def replaceTls (answers : Answers δ) : Option Tree → Restoring δ Unit
  | none => refuse "selected archive does not contain a config/tls directory"
  | some source => replaceDirectoryContents answers source .tls

def restoreTls (answers : Answers δ) (tls : Option (String × Archive)) (configStage : Option Tree) :
    Restoring δ Unit := do
  let source ← findTls answers tls configStage
  replaceTls answers source

def optionally {α : Type} (part : α → Restoring δ Unit) : Option α → Restoring δ Unit
  | some artifact => part artifact
  | none => return ()

def extractConfig (answers : Answers δ) : Option (String × Archive) → Restoring δ (Option Tree)
  | some artifact => do
    let stage ← safeExtractRestoreArchive answers artifact
    return some stage
  | none => return none

def restoreSelectedFileLayers (answers : Answers δ) (artifacts : Artifacts δ) (layers : Layers) :
    Restoring δ Unit := do
  optionally (restoreServerSaved answers) artifacts.serverSaved
  optionally (restoreRabbitmq answers) artifacts.rabbitmq
  let configStage ← extractConfig answers (artifacts.config.or artifacts.tlsFromConfig)
  optionally (restoreConfig answers) (if layers.config then configStage else none)
  if layers.tls && !layers.config then restoreTls answers artifacts.tls configStage
  else return ()

def restoreData (answers : Answers δ) (artifacts : Artifacts δ) (layers : Layers) :
    Restoring δ String := do
  let recovery ← outside answers.preRestore
  restorePostgresDump answers artifacts.postgres.2
  restoreSelectedFileLayers answers artifacts layers
  return recovery

def guarded (answers : Answers δ) (stopped : List Container) (block : Restoring δ String) :
    Restoring δ Unit := fun site =>
  match block site with
  | (.error failure, after) =>
    match startRestoreWriters answers stopped after with
    | (.ok _, last) =>
      (.error ⟨"restore failed; writers were restarted; error=" ++ failure.message, failure.content⟩, last)
    -- raised while the failure is handled: the failure is what the call raises for
    | (.error error, last) => (.error ⟨error.message, failure.content⟩, last)
  | (.ok recovery, after) =>
    (do
      let restart ← startRestoreWriters answers stopped
      if restart.all StartResult.ok then return ()
      else Effectful.raise ⟨"restore data completed but one or more services/post-start hooks failed; recovery backup="
        ++ recovery, false⟩) after

/-- `restore_backup_set` with `dry_run` off. -/
def restoreBackupSet (answers : Answers δ) (set : BackupSet δ) (layers : Layers) :
    Restoring δ Unit := do
  let verified ← outside set.verified
  if !verified then refuse "backup verification failed; restore was not started"
  else
    match restoreBackupArtifacts set layers with
    | .error error => refuse error
    | .ok artifacts => do
      let online ← outside answers.online
      if online > 0 then Effectful.raise ⟨"restore requires zero online players", false⟩
      else do
        let stopped ← stopRestoreWriters answers
        outside answers.staging
        guarded answers stopped (restoreData answers artifacts layers)

end Dash.Restore
