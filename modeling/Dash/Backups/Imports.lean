import Dash.Foundation.Attempts
import Dash.Restore.BackupSet
import Mathlib.Data.List.Dedup

/-! The import of a backup archive by the panel: it is staged, moved below the backup root and
verified there.

Bytes are texts of their code points. What `tarfile` reads and writes, what the verifier answers and
the drawn names are given; an exception is its text.
-/

set_option autoImplicit false

namespace Dash.Backups.Imports

open Foundation Python List
open Restore (Member Archive Tree)

structure Platform where
  /-- `base64.b64decode(text, validate=True)` -/
  b64decode : String → Option String
  sha256 : String → String
  BACKUP_IMPORT_MAX_BODY_BYTES : Nat
  /-- Whether the file system takes a name for a file. -/
  takes : String → Bool
  tarfile : String → Archive
  /-- What an extraction that is refused has written. -/
  partly : Archive → Tree

structure Call where
  (name archive sha256 : String)
  /-- `secrets.token_hex(8)` -/
  (token stamp : String)
  /-- `secrets.token_hex(3)` -/
  suffix : String
  /-- What the verifier comes to on a set; it may raise. -/
  verifier : Tree → Except String Bool

structure Imported where
  path : String
  sizeBytes : Nat
  sha256 : String
  deriving DecidableEq

inductive Node where
  | file
  | directory (tree : Tree)

structure Stage where
  archive : Option (String × String) := none
  extracted : Option Tree := none
  failed : Option Tree := none

/-- What stands at `.imports`. -/
inductive Parent where
  | absent
  | file
  | directory (stages : String → Option Stage)

/-- The backup root: what stands at its names, and at `.imports`. -/
structure Root where
  sets : String → Option Node
  imports : Parent

def Parent.stages : Parent → String → Option Stage
  | .directory stages => stages
  | _ => fun _ => none

abbrev Work (α : Type) : Type := Effectful Root String α

def Root.stage (root : Root) (token : String) (change : Option Stage) : Root :=
  { root with imports := .directory (Function.update root.imports.stages token change) }

def Root.place (root : Root) (name : String) (change : Option Node) : Root :=
  { root with sets := Function.update root.sets name change }

/-- `staging_root.mkdir(parents=True, exist_ok=True)` -/
def mkdirParent : Work Unit := fun root =>
  match root.imports with
  | .file => (.error "FileExistsError", root)
  | .absent => (.ok (), { root with imports := .directory fun _ => none })
  | .directory _ => (.ok (), root)

/-- `staging.mkdir(mode=0o700)` -/
def mkdirStaging (token : String) : Work Unit := fun root =>
  match root.imports.stages token with
  | none => (.ok (), root.stage token (some {}))
  | some _ => (.error "FileExistsError", root)

def changeStage (token : String) (change : Stage → Stage) : Work Unit := fun root =>
  (.ok (), root.stage token ((root.imports.stages token).map change))

def without (path : List String) (tree : Tree) : Tree := fun other =>
  if path <+: other then none else tree other

def finally_ {α : Type} (token : String) (body : Work α) : Work α := fun root =>
  ((body root).1, (body root).2.stage token none)

/-- `PurePosixPath(name).parts` without the root -/
def parts (name : String) : List String :=
  ((name.toList.splitOn '/').map String.ofList).filter fun part => part ≠ "" && part ≠ "."

def lastPart (name : String) : String := (parts name).getLastD ""

/-- `str.lower`, as far as the suffix of an archive and a digest can tell. -/
def lowered (text : String) : String := String.ofList (text.toList.map Char.toLower)

/-- The only other character that `str.lower` makes an ASCII one is the Kelvin sign. -/
def lowersToAscii (text : String) : Bool :=
  text.toList.all fun char => decide (char.toNat < 128 ∨ char.toNat = 0x212A)

def endsWith (suffix text : String) : Bool := suffix.toList.isSuffixOf text.toList

def isArchive (name : String) : Bool := endsWith ".tar.gz" (lowered name) || endsWith ".tgz" (lowered name)

def checkName (name : String) : Except String Unit :=
  if isArchive name then .ok () else .error "backup import must be a .tar.gz or .tgz archive"

/-- `hmac.compare_digest(digest, str(expected_sha256).lower())`, where a digest is expected -/
def checkDigest (digest expected : String) : Except String Unit :=
  if expected = "" then .ok ()
  else if ¬ lowersToAscii expected then
    .error "comparing strings with non-ASCII characters is not supported"
  else if digest ≠ lowered expected then .error "backup archive SHA-256 does not match"
  else .ok ()

def Platform.contentOf (rt : Platform) (encoded : String) : Except String String :=
  match rt.b64decode encoded with
  | none => .error "backup archive is not valid base64"
  | some content =>
    if content = "" ∨ rt.BACKUP_IMPORT_MAX_BODY_BYTES < content.length then
      .error "backup archive is empty or exceeds the import limit"
    else .ok content

def Platform.checked (rt : Platform) (call : Call) : Except String (String × String) := do
  let safeName := lastPart (if call.name = "" then "backup.tar.gz" else call.name)
  checkName safeName
  let content ← rt.contentOf call.archive
  checkDigest (rt.sha256 content) call.sha256
  return (safeName, content)

def unsafeMember (member : Member) : Bool :=
  startsWith "/" member.name || ".." ∈ parts member.name ||
    member.kind = .symlink || member.kind = .hardlink || member.kind = .device

def checkMembers : List Member → Int → Except String Unit
  | [], _ => .ok ()
  | member :: rest, total =>
    if unsafeMember member then .error "backup archive contains an unsafe member"
    else if total + max 0 member.size > 2 * 1024 * 1024 * 1024 then
      .error "backup archive expands beyond 2 GiB"
    else checkMembers rest (total + max 0 member.size)

def membersOf (archive : Archive) : Except String (List Member) := do
  let members ← archive.members
  if members = [] ∨ 10000 < members.length then throw "backup archive has an invalid member count"
  checkMembers members 0
  return members

def extracted (members : List Member) : Tree := fun path =>
  match members.reverse.find? fun member => parts member.name = path with
  | some member => some (if member.kind = .directory then .directory else .file member.content)
  | none =>
    if members.any fun member => path.isPrefixOf (parts member.name) then some .directory else none

/-- `path.iterdir()` of an extracted directory -/
def iterdir (members : List Member) (path : List String) : List String :=
  (members.filterMap fun member =>
    if path <+: parts member.name then (parts member.name)[path.length]? else none).dedup

def filesIn (members : List Member) (path : List String) : List String :=
  (iterdir members path).filter fun name =>
    extracted members (path ++ [name]) ≠ some .directory

def sourceOf (members : List Member) : List String :=
  match (iterdir members []).filter fun name => extracted members [name] = some .directory,
    filesIn members [] with
  | [root], [] => [root]
  | _, _ => []

def isDump (name : String) : Bool :=
  startsWith "postgres-" name && (endsWith ".dump" name || endsWith ".dump.gz" name)

def nameOf (members : List Member) : String := (sourceOf members).getLastD "extracted"

def setOf (members : List Member) : Tree := fun rest => extracted members (sourceOf members ++ rest)

def Call.target (call : Call) : String := "imported-" ++ call.stamp ++ "-" ++ call.suffix

/-- `shutil.move` of the directory to the drawn name: into the directory that stands there. -/
def move (target name : String) (tree : Tree) : Work Unit := fun root =>
  match root.sets target with
  | none => (.ok (), root.place target (some (.directory tree)))
  | some .file => (.error "FileExistsError", root)
  | some (.directory there) =>
    if there [name] = none then (.ok (), root.place target (some (.directory (there.graft name tree))))
    else (.error "Destination path already exists", root)

/-- `resolve_backup_set` and the verifier -/
def verifyBackupSet (call : Call) (relative : String) : Work Bool := fun root =>
  match root.sets relative with
  | some (.directory tree) => (call.verifier tree, root)
  | _ => (.error "backup set directory does not exist", root)

/-- `shutil.move(str(target), staging / "failed-verification")` -/
def moveBack (token target : String) : Work Unit := fun root =>
  match root.sets target with
  | some (.directory tree) =>
    changeStage token (fun stage => { stage with failed := some tree }) (root.place target none)
  | _ => (.error "FileNotFoundError", root)

namespace Platform

variable (rt : Platform)

/-- `handle.extractall(extracted, members=members, filter="data")` -/
def extractall (token : String) (archive : Archive) (members : List Member) : Work Unit :=
  match archive.refused with
  | none => changeStage token fun stage => { stage with extracted := some (extracted members) }
  | some why => do
    changeStage token fun stage => { stage with extracted := some (rt.partly archive) }
    Effectful.raise why

/-- The body of the `try` from the move on. -/
def place (call : Call) (content : String) (members : List Member) : Work Imported := do
  move call.target (nameOf members) (setOf members)
  changeStage call.token fun stage =>
    { stage with extracted := if sourceOf members = [] then none
        else stage.extracted.map (without (sourceOf members)) }
  let ok ← verifyBackupSet call call.target
  if ok = true then return ⟨call.target, content.length, rt.sha256 content⟩
  else do
    moveBack call.token call.target
    Effectful.raise "imported backup failed verification"

/-- The body of the `try`. -/
def land (call : Call) (content : String) : Work Imported := do
  let archive := rt.tarfile content
  let members ← Effectful.lift (membersOf archive)
  rt.extractall call.token archive members
  if (filesIn members (sourceOf members)).any isDump then rt.place call content members
  else Effectful.raise "imported backup does not contain a Postgres dump"

/-- `archive.write_bytes(content)` -/
def writeBytes (token name content : String) : Work Unit :=
  if rt.takes name then changeStage token fun stage => { stage with archive := some (name, content) }
  else Effectful.raise "OSError"

def importBackupArchive (call : Call) : Work Imported := do
  let (safeName, content) ← Effectful.lift (rt.checked call)
  mkdirParent
  mkdirStaging call.token
  rt.writeBytes call.token safeName content
  changeStage call.token fun stage => { stage with extracted := some fun _ => none }
  finally_ call.token (rt.land call content)

end Platform

variable {members : List Member}

theorem mem_iterdir {name : String} : name ∈ iterdir members [] ↔ extracted members [name] ≠ none := by
  have named : name ∈ iterdir members [] ↔ ∃ member ∈ members, [name] <+: parts member.name := by
    rw [iterdir, mem_dedup, mem_filterMap]
    refine exists_congr fun member => and_congr_right fun _ => ?_
    rw [if_pos List.nil_prefix]
    cases parts member.name with
    | nil => simp
    | cons first rest => simp [cons_prefix_cons, eq_comm]
  rw [named, extracted]
  cases found : members.reverse.find? fun member => parts member.name = [name] with
  | some member =>
    refine ⟨fun _ => by simp, fun _ => ⟨member, mem_reverse.mp (List.mem_of_find?_eq_some found), ?_⟩⟩
    have same := List.find?_some found
    exact of_decide_eq_true same ▸ prefix_refl _
  | none => simp [List.isPrefixOf_iff_prefix]

def Single (members : List Member) (root : String) : Prop :=
  extracted members [root] = some .directory ∧ ∀ name, name ≠ root → extracted members [name] = none

theorem sourceOf_single {root : String} (single : Single members root) : sourceOf members = [root] := by
  have only : iterdir members [] = [root] := by
    refine perm_singleton.mp ((perm_ext_iff_of_nodup (nodup_dedup _) (nodup_singleton root)).mpr fun name => ?_)
    rw [mem_singleton]
    constructor
    · intro there
      by_contra other
      exact mem_iterdir.mp there (single.2 name other)
    · rintro rfl
      exact mem_iterdir.mpr (by simp [single.1])
  simp [sourceOf, filesIn, only, single.1]

theorem sourceOf_other (other : ∀ root, ¬ Single members root) : sourceOf members = [] := by
  unfold sourceOf
  split
  next root directories files =>
    have all : ∀ name ∈ iterdir members [], extracted members [name] = some .directory :=
      fun name there => by simpa using filter_eq_nil_iff.mp files name there
    rw [filter_eq_self.mpr fun name there => decide_eq_true (all name there)] at directories
    refine absurd ⟨all root (by simp [directories]), fun name different => ?_⟩ (other root)
    by_contra there
    rw [← Ne, ← mem_iterdir, directories] at there
    exact different (mem_singleton.mp there)
  · rfl

@[simp]
theorem stage_stage (root : Root) (token : String) (one two : Option Stage) :
    (root.stage token one).stage token two = root.stage token two := by
  simp [Root.stage, Parent.stages]

def Root.opened (root : Root) : Root := { root with imports := .directory root.imports.stages }

theorem opened_stage {root : Root} {token : String} (free : root.imports.stages token = none) :
    root.opened.stage token none = root.opened := by
  rw [Root.stage, Root.opened]
  congr
  exact (congrArg (Function.update _ token) free.symm).trans (Function.update_eq_self ..)

theorem stage_self (root : Root) (token : String) (change : Option Stage) :
    (root.stage token change).imports.stages token = change := Function.update_self ..

theorem changeStage_run (root : Root) (token : String) (stage : Stage) (change : Stage → Stage) :
    changeStage token change (root.stage token (some stage)) = (.ok (), root.stage token (some (change stage))) := by
  rw [changeStage, stage_self, stage_stage]
  rfl

theorem mkdirParent_run {root : Root} (openable : root.imports ≠ .file) : mkdirParent root = (.ok (), root.opened) := by
  obtain ⟨sets, imports⟩ := root
  cases imports with
  | absent => rfl
  | file => exact absurd rfl openable
  | directory stages => rfl

def Starts (call : Call) (root : Root) : Prop :=
  root.imports ≠ .file ∧ root.imports.stages call.token = none

namespace Platform

variable {rt : Platform} {call : Call}

theorem checked_content {name content : String} (admitted : rt.checked call = .ok (name, content)) :
    rt.b64decode call.archive = some content := by
  obtain ⟨_, -, admitted⟩ := Attempts.bind_ok.mp admitted
  obtain ⟨_, found, admitted⟩ := Attempts.bind_ok.mp admitted
  obtain ⟨_, -, admitted⟩ := Attempts.bind_ok.mp admitted
  cases admitted
  unfold contentOf at found
  split at found
  · cases found
  next decoded =>
    split at found
    · cases found
    · cases found
      exact decoded

theorem import_early (before : Root) (early : (∃ why, rt.checked call = .error why) ∨ ¬ Starts call before) :
    ∃ why after, rt.importBackupArchive call before = (.error why, after) ∧
      after.sets = before.sets ∧ after.imports.stages = before.imports.stages := by
  unfold importBackupArchive
  cases admitted : rt.checked call with
  | error why =>
    rw [Effectful.bind_error (Effectful.lift_run _ _)]
    exact ⟨why, before, rfl, rfl, rfl⟩
  | ok found =>
    have closed : ¬ Starts call before := early.resolve_left (by simp [admitted])
    obtain ⟨name, content⟩ := found
    rw [Effectful.bind_ok (Effectful.lift_run _ _)]
    dsimp only
    by_cases openable : before.imports = .file
    · have refused : mkdirParent before = (.error "FileExistsError", before) := by
        rw [mkdirParent, openable]
      rw [Effectful.bind_error refused]
      exact ⟨_, before, rfl, rfl, rfl⟩
    · obtain ⟨other, taken⟩ := Option.ne_none_iff_exists'.mp fun free => closed ⟨openable, free⟩
      have refused : mkdirStaging call.token before.opened = (.error "FileExistsError", before.opened) := by
        rw [mkdirStaging, show before.opened.imports.stages call.token = some other from taken]
      rw [Effectful.bind_ok (mkdirParent_run openable), Effectful.bind_error refused]
      exact ⟨_, before.opened, rfl, rfl, rfl⟩

theorem import_late {before : Root} (starts : Starts call before) {name content : String}
    (admitted : rt.checked call = .ok (name, content)) :
    (rt.takes name = false ∧ rt.importBackupArchive call before =
        (.error "OSError", before.opened.stage call.token (some {}))) ∨
      rt.takes name = true ∧ ∃ stage, rt.importBackupArchive call before =
        finally_ call.token (rt.land call content) (before.opened.stage call.token (some stage)) := by
  have made : mkdirStaging call.token before.opened = (.ok (), before.opened.stage call.token (some {})) := by
    rw [mkdirStaging, show before.opened.imports.stages call.token = none from starts.2]
  unfold importBackupArchive
  rw [admitted, Effectful.bind_ok (Effectful.lift_run _ _)]
  dsimp only
  rw [Effectful.bind_ok (mkdirParent_run starts.1), Effectful.bind_ok made, writeBytes]
  cases takes : rt.takes name with
  | false => exact .inl ⟨rfl, rfl⟩
  | true =>
    rw [if_pos rfl, Effectful.bind_ok (changeStage_run ..), Effectful.bind_ok (changeStage_run ..)]
    exact .inr ⟨rfl, _, rfl⟩

def setIn (rt : Platform) (content : String) : Option (List Member) :=
  match membersOf (rt.tarfile content) with
  | .error _ => none
  | .ok members =>
    if (rt.tarfile content).refused = none ∧ (filesIn members (sourceOf members)).any isDump then
      some members
    else none

variable {content : String}

theorem land_refused (root : Root) (stage : Stage) (none_ : rt.setIn content = none) :
    ∃ why after, rt.land call content (root.stage call.token (some stage)) =
      (.error why, root.stage call.token (some after)) := by
  unfold land
  unfold setIn at none_
  cases read : membersOf (rt.tarfile content) with
  | error why => exact ⟨why, stage, Effectful.bind_error (Effectful.lift_run _ _)⟩
  | ok members =>
    rw [read] at none_
    rw [Effectful.bind_ok (Effectful.lift_run _ _), extractall]
    cases refused : (rt.tarfile content).refused with
    | some why =>
      exact ⟨why, _, Effectful.bind_error ((Effectful.bind_ok (changeStage_run ..)).trans rfl)⟩
    | none =>
      rw [Effectful.bind_ok (changeStage_run ..), if_neg fun dump => by simp [refused, dump] at none_]
      exact ⟨_, _, rfl⟩

theorem land_set (root : Root) (stage : Stage) {members : List Member} (set : rt.setIn content = some members) :
    ∃ after, rt.land call content (root.stage call.token (some stage)) =
      rt.place call content members (root.stage call.token (some after)) := by
  unfold setIn at set
  cases read : membersOf (rt.tarfile content) with
  | error why =>
    rw [read] at set
    cases set
  | ok found =>
    rw [read] at set
    obtain ⟨⟨refused, dump⟩, same⟩ := Option.ite_none_right_eq_some.mp set
    cases same
    unfold land
    rw [read, Effectful.bind_ok (Effectful.lift_run _ _), extractall, refused,
      Effectful.bind_ok (changeStage_run ..), if_pos dump]
    exact ⟨_, rfl⟩

/-- What is left once the directory stands at the drawn name. -/
theorem place_moved {root : Root} {stage : Stage} {members : List Member} {tree : Tree}
    (moved : move call.target (nameOf members) (setOf members) (root.stage call.token (some stage)) =
      (.ok (), (root.place call.target (some (.directory tree))).stage call.token (some stage))) :
    (finally_ call.token (rt.place call content members)) (root.stage call.token (some stage)) =
      match call.verifier tree with
      | .error why => (.error why, (root.place call.target (some (.directory tree))).stage call.token none)
      | .ok true => (.ok ⟨call.target, content.length, rt.sha256 content⟩,
          (root.place call.target (some (.directory tree))).stage call.token none)
      | .ok false => (.error "imported backup failed verification",
          (root.place call.target none).stage call.token none) := by
  have seen (stage : Stage) : verifyBackupSet call call.target
      ((root.place call.target (some (.directory tree))).stage call.token (some stage)) =
        (call.verifier tree, (root.place call.target (some (.directory tree))).stage call.token (some stage)) := by
    simp [verifyBackupSet, Root.stage, Root.place]
  have back (stage : Stage) : moveBack call.token call.target
      ((root.place call.target (some (.directory tree))).stage call.token (some stage)) =
        changeStage call.token (fun stage => { stage with failed := some tree })
          ((root.place call.target none).stage call.token (some stage)) := by
    simp [moveBack, Root.stage, Root.place]
  unfold finally_ place
  rw [Effectful.bind_ok moved, Effectful.bind_ok (changeStage_run ..)]
  cases verdict : call.verifier tree with
  | error why =>
    rw [verdict] at seen
    rw [Effectful.bind_error (seen _), stage_stage]
  | ok ok =>
    rw [verdict] at seen
    rw [Effectful.bind_ok (seen _)]
    cases ok with
    | true =>
      refine Prod.ext rfl ?_
      exact stage_stage ..
    | false =>
      rw [if_neg (by simp), Effectful.bind_ok ((back _).trans (changeStage_run ..))]
      refine Prod.ext rfl ?_
      exact stage_stage ..

end Platform

def Root.HasDirectory (root : Root) : List String → Prop
  | [] => True
  | name :: rest => ∃ tree, root.sets name = some (.directory tree) ∧
      (rest = [] ∨ tree rest = some .directory)

def New (before after : Root) (name : String) : Prop :=
  after.HasDirectory [name] ∧ ¬ before.HasDirectory [name]

def Unpacked (rt : Platform) (call : Call) (set : Tree) : Prop :=
  ∃ content members, rt.b64decode call.archive = some content ∧ membersOf (rt.tarfile content) = .ok members ∧
    (∀ root, Single members root → ∀ rest, set rest = extracted members (root :: rest)) ∧
    ((∀ root, ¬ Single members root) → set = extracted members)

structure AllOrNothing (rt : Platform) (call : Call) (before : Root)
    (run : Except String Imported × Root) : Prop where
  raised : ∀ why, run.1 = .error why → (∀ path, run.2.HasDirectory path ↔ before.HasDirectory path) ∧
      ∀ token, run.2.imports.stages token = none ↔ before.imports.stages token = none
  returned : ∀ imported, run.1 = .ok imported → (∀ name, New before run.2 name ↔ name = imported.path) ∧
      ∃ set, run.2.sets imported.path = some (.directory set) ∧ call.verifier set = .ok true ∧ Unpacked rt call set
  confined : (∀ name, ¬ New before run.2 name → run.2.sets name = before.sets name) ∧
    ∀ token, token ≠ call.token → run.2.imports.stages token = before.imports.stages token

/-- Where the import gets so far, the archive's name can be written, and then the drawn name is free
and the verifier does not raise on the set, or the move is refused. -/
def Settles (rt : Platform) (call : Call) (before : Root) : Prop :=
  ∀ name content, rt.checked call = .ok (name, content) → Starts call before →
    rt.takes name = true ∧ ∀ members, rt.setIn content = some members →
      match before.sets call.target with
      | none => ∃ ok, call.verifier (setOf members) = .ok ok
      | some (.directory there) => there [nameOf members] ≠ none
      | some .file => True

variable {rt : Platform} {call : Call} {before after : Root}

theorem unchanged_settles {why : String} (sets : after.sets = before.sets)
    (stages : after.imports.stages = before.imports.stages) :
    AllOrNothing rt call before (.error why, after) where
  raised _ _ := by
    refine ⟨fun path => ?_, fun token => by rw [stages]⟩
    cases path with
    | nil => exact Iff.rfl
    | cons name rest =>
      change (∃ tree, after.sets name = _ ∧ _) ↔ _
      rw [sets]
      rfl
  returned _ impossible := nomatch impossible
  confined := ⟨fun name _ => congrFun sets name, fun token _ => congrFun stages token⟩

theorem setOf_unpacked {name content : String}
    (admitted : rt.checked call = .ok (name, content)) (some_ : rt.setIn content = some members) :
    Unpacked rt call (setOf members) := by
  refine ⟨content, members, rt.checked_content admitted, ?_, fun root single rest => ?_, fun other => ?_⟩
  · unfold Platform.setIn at some_
    split at some_
    · cases some_
    next read =>
      cases (Option.ite_none_right_eq_some.mp some_).2
      exact read
  · rw [setOf, sourceOf_single single]
    rfl
  · funext rest
    rw [setOf, sourceOf_other other]
    rfl

theorem new_place {name other : String} {tree : Tree} (free : before.sets name = none) :
    New before ((before.opened.place name (some (.directory tree))).stage call.token none) other ↔ other = name := by
  by_cases same : other = name
  · simp [New, Root.HasDirectory, Root.place, Root.stage, same, free]
  · simp [New, Root.HasDirectory, Root.place, Root.stage, Root.opened, same]

section Placed

variable {stage : Stage} {content : String} {members : List Member}

theorem free_iff (starts : Starts call before) (unpacked : Unpacked rt call (setOf members))
    (free : before.sets call.target = none) :
    AllOrNothing rt call before (finally_ call.token (rt.place call content members)
        (before.opened.stage call.token (some stage))) ↔
      ∃ ok, call.verifier (setOf members) = .ok ok := by
  have moved : move call.target (nameOf members) (setOf members)
      (before.opened.stage call.token (some stage)) = (.ok (), (before.opened.place call.target
        (some (.directory (setOf members)))).stage call.token (some stage)) := by
    simp [move, Root.stage, Root.place, Root.opened, free]
  rw [rt.place_moved moved]
  cases verdict : call.verifier (setOf members) with
  | error why =>
    refine iff_of_false (fun settled => ?_) (by simp)
    have there := ((settled.raised why rfl).1 [call.target]).mp
      ⟨setOf members, by simp [Root.stage, Root.place], .inl rfl⟩
    obtain ⟨tree, found, -⟩ := there
    rw [free] at found
    cases found
  | ok ok =>
    refine iff_of_true ?_ ⟨ok, rfl⟩
    cases ok with
    | true =>
      refine ⟨fun _ impossible => (nomatch impossible), fun imported same => ?_, fun name old => ?_,
        fun token other => ?_⟩
      · cases same
        exact ⟨fun name => new_place free, setOf members, by simp [Root.stage, Root.place], verdict, unpacked⟩
      · have other : name ≠ call.target := fun same => old ((new_place free).mpr same)
        simp [Root.stage, Root.place, Root.opened, other]
      · simp [Root.stage, Root.place, Root.opened, Parent.stages, other]
    | false =>
      apply unchanged_settles
      · simp [Root.stage, Root.place, Root.opened, ← free]
      · change (before.opened.stage call.token none).imports.stages = _
        rw [opened_stage starts.2]
        rfl

theorem move_refused (starts : Starts call before) (why : String)
    (refused : move call.target (nameOf members) (setOf members) (before.opened.stage call.token (some stage)) =
        (.error why, before.opened.stage call.token (some stage))) :
    AllOrNothing rt call before (finally_ call.token (rt.place call content members)
      (before.opened.stage call.token (some stage))) := by
  unfold finally_ Platform.place
  rw [Effectful.bind_error refused, stage_stage, opened_stage starts.2]
  exact unchanged_settles rfl rfl

theorem taken_iff (starts : Starts call before) {there : Tree}
    (taken : before.sets call.target = some (.directory there)) :
    AllOrNothing rt call before (finally_ call.token (rt.place call content members)
        (before.opened.stage call.token (some stage))) ↔
      there [nameOf members] ≠ none := by
  by_cases free : there [nameOf members] = none
  · refine iff_of_false (fun settled => ?_) (not_not.mpr free)
    have moved : move call.target (nameOf members) (setOf members)
        (before.opened.stage call.token (some stage)) = (.ok (), (before.opened.place call.target
          (some (.directory (there.graft (nameOf members) (setOf members))))).stage call.token (some stage)) := by
      simp [move, Root.stage, Root.place, Root.opened, taken, free]
    rw [rt.place_moved moved] at settled
    cases verdict : call.verifier (there.graft (nameOf members) (setOf members)) with
    | error why =>
      rw [verdict] at settled
      have left := ((settled.raised why rfl).1 [call.target, nameOf members]).mp
        ⟨_, Function.update_self .., .inr (by simp [Tree.graft])⟩
      simp [Root.HasDirectory, taken, free] at left
    | ok ok =>
      rw [verdict] at settled
      cases ok with
      | true =>
        have new := ((settled.returned _ rfl).1 call.target).mpr rfl
        exact new.2 ⟨there, taken, .inl rfl⟩
      | false =>
        have kept := ((settled.raised _ rfl).1 [call.target]).mpr ⟨there, taken, .inl rfl⟩
        simp [Root.HasDirectory, Root.stage, Root.place] at kept
  · refine iff_of_true (move_refused starts "Destination path already exists" ?_) free
    simp [move, Root.stage, Root.opened, taken, free]

end Placed

/-- An import is all or nothing exactly when it settles. -/
theorem all_or_nothing_iff (rt : Platform) (call : Call) (before : Root) :
    AllOrNothing rt call before (rt.importBackupArchive call before) ↔ Settles rt call before := by
  cases admitted : rt.checked call with
  | error why =>
    obtain ⟨_, after, run, sets, stages⟩ := rt.import_early before (.inl ⟨why, admitted⟩)
    rw [run]
    refine iff_of_true (unchanged_settles sets stages) fun _ _ same => ?_
    rw [admitted] at same
    cases same
  | ok found =>
    obtain ⟨name, content⟩ := found
    have settles : Settles rt call before ↔ (Starts call before → rt.takes name = true ∧
        ∀ members, rt.setIn content = some members → match before.sets call.target with
          | none => ∃ ok, call.verifier (setOf members) = .ok ok
          | some (.directory there) => there [nameOf members] ≠ none
          | some .file => True) := by
      constructor
      · exact fun settles => settles name content admitted
      · intro settles _ _ same
        rw [admitted] at same
        cases same
        exact settles
    rw [settles]
    by_cases starts : Starts call before
    · rw [forall_prop_of_true starts]
      rcases rt.import_late starts admitted with ⟨refused, run⟩ | ⟨takes, stage, run⟩
      · rw [run]
        refine iff_of_false (fun settled => ?_) (by simp [refused])
        have free := ((settled.raised _ rfl).2 call.token).mpr starts.2
        rw [stage_self] at free
        cases free
      · rw [run, takes, and_iff_right rfl]
        cases unpacked : rt.setIn content with
        | none =>
          obtain ⟨why, after, run⟩ := rt.land_refused before.opened stage unpacked
          rw [finally_, run, stage_stage, opened_stage starts.2]
          exact iff_of_true (unchanged_settles rfl rfl) (by simp)
        | some members =>
          obtain ⟨after, run⟩ := rt.land_set before.opened stage unpacked
          have same : finally_ call.token (rt.land call content) (before.opened.stage call.token (some stage)) =
                finally_ call.token (rt.place call content members) (before.opened.stage call.token (some after)) := by
            rw [finally_, finally_, run]
          rw [same]
          simp only [Option.some.injEq, forall_eq']
          cases found : before.sets call.target with
          | none => exact free_iff starts (setOf_unpacked admitted unpacked) found
          | some node => cases node with
            | file =>
              refine iff_of_true (move_refused starts "FileExistsError" ?_) trivial
              simp [move, Root.stage, Root.opened, found]
            | directory there => exact taken_iff starts found
    · obtain ⟨_, after, run, sets, stages⟩ := rt.import_early before (.inr starts)
      rw [run]
      exact iff_of_true (unchanged_settles sets stages) fun begins => absurd begins starts

def plain : Platform where
  b64decode := some
  sha256 text := text
  BACKUP_IMPORT_MAX_BODY_BYTES := 1000
  takes _ := true
  tarfile _ := ⟨.ok [⟨"postgres-1.dump", .regular, 4, "dump"⟩], none⟩
  partly _ := fun _ => none

def slowly : Call where
  name := "set.tgz"
  archive := "set"
  sha256 := ""
  token := "0011223344556677"
  stamp := "20260101T000000Z"
  suffix := "a1b2c3"
  verifier _ := .error "TimeoutExpired"

theorem raising_verifier_leaves_set : ¬ AllOrNothing plain slowly ⟨fun _ => none, .absent⟩
      (plain.importBackupArchive slowly ⟨fun _ => none, .absent⟩) := by
  intro settled
  have kept := (settled.raised "TimeoutExpired" (by decide +kernel)).1 [slowly.target]
  obtain ⟨tree, found, -⟩ := kept.mp ⟨_, rfl, .inl rfl⟩
  cases found

end Dash.Backups.Imports
