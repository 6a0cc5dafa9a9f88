import Dash.Deployment.Client
import Mathlib.Data.List.Nodup

/-! What a rollback restores, and the states from which it is accepted.

`before` gives what was at each path before the deployment. Every target is as before or has its
installed checksum, and every backup has what was before, at each moment of every call. The strict
check of a manifest that says installed is passed by the installed targets only, so a mixed state
under that status is refused.
-/

set_option autoImplicit false

namespace Dash.Deployment

open Dash.Foundation Dash.Foundation.Program List

namespace Platform

variable (pl : Platform) (before : String → Option File)

def Restorable (world : World) (row : Row) : Prop :=
  match row.original with
  | some original => ∃ bytes, world.backups row.relativeTarget = some bytes ∧
      pl.sha256 bytes = original.sha256 ∧
      before row.relativeTarget = some ⟨bytes, original.mode⟩
  | none => before row.relativeTarget = none

def Installed (world : World) (row : Row) : Prop :=
  pl.shaOf (world.targets row.relativeTarget) = some row.installedSha256

structure Held (manifest : Manifest) (world : World) : Prop where
  written : world.manifest = some manifest
  directory : world.deploymentDir = true
  distinct : (manifest.files.map Row.relativeTarget).Nodup
  executable : world.executable.map pl.sha256 = some manifest.gameExecutableSha256
  restorable : ∀ row ∈ manifest.files, pl.Restorable before world row
  targets : ∀ row ∈ manifest.files,
    world.targets row.relativeTarget = before row.relativeTarget ∨ pl.Installed world row
  others : ∀ relative, relative ∉ manifest.files.map Row.relativeTarget → world.targets relative = before relative

def settled (status : Status) : Prop := status = .rolledBack ∨ status = .failedRolledBack

instance : DecidablePred settled := fun _ => inferInstanceAs (Decidable (_ ∨ _))

def Sound (world : World) : Prop :=
  (world.manifest = none ∧ world.targets = before) ∨ ∃ manifest, pl.Held before manifest world ∧
      (settled manifest.status → world.targets = before)

def Mixed (world : World) : Prop :=
  ∃ manifest, world.manifest = some manifest ∧ manifest.status = .installed ∧
    (∃ row ∈ manifest.files, ¬ pl.Installed world row) ∧ world.targets ≠ before

/-- No kill, and no failure to write the manifest, while the targets are mixed. -/
def Careful (moment : Moment World Kind) : Prop :=
  pl.Mixed before moment.world → moment.fault ≠ .kills ∧ ¬ (moment.kind = .manifest ∧ moment.fault = .raisesBefore)

def Fine (world : World) : Prop := pl.Sound before world ∧ ¬ pl.Mixed before world

/-- All targets are as before, or an uninterrupted rollback makes them so. -/
def Recoverable (world : World) : Prop :=
  world.targets = before ∨ ∃ after, Runs (pl.rollback true false) world () after ∧ after.targets = before

variable {pl before}

variable {manifest : Manifest} {world : World}

theorem Held.fine (held : pl.Held before manifest world)
    (ready : world.targets = before ∨ recovering manifest.status = true ∨
      manifest.status = .installed ∧ ∀ row ∈ manifest.files, pl.Installed world row) :
    pl.Fine before world := by
  constructor
  · refine Or.inr ⟨manifest, held, fun closed => ?_⟩
    rcases ready with restored | open_ | ⟨installed, -⟩
    · exact restored
    · rcases closed with closed | closed <;> rw [closed] at open_ <;> cases open_
    · rcases closed with closed | closed <;> rw [closed] at installed <;> cases installed
  · rintro ⟨other, written, installed, ⟨row, member, missing⟩, changed⟩
    have same : other = manifest := by
      rw [held.written] at written
      exact (Option.some.inj written).symm
    subst same
    rcases ready with restored | open_ | ⟨-, all⟩
    · exact changed restored
    · rw [installed] at open_
      cases open_
    · exact missing (all row member)

theorem Held.write (held : pl.Held before manifest world) (status : Status) :
    pl.Held before { manifest with status := status } (writeManifest { manifest with status := status } world) where
  written := rfl
  directory := held.directory
  distinct := held.distinct
  executable := held.executable
  restorable := held.restorable
  targets := held.targets
  others := held.others

theorem Held.restored (held : pl.Held before manifest world)
    (rows : ∀ row ∈ manifest.files, world.targets row.relativeTarget = before row.relativeTarget) :
    world.targets = before := by
  funext relative
  by_cases listed : relative ∈ manifest.files.map Row.relativeTarget
  · obtain ⟨row, member, rfl⟩ := mem_map.mp listed
    exact rows row member
  · exact held.others relative listed

variable {row : Row}

theorem restore_targets (restorable : pl.Restorable before world row) : restore row world = { world with
      targets := Function.update world.targets row.relativeTarget (before row.relativeTarget) } := by
  unfold Restorable at restorable
  unfold restore
  cases kept : row.original with
  | none =>
    rw [kept] at restorable
    simp only [restorable]
  | some original =>
    rw [kept] at restorable
    obtain ⟨bytes, backup, -, was⟩ := restorable
    simp [backup, was, copyTarget]

/-- One target is written: with what was before, or with its installed checksum. -/
theorem Held.update (held : pl.Held before manifest world) (member : row ∈ manifest.files) {file : Option File}
    (either : file = before row.relativeTarget ∨ pl.shaOf file = some row.installedSha256) :
    pl.Held before manifest { world with targets := Function.update world.targets row.relativeTarget file } where
  written := held.written
  directory := held.directory
  distinct := held.distinct
  executable := held.executable
  restorable := held.restorable
  targets := by
    intro other others
    by_cases same : other.relativeTarget = row.relativeTarget
    · have equal : other = row := inj_on_of_nodup_map held.distinct others member same
      subst equal
      simpa only [Installed, Function.update_self] using either
    · simpa only [Installed, Function.update_of_ne same] using held.targets other others
  others := by
    intro relative unlisted
    have apart : relative ≠ row.relativeTarget := by
      rintro rfl
      exact unlisted (mem_map_of_mem member)
    simpa only [Function.update_of_ne apart] using held.others relative unlisted

def Open (pl : Platform) (before : String → Option File) (manifest : Manifest) (world : World) : Prop :=
  ∃ status, ¬ settled status ∧ pl.Held before { manifest with status := status } world

theorem Open.sound (opened : pl.Open before manifest world) : pl.Sound before world := by
  obtain ⟨status, active, held⟩ := opened
  exact Or.inr ⟨_, held, fun closed => absurd closed active⟩

theorem Open.stopped (opened : pl.Open before manifest world)
    {kind : Kind} {fault : Fault} (careful : pl.Careful before ⟨world, kind, fault⟩)
    (stops : fault = .kills ∨ kind = .manifest ∧ fault = .raisesBefore) : pl.Fine before world := by
  refine ⟨opened.sound, fun mixed => ?_⟩
  obtain ⟨alive, written⟩ := careful mixed
  rcases stops with killed | failed
  · exact alive killed
  · exact written failed

structure Stops (pl : Platform) (allowed : Moment World Kind → Prop)
    (before : String → Option File) (manifest : Manifest) (stopped : World → Prop) : Prop where
  killed : ∀ world kind, pl.Open before manifest world → allowed ⟨world, kind, .kills⟩ → stopped world
  unwritten : ∀ world, pl.Open before manifest world → allowed ⟨world, .manifest, .raisesBefore⟩ → stopped world
  marked : ∀ status world, status ≠ .installed → pl.Held before { manifest with status := status } world →
    world.targets = before ∨ recovering status = true → stopped world

theorem careful_stops (manifest : Manifest) : Stops pl (pl.Careful before) before manifest (pl.Fine before) where
  killed _ _ opened careful := opened.stopped careful (Or.inl rfl)
  unwritten _ opened careful := opened.stopped careful (Or.inr ⟨rfl, rfl⟩)
  marked _ _ _ held ready := by
    apply held.fine
    rcases ready with restored | open_
    · exact Or.inl restored
    · exact Or.inr (Or.inl open_)

structure Restoring (pl : Platform) (before : String → Option File) (manifest : Manifest)
    (left : List Row) (world : World) : Prop where
  opened : pl.Open before manifest world
  done : ∀ row ∈ manifest.files, row ∉ left → world.targets row.relativeTarget = before row.relativeTarget

theorem Restoring.restored (restoring : pl.Restoring before manifest [] world) : world.targets = before := by
  obtain ⟨status, active, held⟩ := restoring.opened
  exact held.restored fun row member => restoring.done row member (not_mem_nil)

theorem Restoring.restore {left : List Row}
    (restoring : pl.Restoring before manifest (row :: left) world) (member : row ∈ manifest.files) :
    pl.Restoring before manifest left (restore row world) := by
  obtain ⟨status, active, held⟩ := restoring.opened
  rw [restore_targets (held.restorable row member)]
  constructor
  · exact ⟨status, active, held.update member (Or.inl rfl)⟩
  · intro other others gone
    by_cases same : other.relativeTarget = row.relativeTarget
    · simp [same]
    · simp only [Function.update_of_ne same]
      apply restoring.done other others
      rintro (_ | ⟨_, still⟩)
      · exact same rfl
      · exact gone still

section Stopping

variable {allowed : Moment World Kind → Prop} {manifest : Manifest} {stopped : World → Prop}

section

variable (stops : Stops pl allowed before manifest stopped)
include stops

theorem each_restore (rows : List Row) (listed : ∀ row ∈ rows, row ∈ manifest.files) :
    Meets allowed (pl.Restoring before manifest rows) (each (fun row => act .file (restore row)) rows)
      ⟨fun _ => pl.Restoring before manifest [], pl.Open before manifest, stopped⟩ := by
  induction rows with
  | nil => exact Meets.done fun _ restoring => restoring
  | cons row rest ih =>
    have member := listed row (mem_cons_self)
    refine Meets.andThen (fun _ => pl.Restoring before manifest rest) ?_
      fun _ => ih fun other others => listed other (mem_cons_of_mem _ others)
    apply Meets.act
    · exact fun world restoring => restoring.restore member
    · exact fun world restoring _ => restoring.opened
    · exact fun world restoring => (restoring.restore member).opened
    · exact fun world restoring kill => stops.killed world _ restoring.opened kill

theorem rollbackRows_restores (rows : List Row) (listed : ∀ row ∈ rows, row ∈ manifest.files) :
    Meets allowed (pl.Restoring before manifest rows) (pl.rollbackRows rows)
      ⟨fun _ => pl.Restoring before manifest [], pl.Open before manifest, stopped⟩ := by
  refine Meets.lookThen (fun _ restoring => restoring.opened)
    (fun world restoring => stops.killed world _ restoring.opened) fun _ _ => ?_
  refine Meets.requireThen (fun _ restoring => restoring.opened) fun _ => ?_
  apply (each_restore stops rows.reverse fun row member => listed row (mem_reverse.mp member)).weaken
  exact fun world restoring =>
    ⟨restoring.opened, fun row member gone =>
      restoring.done row member fun left => gone (mem_reverse.mpr left)⟩

theorem write_status (status : Status) (different : status ≠ .installed) {held : World → Prop}
    (opened : ∀ world, held world → pl.Open before manifest world)
    (ready : ∀ world, held world → world.targets = before ∨ recovering status = true) :
    Meets allowed held (act .manifest (writeManifest { manifest with status := status }))
      ⟨fun _ => stopped, stopped, stopped⟩ := by
  have written : ∀ world, held world → stopped (writeManifest { manifest with status := status } world) := by
    intro world holds
    obtain ⟨old, active, was⟩ := opened world holds
    exact stops.marked status _ different (was.write status) (ready world holds)
  apply Meets.act
  · exact written
  · exact fun world holds fails => stops.unwritten world (opened world holds) fails
  · exact written
  · exact fun world holds kill => stops.killed world _ (opened world holds) kill

theorem mark_failed (status : Status) (different : status ≠ .installed) {held : World → Prop} {α : Type}
    (opened : ∀ world, held world → pl.Open before manifest world)
    (ready : ∀ world, held world → world.targets = before ∨ recovering status = true)
    (returned : α → World → Prop) :
    Meets allowed held (andThen (act .manifest (writeManifest { manifest with status := status })) fun _ => fail)
      ⟨returned, stopped, stopped⟩ := by
  apply Meets.andThen _ (write_status stops status different opened ready)
  exact fun _ => Meets.fail fun _ ended => ended

theorem restore_all : Meets allowed (pl.Open before manifest) (andThen (pl.rollbackRows manifest.files) fun _ =>
        andThen (look .read (pl.verifyRestored manifest.files)) fun restored => require restored)
      ⟨fun _ => pl.Restoring before manifest [], pl.Open before manifest, stopped⟩ := by
  refine Meets.andThen (fun _ => pl.Restoring before manifest [])
    ((rollbackRows_restores stops manifest.files fun _ member => member).weaken ?_)
    fun _ => ?_
  · exact fun world opened => ⟨opened, fun row member gone => absurd member gone⟩
  refine Meets.lookThen (fun _ restoring => restoring.opened)
    (fun world restoring => stops.killed world _ restoring.opened) fun _ _ => ?_
  exact Meets.require (fun _ _ restoring => restoring) fun _ _ restoring => restoring.opened

end

end Stopping

theorem Fine.of_written (fine : pl.Fine before world) (written : world.manifest = some manifest) :
    pl.Held before manifest world ∧ (settled manifest.status → world.targets = before) := by
  rcases fine.1 with ⟨absent, -⟩ | ⟨other, held, closed⟩
  · rw [written] at absent
    cases absent
  · have same : other = manifest := by
      rw [held.written] at written
      exact Option.some.inj written
    subst same
    exact ⟨held, closed⟩

theorem rollback_fine (confirmed clientRunning : Bool) :
    Meets (pl.Careful before) (pl.Fine before) (pl.rollback confirmed clientRunning)
      ⟨fun _ => pl.Fine before, pl.Fine before, pl.Fine before⟩ := by
  refine Meets.requireThen (fun _ fine => fine) fun _ => ?_
  refine Meets.andThen (fun found world => pl.Fine before world ∧ world.manifest = found) ?_ fun found => ?_
  · exact Meets.look (fun _ fine => ⟨fine, rfl⟩) (fun _ fine => fine) fun _ fine _ => fine
  cases found with
  | none => exact Meets.fail fun _ fine => fine.1
  | some manifest =>
    refine Meets.requireThen (fun _ fine => fine.1) fun active => ?_
    refine Meets.lookThen (fun _ fine => fine.1) (fun _ fine _ => fine.1) fun _ _ => ?_
    refine Meets.requireThen (fun _ fine => fine.1) fun _ => ?_
    have opened : ∀ world, pl.Fine before world ∧ world.manifest = some manifest → pl.Open before manifest world := by
      intro world fine
      refine ⟨manifest.status, ?_, (fine.1.of_written fine.2).1⟩
      rintro (closed | closed) <;> rw [closed] at active <;> cases active
    refine Meets.weaken ?_ opened
    refine Meets.andThen (fun _ => pl.Restoring before manifest []) ?_ fun _ => ?_
    · apply Meets.attempt _ (restore_all (careful_stops manifest))
      exact mark_failed (careful_stops manifest) _ (by decide) (fun _ opened => opened) (fun _ _ => Or.inr rfl) _
    · exact write_status (careful_stops manifest) _ (by decide)
        (fun _ restoring => restoring.opened) fun _ restoring => Or.inl restoring.restored

theorem Held.backups_verified
    (held : pl.Held before manifest world) : pl.verifyBackups manifest.files world = true := by
  unfold verifyBackups
  rw [all_eq_true]
  intro row member
  have restorable := held.restorable row member
  unfold Restorable at restorable
  cases kept : row.original with
  | none => rfl
  | some original =>
    rw [kept] at restorable
    obtain ⟨bytes, backup, sum, -⟩ := restorable
    simp [backup, sum]

theorem Restorable.sum (restorable : pl.Restorable before world row) :
    pl.shaOf (before row.relativeTarget) = row.original.map Original.sha256 := by
  unfold Restorable at restorable
  unfold shaOf
  cases kept : row.original with
  | none =>
    rw [kept] at restorable
    simp [restorable]
  | some original =>
    rw [kept] at restorable
    obtain ⟨bytes, -, sum, was⟩ := restorable
    simp [was, sum]

theorem Held.restored_verified (held : pl.Held before manifest world) (same : world.targets = before) :
    pl.verifyRestored manifest.files world = true := by
  unfold verifyRestored
  rw [all_eq_true]
  intro row member
  rw [same, (held.restorable row member).sum]
  exact decide_eq_true rfl

theorem foldl_restore {rows : List Row} (restoring : pl.Restoring before manifest rows world)
    (listed : ∀ row ∈ rows, row ∈ manifest.files) :
    pl.Restoring before manifest []
      (rows.foldl (fun world row => Dash.Deployment.Platform.restore row world) world) := by
  induction rows generalizing world with
  | nil => exact restoring
  | cons row rest ih =>
    apply ih (restoring.restore (listed row (mem_cons_self)))
    exact fun other others => listed other (mem_cons_of_mem _ others)

section

variable (held : pl.Held before manifest world)
  (ready : recovering manifest.status = true ∨ manifest.status = .installed ∧ ∀ row ∈ manifest.files, pl.Installed world row)
include held ready

theorem Held.checked :
    (if recovering manifest.status then pl.verifyRecoverableRollback manifest world
      else pl.verifyManifest manifest world) = true := by
  by_cases open_ : recovering manifest.status = true
  · rw [if_pos open_]
    unfold verifyRecoverableRollback
    simp only [Bool.and_eq_true, decide_eq_true_eq, all_eq_true]
    refine ⟨⟨held.executable, fun row member => ?_⟩, held.backups_verified⟩
    rcases held.targets row member with was | installed
    · right
      rw [was, (held.restorable row member).sum]
    · exact Or.inl installed
  · rw [if_neg open_]
    rcases ready with ready | ⟨installed, all⟩
    · exact absurd ready open_
    · unfold verifyManifest
      simp only [Bool.and_eq_true, decide_eq_true_eq, all_eq_true]
      exact ⟨⟨⟨installed, held.executable⟩, all⟩, held.backups_verified⟩

theorem Held.rollback_runs : ∃ after, Runs (pl.rollback true false) world () after ∧ after.targets = before := by
  have active : ¬ settled manifest.status := by
    rintro (closed | closed) <;> rw [closed] at ready <;> simp [recovering] at ready
  have restoring : pl.Restoring before manifest manifest.files.reverse world :=
    ⟨⟨_, active, held⟩, fun row member gone => absurd (mem_reverse.mpr member) gone⟩
  have restored := foldl_restore restoring fun row member => mem_reverse.mp member
  obtain ⟨status, -, still⟩ := restored.opened
  let last := manifest.files.reverse.foldl (fun world row => restore row world) world
  have rows : Runs (pl.rollbackRows manifest.files) world () last :=
    Runs.andThen (Runs.look _ _ world) (Runs.andThen (Runs.require held.backups_verified world) (Runs.each _ world))
  have seen : Runs (andThen (pl.rollbackRows manifest.files) fun _ =>
      andThen (look .read (pl.verifyRestored manifest.files)) fun restored => require restored)
      world () last :=
    Runs.andThen rows (Runs.andThen (Runs.look _ _ last)
      (Runs.require (still.restored_verified restored.restored) last))
  have unsettled : (decide (manifest.status = .installed) || recovering manifest.status) = true := by
    rcases ready with ready | ⟨installed, -⟩
    · simp [ready]
    · simp [installed]
  refine ⟨writeManifest { manifest with status := .rolledBack } last, ?_, restored.restored⟩
  refine Runs.andThen (Runs.require rfl world) (Runs.andThen (Runs.look _ _ world) ?_)
  rw [held.written]
  exact Runs.andThen (Runs.require unsettled world) (Runs.andThen (Runs.look _ _ world)
    (Runs.andThen (Runs.require (held.checked ready) world) (Runs.andThen (Runs.attempt seen) (Runs.act _ _ last))))

end

theorem Fine.recoverable (fine : pl.Fine before world) : pl.Recoverable before world := by
  rcases fine.1 with ⟨-, same⟩ | ⟨manifest, held, closed⟩
  · exact Or.inl same
  · by_cases same : world.targets = before
    · exact Or.inl same
    · right
      apply held.rollback_runs
      cases status : manifest.status with
      | prepared => exact Or.inl rfl
      | failedRollbackRequired => exact Or.inl rfl
      | rolledBack => exact absurd (closed (Or.inl status)) same
      | failedRolledBack => exact absurd (closed (Or.inr status)) same
      | installed =>
        refine Or.inr ⟨rfl, fun row member => ?_⟩
        by_contra missing
        exact fine.2 ⟨manifest, held.written, status, ⟨row, member, missing⟩, same⟩

end Platform

end Dash.Deployment
