import Dash.Deployment.StateRoot

/-! Deployments under one state root do not clobber each other, as long as no install or adoption
begins on a target that an unfinished deployment records.

A call changes the targets it names and its own directory, and nothing else. An undisturbed one
leaves a manifest that says installed only over targets that pass its check. With the targets of all
active deployments disjoint, a call for one leaves the check of the others as it was.
-/

set_option autoImplicit false

namespace Dash.Deployment

open Dash.Foundation Dash.Foundation.Program List
open Function (update_of_ne update_self)

namespace Platform

variable {pl : Platform}

theorem rollbackRows_keeps {γ : Type} {part : World → γ} (rows : List Row)
    (same : ∀ row world, part (restore row world) = part world) :
    Keeps part (pl.rollbackRows rows) := by
  apply Keeps.andThen Keeps.look fun _ => ?_
  apply Keeps.andThen Keeps.require fun _ => ?_
  exact Keeps.each (fun row => Keeps.act (same row)) _

theorem restore_executable (row : Row) (world : World) : (restore row world).executable = world.executable := by
  unfold restore
  split
  · split <;> rfl
  · rfl

theorem mark_executable {α : Type} (manifest : Manifest) : Keeps World.executable
      (andThen (act .manifest (writeManifest manifest)) fun _ => (fail : Work α)) :=
  Keeps.andThen (Keeps.act (by exact fun _ => rfl)) fun _ => Keeps.fail

theorem backUp_executable (planned : Planned) : Keeps World.executable (pl.backUp planned) := by
  apply Keeps.andThen Keeps.look fun seen => ?_
  apply Keeps.andThen Keeps.require fun _ => ?_
  cases seen.2 with
  | none => exact Keeps.done
  | some current =>
    refine Keeps.andThen (Keeps.act (by exact fun _ => rfl)) fun _ => ?_
    apply Keeps.andThen Keeps.look fun _ => ?_
    exact Keeps.andThen Keeps.require fun _ => Keeps.done

theorem put_executable (row : Row) : Keeps World.executable (pl.put row) := by
  apply Keeps.andThen Keeps.look fun source => ?_
  cases source with
  | none => exact Keeps.fail
  | some source =>
    apply Keeps.andThen Keeps.require fun _ => ?_
    refine Keeps.andThen (Keeps.note (by exact fun _ => rfl)) fun _ => ?_
    refine Keeps.andThen (Keeps.act (by exact fun _ => rfl)) fun _ => ?_
    exact Keeps.andThen Keeps.look fun _ => Keeps.require

theorem remove_executable : Keeps World.executable
    (andThen (act .file removeDeployment) fun _ => (fail : Work (List Row))) :=
  Keeps.andThen (Keeps.act (by exact fun _ => rfl)) fun _ => Keeps.fail

theorem install_executable (args : InstallArgs) : Keeps World.executable (pl.install args) := by
  apply Keeps.andThen Keeps.require fun _ => ?_
  apply Keeps.andThen Keeps.look fun _ => ?_
  apply Keeps.andThen Keeps.require fun _ => ?_
  apply Keeps.andThen Keeps.look fun seen => ?_
  cases seen.2 with
  | none => exact Keeps.fail
  | some plan =>
    apply Keeps.andThen Keeps.require fun _ => ?_
    refine Keeps.andThen (Keeps.act (by exact fun _ => rfl)) fun _ => ?_
    apply Keeps.andThen (Keeps.attempt (Keeps.collect backUp_executable _ _) remove_executable) fun rows => ?_
    refine Keeps.andThen (Keeps.act (by exact fun _ => rfl)) fun _ => ?_
    refine Keeps.andThen (Keeps.note (by exact fun _ => rfl)) fun _ => ?_
    apply Keeps.attempt
    · exact Keeps.andThen (Keeps.each put_executable rows) fun _ => Keeps.act fun _ => rfl
    · apply Keeps.andThen Keeps.recollect fun installed => ?_
      apply Keeps.andThen ?_ fun _ => mark_executable _
      exact Keeps.attempt (rollbackRows_keeps installed restore_executable) (mark_executable _)

theorem keepOriginal_executable (row : Adopted) : Keeps World.executable (pl.keepOriginal row) := by
  apply Keeps.andThen Keeps.look fun seen => ?_
  apply Keeps.andThen Keeps.require fun _ => ?_
  cases row.original with
  | none => exact Keeps.done
  | some path =>
    cases row.originalFile with
    | none => exact Keeps.done
    | some original =>
      cases seen.2 with
      | none => exact Keeps.fail
      | some current =>
        apply Keeps.andThen Keeps.require fun _ => ?_
        refine Keeps.andThen (Keeps.act (by exact fun _ => rfl)) fun _ => ?_
        apply Keeps.andThen Keeps.look fun _ => ?_
        exact Keeps.andThen Keeps.require fun _ => Keeps.done

theorem adopt_executable (args : AdoptArgs) : Keeps World.executable (pl.adopt args) := by
  apply Keeps.andThen Keeps.require fun _ => ?_
  apply Keeps.andThen Keeps.look fun seen => ?_
  cases seen.2 with
  | none => exact Keeps.fail
  | some pair =>
    apply Keeps.andThen Keeps.require fun _ => ?_
    refine Keeps.andThen (Keeps.act (by exact fun _ => rfl)) fun _ => ?_
    apply Keeps.andThen (Keeps.attempt (Keeps.collect keepOriginal_executable _ _) remove_executable) fun rows => ?_
    exact Keeps.act fun _ => rfl

theorem rollback_executable (confirmed clientRunning : Bool) :
    Keeps World.executable (pl.rollback confirmed clientRunning) := by
  apply Keeps.andThen Keeps.require fun _ => ?_
  apply Keeps.andThen Keeps.look fun found => ?_
  cases found with
  | none => exact Keeps.fail
  | some manifest =>
    apply Keeps.andThen Keeps.require fun _ => ?_
    apply Keeps.andThen Keeps.look fun _ => ?_
    apply Keeps.andThen Keeps.require fun _ => ?_
    refine Keeps.andThen ?_ fun _ => Keeps.act (by exact fun _ => rfl)
    apply Keeps.attempt
    · apply Keeps.andThen (rollbackRows_keeps _ restore_executable) fun _ => ?_
      exact Keeps.andThen Keeps.look fun _ => Keeps.require
    · exact mark_executable _

inductive Creates (admitted : Prop) (names : List String) (start : World) : World → Prop where
  | same : Creates admitted names start start
  | bare {world : World} : start.manifest = none → world.manifest = none →
      world.targets = start.targets → Creates admitted names start world
  | created {world : World} (manifest : Manifest) : admitted → start.manifest = none →
      world.manifest = some manifest → world.deploymentDir = true → manifest.targets = names →
      (∀ relative, relative ∉ names → world.targets relative = start.targets relative) →
      Creates admitted names start world

def Orderly (pl : Platform) (quiet : Prop) (start world : World) : Prop :=
  quiet → pl.Verified start → pl.Verified world

def Undisturbed (quiet : Prop) (moment : Moment World Kind) : Prop :=
  quiet → moment.fault = .proceeds

theorem verified_of_status {manifest : Manifest} {world : World}
    (written : world.manifest = some manifest) (different : manifest.status ≠ .installed) :
    pl.Verified world := by
  intro other found installed
  rw [written] at found
  cases found
  exact absurd installed different

theorem verified_of_none {world : World} (none : world.manifest = none) : pl.Verified world := by
  intro other found
  rw [none] at found
  cases found

theorem verifyManifest_congr {other : Platform} (sum : other.sha256 = pl.sha256) {manifest : Manifest} {one two : World}
    (targets : ∀ target ∈ manifest.targets, two.targets target = one.targets target)
    (executable : two.executable = one.executable) (backups : two.backups = one.backups) :
    other.verifyManifest manifest two = pl.verifyManifest manifest one := by
  have rows : (manifest.files.all fun row =>
        decide (other.shaOf (two.targets row.relativeTarget) = some row.installedSha256)) =
      manifest.files.all fun row =>
        decide (pl.shaOf (one.targets row.relativeTarget) = some row.installedSha256) := by
    rw [Bool.eq_iff_iff, all_eq_true, all_eq_true]
    refine forall₂_congr fun row member => ?_
    rw [targets _ (mem_map_of_mem member)]
    unfold shaOf
    rw [sum]
  unfold verifyManifest verifyBackups
  rw [rows, executable, backups, sum]

section Leaves

variable {quiet : Prop} {names : List String} {start : World}

variable {manifest : Manifest} {world : World}

theorem Held.creates {admitted : Prop}
    (held : pl.Held start.targets manifest world) (admits : admitted) (none : start.manifest = none)
    (named : manifest.files.map Row.relativeTarget = names) :
    Creates admitted names start world := by
  refine Creates.created manifest admits none held.written held.directory named ?_
  intro relative unlisted
  exact held.others relative (named ▸ unlisted)

theorem disturbed_stops {fault : Fault} {kind : Kind} (faulty : fault ≠ .proceeds)
    (allowed : Undisturbed quiet ⟨world, kind, fault⟩) (after : World) :
    pl.Orderly quiet start after :=
  fun calm => absurd (allowed calm) faulty

theorem install_creates (quiet : Prop) (args : InstallArgs)
    (fresh : start.deploymentDir = false → start.manifest = none) :
    let post : World → Prop := fun world =>
      Creates (pl.Admits args start) (args.file.map Prod.snd) start world ∧ pl.Orderly quiet start world
    Meets (Undisturbed quiet) (fun world => world = start) (pl.install args) ⟨fun _ => post, post, post⟩ := by
  intro post
  have none : pl.Admits args start → start.manifest = none := fun admits => fresh admits.ready.fresh
  have held : pl.Admits args start → ∀ (manifest : Manifest) (status : Status) (world : World),
      manifest.files.map Row.relativeTarget = args.file.map Prod.snd →
      pl.Held start.targets { manifest with status := status } world →
      pl.Orderly quiet start world → post world :=
    fun admits _ _ _ named held orderly => ⟨held.creates admits (none admits) named, orderly⟩
  have meets : Meets (Undisturbed quiet) (fun world => world = start) (pl.install args)
      ⟨fun _ world => post world ∧ pl.Delivered args start world, post, post⟩ := by
    apply install_meets args start ⟨Creates.same, fun _ good => good⟩
    · exact fun admits => ⟨none admits, rfl, rfl, rfl⟩
    · exact fun admits world bare => ⟨Creates.bare (none admits) bare.manifest bare.targets,
        fun _ _ => verified_of_none bare.manifest⟩
    · exact fun admits manifest named world was => held admits manifest _ world named was
        fun _ _ => verified_of_status was.written (by decide : Status.prepared ≠ .installed)
    · intro admits manifest named
      constructor
      · rintro world kind ⟨status, -, was⟩ allowed
        exact held admits manifest _ world named was (disturbed_stops (by decide) allowed world)
      · rintro world ⟨status, -, was⟩ allowed
        exact held admits manifest _ world named was (disturbed_stops (by decide) allowed world)
      · intro status world different was _
        exact held admits manifest _ world named was fun _ _ => verified_of_status was.written different
    · intro admits manifest named world was installed
      refine held admits manifest _ world named was fun _ _ other found status => ?_
      rw [was.written] at found
      cases found
      have checked := was.checked (Or.inr ⟨rfl, installed⟩)
      exact checked
  exact meets.consequence (fun _ _ holds => holds.1) (fun _ holds => holds) fun _ holds => holds

theorem adopt_creates (quiet : Prop) (args : AdoptArgs) (fresh : start.deploymentDir = false → start.manifest = none) :
    let post : World → Prop := fun world =>
      Creates (pl.AdmitsAdoption args start) (args.installed.map Prod.fst) start world ∧ pl.Orderly quiet start world
    Meets (Undisturbed quiet) (fun world => world = start) (pl.adopt args) ⟨fun _ => post, post, post⟩ := by
  intro post
  have none : pl.AdmitsAdoption args start → start.manifest = none :=
    fun admits => fresh admits.ready.fresh
  apply adopt_meets args start ⟨Creates.same, fun _ good => good⟩
  · exact fun admits => ⟨none admits, rfl, rfl, rfl⟩
  · exact fun admits world bare => ⟨Creates.bare (none admits) bare.manifest bare.targets,
      fun _ _ => verified_of_none bare.manifest⟩
  · intro admits manifest status named world same held installed
    refine ⟨Creates.created manifest admits (none admits) held.written held.directory named
      fun relative _ => congrFun same relative, fun _ _ other found _ => ?_⟩
    rw [held.written] at found
    cases found
    have checked := held.checked (Or.inr ⟨status, installed⟩)
    rw [status] at checked
    exact checked

inductive Works (start : World) : World → Prop where
  | same : Works start start
  | worked {world : World} (manifest : Manifest) (status : Status) :
      start.manifest = some manifest → ¬ settled manifest.status →
      world.manifest = some { manifest with status := status } →
      world.deploymentDir = start.deploymentDir → world.backups = start.backups →
      (∀ relative, relative ∉ manifest.targets → world.targets relative = start.targets relative) →
      Works start world

/-- In the middle of a rollback: only targets of the manifest have changed. -/
structure Touched (start : World) (manifest : Manifest) (world : World) : Prop where
  was : start.manifest = some manifest
  active : ¬ settled manifest.status
  written : world.manifest = some manifest
  directory : world.deploymentDir = start.deploymentDir
  backups : world.backups = start.backups
  others : ∀ relative, relative ∉ manifest.targets → world.targets relative = start.targets relative

theorem Touched.works (touched : Touched start manifest world) : Works start world :=
  Works.worked manifest manifest.status touched.was touched.active touched.written
    touched.directory touched.backups touched.others

theorem Touched.restore (touched : Touched start manifest world) {row : Row} (member : row ∈ manifest.files) :
    Touched start manifest (restore row world) := by
  have apart : ∀ relative, relative ∉ manifest.targets → relative ≠ row.relativeTarget := by
    rintro _ unlisted rfl
    exact unlisted (mem_map_of_mem member)
  unfold Platform.restore
  split
  · split
    · refine ⟨touched.was, touched.active, touched.written, touched.directory, touched.backups, ?_⟩
      intro relative unlisted
      exact (update_of_ne (apart relative unlisted) _ _).trans (touched.others relative unlisted)
    · exact touched
  · refine ⟨touched.was, touched.active, touched.written, touched.directory, touched.backups, ?_⟩
    intro relative unlisted
    exact (update_of_ne (apart relative unlisted) _ _).trans (touched.others relative unlisted)

theorem Touched.mark (status : Status) (different : status ≠ .installed) :
    let post : World → Prop := fun world => Works start world ∧ pl.Orderly quiet start world
    Meets (Undisturbed quiet) (Touched start manifest)
      (act .manifest (writeManifest { manifest with status := status }))
      ⟨fun _ => post, post, post⟩ := by
  intro post
  have written : ∀ world, Touched start manifest world →
      post (writeManifest { manifest with status := status } world) := by
    intro world touched
    refine ⟨Works.worked manifest status touched.was touched.active rfl touched.directory
      touched.backups touched.others, fun _ _ => ?_⟩
    have found : (writeManifest { manifest with status := status } world).manifest =
        some { manifest with status := status } := rfl
    exact verified_of_status found different
  apply Meets.act written
  · exact fun world touched allowed =>
      ⟨touched.works, disturbed_stops (by decide) allowed world⟩
  · exact written
  · exact fun world touched allowed =>
      ⟨touched.works, disturbed_stops (by decide) allowed world⟩

theorem rollbackRows_touch (rows : List Row) (listed : ∀ row ∈ rows, row ∈ manifest.files) :
    Meets (Undisturbed quiet) (Touched start manifest) (pl.rollbackRows rows)
      ⟨fun _ => Touched start manifest, Touched start manifest,
        fun world => Works start world ∧ pl.Orderly quiet start world⟩ := by
  have kills : ∀ world kind, Touched start manifest world → Undisturbed quiet ⟨world, kind, .kills⟩ →
      Works start world ∧ pl.Orderly quiet start world :=
    fun world _ touched allowed => ⟨touched.works, disturbed_stops (by decide) allowed world⟩
  refine Meets.lookThen (fun _ touched => touched) (fun world touched => kills world _ touched) fun _ _ => ?_
  refine Meets.requireThen (fun _ touched => touched) fun _ => ?_
  have reversed : ∀ row ∈ rows.reverse, row ∈ manifest.files :=
    fun row member => listed row (mem_reverse.mp member)
  generalize rows.reverse = items at reversed
  induction items with
  | nil => exact Meets.done fun _ touched => touched
  | cons row rest ih =>
    have member := reversed row mem_cons_self
    refine Meets.andThen (fun _ => Touched start manifest) ?_
      fun _ => ih fun other inside => reversed other (mem_cons_of_mem _ inside)
    exact Meets.act (fun _ touched => touched.restore member) (fun _ touched _ => touched)
      (fun _ touched => touched.restore member) fun world touched => kills world _ touched

theorem rollback_works (quiet : Prop) (confirmed clientRunning : Bool) :
    let post : World → Prop := fun world => Works start world ∧ pl.Orderly quiet start world
    Meets (Undisturbed quiet) (fun world => world = start) (pl.rollback confirmed clientRunning)
      ⟨fun _ => post, post, post⟩ := by
  intro post
  have here : ∀ world, world = start → post world := by
    rintro _ rfl
    exact ⟨Works.same, fun _ good => good⟩
  have kills : ∀ manifest world kind, Touched start manifest world →
      Undisturbed quiet ⟨world, kind, .kills⟩ → post world :=
    fun _ world _ touched allowed => ⟨touched.works, disturbed_stops (by decide) allowed world⟩
  refine Meets.requireThen here fun _ => ?_
  refine Meets.lookThen here (fun world same _ => here world same) fun seen same => ?_
  rw [same]
  cases found : start.manifest with
  | none => exact Meets.fail here
  | some manifest =>
    refine Meets.requireThen here fun active => ?_
    refine Meets.lookThen here (fun world same _ => here world same) fun _ _ => ?_
    refine Meets.requireThen here fun _ => ?_
    have touched : ∀ world, world = start → Touched start manifest world := by
      rintro _ rfl
      refine ⟨found, ?_, found, rfl, rfl, fun _ _ => rfl⟩
      rintro (closed | closed) <;> rw [closed] at active <;> cases active
    refine Meets.weaken ?_ touched
    refine Meets.andThen (fun _ => Touched start manifest) ?_ fun _ => Touched.mark .rolledBack (by decide)
    apply Meets.attempt (Touched start manifest)
    · refine Meets.andThen (fun _ => Touched start manifest)
        (rollbackRows_touch manifest.files fun _ member => member) fun _ => ?_
      refine Meets.lookThen (fun _ touched => touched) (fun world touched => kills manifest world _ touched) fun _ _ => ?_
      exact Meets.require (fun _ _ touched => touched) fun _ _ touched => touched
    · exact Meets.andThen _ (Touched.mark .failedRollbackRequired (by decide)) fun _ => Meets.fail fun _ ended => ended

end Leaves

end Platform

structure Ordered (host : Host) (history : History) : Prop extends Apart host history where
  listed : ∀ deployment, (history.state.deployments deployment).manifest ≠ none → deployment ∈ history.state.listing

section Keeping

open Platform

variable {host : Host} {state : StateRoot} {deployment gameRoot : String} {world : World}

@[simp] theorem keep_deployments_self : (Host.keep state deployment gameRoot world).deployments deployment =
      { gameRoot :=
          if (state.deployments deployment).manifest.isSome then
            (state.deployments deployment).gameRoot
          else gameRoot
        backups := world.backups
        manifest := world.manifest } :=
  update_self _ _ _

variable {other : String}

theorem keep_deployments_other (apart : other ≠ deployment) :
    (Host.keep state deployment gameRoot world).deployments other = state.deployments other :=
  update_of_ne apart _ _

theorem keep_listing (apart : other ≠ deployment) (listed : other ∈ state.listing) :
    other ∈ (Host.keep state deployment gameRoot world).listing := by
  apply mem_append_left
  rw [mem_filter]
  exact ⟨listed, decide_eq_true apart⟩

theorem keep_executables (same : world.executable = state.executables gameRoot) :
    (Host.keep state deployment gameRoot world).executables = state.executables := by
  unfold Host.keep
  rw [same, Function.update_eq_self]

theorem keep_targets_other {root : String} (apart : root ≠ gameRoot) :
    (Host.keep state deployment gameRoot world).targets root = state.targets root :=
  update_of_ne apart _ _

@[simp] theorem keep_targets_self : (Host.keep state deployment gameRoot world).targets gameRoot = world.targets :=
  update_self _ _ _

theorem verified_frame {other : StateRoot} {root : String}
    (good : (host.platform deployment root []).Verified (host.view state deployment root))
    (record : (other.deployments deployment).manifest = (state.deployments deployment).manifest)
    (backups : (other.deployments deployment).backups = (state.deployments deployment).backups)
    (executables : other.executables root = state.executables root)
    (targets : ∀ manifest, (state.deployments deployment).manifest = some manifest → manifest.status = .installed →
      ∀ target ∈ manifest.targets, other.targets root target = state.targets root target) :
    (host.platform deployment root []).Verified (host.view other deployment root) := by
  intro manifest written installed
  have was : (state.deployments deployment).manifest = some manifest := record.symm.trans written
  rw [← good manifest was installed]
  exact verifyManifest_congr rfl (targets manifest was installed) executables backups

variable {history : History} {interrupted : List String}

/-- What a call leaves is in order, if it touches no target of the other active deployments and its
own deployment is in order. -/
theorem Ordered.keep (ordered : Ordered host history) (more : ∀ one ∈ history.interrupted, one ∈ interrupted)
    (executable : world.executable = history.state.executables gameRoot)
    (others : ∀ other manifest, other ≠ deployment →
      (history.state.deployments other).manifest = some manifest → ¬ settled manifest.status →
      (history.state.deployments other).gameRoot = gameRoot → ∀ target ∈ manifest.targets,
        world.targets target = history.state.targets gameRoot target)
    (directory : world.manifest ≠ none → world.deploymentDir = true)
    (healthy : deployment ∉ interrupted →
      let after := Host.keep history.state deployment gameRoot world
      let root := (after.deployments deployment).gameRoot
      (host.platform deployment root []).Verified (host.view after deployment root))
    (disjoint : ∀ own other manifest, world.manifest = some own → ¬ settled own.status →
      other ≠ deployment → (history.state.deployments other).manifest = some manifest →
      ¬ settled manifest.status → (history.state.deployments other).gameRoot =
        ((Host.keep history.state deployment gameRoot world).deployments deployment).gameRoot →
      ∀ target ∈ manifest.targets, target ∉ own.targets) :
    Ordered host ⟨Host.keep history.state deployment gameRoot world, interrupted⟩ := by
  have recorded : ∀ {manifest : Manifest},
      ((Host.keep history.state deployment gameRoot world).deployments deployment).manifest =
        some manifest → world.manifest = some manifest := by
    intro manifest found
    rw [keep_deployments_self] at found
    exact found
  refine ⟨⟨fun one calm => ?_, fun one two first second different foundOne foundTwo => ?_⟩, fun one found => ?_⟩
  · by_cases own : one = deployment
    · subst own
      exact healthy calm
    · simp only [keep_deployments_other own]
      apply verified_frame (ordered.healthy one fun was => calm (more one was))
      · rw [keep_deployments_other own]
      · rw [keep_deployments_other own]
      · rw [keep_executables executable]
      · intro manifest written installed target member
        by_cases here : (history.state.deployments one).gameRoot = gameRoot
        · have active : ¬ settled manifest.status := by
            rw [installed]
            decide
          rw [here, keep_targets_self]
          exact others one manifest own written active here target member
        · rw [keep_targets_other here]
  · intro activeOne activeTwo roots target memberOne memberTwo
    simp only at foundOne foundTwo roots
    by_cases ownOne : one = deployment
    · subst ownOne
      have apart : two ≠ one := fun same => different same.symm
      rw [keep_deployments_other apart] at foundTwo roots
      exact disjoint first two second (recorded foundOne) activeOne apart foundTwo activeTwo
        roots.symm target memberTwo memberOne
    · rw [keep_deployments_other ownOne] at foundOne roots
      by_cases ownTwo : two = deployment
      · subst ownTwo
        exact disjoint second one first (recorded foundTwo) activeTwo ownOne foundOne activeOne
          roots target memberOne memberTwo
      · rw [keep_deployments_other ownTwo] at foundTwo roots
        exact ordered.disjoint one two first second different foundOne foundTwo activeOne activeTwo
          roots target memberOne memberTwo
  · by_cases own : one = deployment
    · subst own
      rw [keep_deployments_self] at found
      apply mem_append_right
      rw [if_pos (directory found)]
      exact mem_singleton.mpr rfl
    · simp only [keep_deployments_other own] at found
      exact keep_listing own (ordered.listed one found)

/-- The record of a deployment whose game directory did not change is what the call has left. -/
theorem keep_verified (root : ((Host.keep state deployment gameRoot world).deployments deployment).gameRoot = gameRoot)
    (good : (host.platform deployment gameRoot []).Verified world) :
    let after := Host.keep state deployment gameRoot world
    let root := (after.deployments deployment).gameRoot
    (host.platform deployment root []).Verified (host.view after deployment root) := by
  intro after root_ manifest written installed
  have same : root_ = gameRoot := root
  have found : world.manifest = some manifest := by
    change (after.deployments deployment).manifest = some manifest at written
    rw [keep_deployments_self] at written
    exact written
  rw [← good manifest found installed]
  apply verifyManifest_congr rfl
  · intro target _
    change after.targets root_ target = world.targets target
    rw [same, keep_targets_self]
  · change after.executables root_ = world.executable
    rw [same]
    exact update_self _ _ _
  · change (after.deployments deployment).backups = world.backups
    rw [keep_deployments_self]

theorem Ordered.unchanged (ordered : Ordered host history) (more : ∀ one ∈ history.interrupted, one ∈ interrupted) :
    Ordered host ⟨Host.keep history.state deployment gameRoot
      (host.view history.state deployment gameRoot), interrupted⟩ := by
  have roots : (history.state.deployments deployment).manifest ≠ none → ((Host.keep history.state deployment gameRoot
        (host.view history.state deployment gameRoot)).deployments deployment).gameRoot =
      (history.state.deployments deployment).gameRoot := by
    intro some_
    rw [keep_deployments_self]
    exact if_pos (Option.isSome_iff_ne_none.mpr some_)
  apply ordered.keep more rfl
  · exact fun _ _ _ _ _ _ _ _ => rfl
  · exact fun found => decide_eq_true (ordered.listed deployment found)
  · intro calm after root
    by_cases none : (history.state.deployments deployment).manifest = none
    · apply verified_of_none
      change (after.deployments deployment).manifest = Option.none
      rw [keep_deployments_self]
      exact none
    · have same : root = (history.state.deployments deployment).gameRoot := roots none
      rw [same]
      apply verified_frame (ordered.healthy deployment fun was => calm (more deployment was))
      · rw [keep_deployments_self]
        rfl
      · rw [keep_deployments_self]
        rfl
      · rw [keep_executables rfl]
      · intro manifest _ _ target _
        by_cases here : (history.state.deployments deployment).gameRoot = gameRoot
        · rw [here, keep_targets_self]
          rfl
        · rw [keep_targets_other here]
  · intro own other manifest found active apart written unsettled root target member listed
    have was : (history.state.deployments deployment).manifest = some own := found
    rw [roots (by rw [was]; exact Option.some_ne_none _)] at root
    exact ordered.disjoint other deployment manifest own apart written was unsettled active root target member listed

theorem Ordered.creates (ordered : Ordered host history) {admitted : Prop} {names : List String}
    (creates : Creates admitted names (host.view history.state deployment gameRoot) world)
    (executable : world.executable = history.state.executables gameRoot)
    (free : admitted → ∀ other manifest, other ≠ deployment →
      (history.state.deployments other).manifest = some manifest → ¬ settled manifest.status →
      (history.state.deployments other).gameRoot = gameRoot →
      ∀ target ∈ manifest.targets, target ∉ names)
    (more : ∀ one ∈ history.interrupted, one ∈ interrupted)
    (good : deployment ∉ interrupted → world.manifest ≠ none → (host.platform deployment gameRoot []).Verified
        (host.view history.state deployment gameRoot) →
      (host.platform deployment gameRoot []).Verified world) :
    Ordered host ⟨Host.keep history.state deployment gameRoot world, interrupted⟩ := by
  have written : (history.state.deployments deployment).manifest = none →
      ((Host.keep history.state deployment gameRoot world).deployments deployment).gameRoot =
        gameRoot := by
    intro none
    rw [keep_deployments_self, none]
    rfl
  cases creates with
  | same => exact ordered.unchanged more
  | bare was none targets =>
    apply ordered.keep more executable
    · exact fun _ _ _ _ _ _ target _ => congrFun targets target
    · exact fun found => absurd none found
    · exact fun _ => keep_verified (written was) (verified_of_none none)
    · intro own other manifest found
      rw [none] at found
      cases found
  | created manifest admits was found directory named others =>
    apply ordered.keep more executable
    · exact fun other old apart recorded active root target member =>
        others target (free admits other old apart recorded active root target member)
    · exact fun _ => directory
    · intro calm
      apply keep_verified (written was)
      exact good calm (by rw [found]; exact Option.some_ne_none _) (verified_of_none was)
    · intro own other old recorded active apart there unsettled root target member
      rw [found] at recorded
      cases recorded
      rw [named]
      rw [written was] at root
      exact free admits other old apart there unsettled root target member

theorem Ordered.works (ordered : Ordered host history) (works : Works (host.view history.state deployment
      (history.state.deployments deployment).gameRoot) world) (executable : world.executable =
      history.state.executables (history.state.deployments deployment).gameRoot)
    (more : ∀ one ∈ history.interrupted, one ∈ interrupted)
    (good : deployment ∉ interrupted → world.manifest ≠ none →
      let root := (history.state.deployments deployment).gameRoot
      (host.platform deployment root []).Verified (host.view history.state deployment root) →
      (host.platform deployment root []).Verified world) :
    Ordered host ⟨Host.keep history.state deployment
      (history.state.deployments deployment).gameRoot world, interrupted⟩ := by
  cases works with
  | same => exact ordered.unchanged more
  | worked manifest status was active found directory backups others =>
    have recorded : (history.state.deployments deployment).manifest = some manifest := was
    have root : ((Host.keep history.state deployment
        (history.state.deployments deployment).gameRoot world).deployments deployment).gameRoot =
        (history.state.deployments deployment).gameRoot := by
      rw [keep_deployments_self]
      exact ite_self _
    apply ordered.keep more executable
    · intro other old apart there unsettled roots target member
      exact others target (ordered.disjoint other deployment old manifest apart there recorded
        unsettled active roots target member)
    · intro _
      rw [directory]
      exact decide_eq_true (ordered.listed deployment (by rw [recorded]; exact Option.some_ne_none _))
    · intro calm
      apply keep_verified root
      apply good calm (by rw [found]; exact Option.some_ne_none _)
      exact ordered.healthy deployment fun old => calm (more deployment old)
    · intro own other old there _ apart there_ unsettled roots target member
      rw [found] at there
      cases there
      rw [root] at roots
      exact ordered.disjoint other deployment old manifest apart there_ recorded unsettled active roots target member

/-- What the collisions leave free is free of installed deployments. -/
theorem activeCollisions_free {targets : List String}
    (free : (!(Host.activeCollisions state deployment gameRoot targets).isEmpty) = false)
    {manifest : Manifest} (apart : other ≠ deployment) (listed : other ∈ state.listing)
    (written : (state.deployments other).manifest = some manifest)
    (installed : manifest.status = .installed)
    (root : (state.deployments other).gameRoot = gameRoot) {target : String}
    (member : target ∈ manifest.targets) : target ∉ targets := by
  intro wanted
  have empty : Host.activeCollisions state deployment gameRoot targets = [] := by
    simpa using free
  unfold Host.activeCollisions at empty
  rw [flatMap_eq_nil_iff] at empty
  have none := empty other listed
  simp only [Host.overlap, written] at none
  rw [if_pos ⟨apart, installed, root⟩, map_eq_nil_iff] at none
  have found : target ∈ (targets.filter fun target =>
      decide (target ∈ manifest.targets)).insertionSort (· ≤ ·) := by
    rw [mem_insertionSort, mem_filter]
    exact ⟨wanted, decide_eq_true member⟩
  rw [none] at found
  cases found

/-- Free of installed deployments and of unfinished ones is free of all active ones. -/
theorem Ordered.free (ordered : Ordered host history) {targets : List String}
    (free : (!(Host.activeCollisions history.state deployment gameRoot targets).isEmpty) = false)
    (clear : ¬ Unfinished history.state deployment gameRoot targets) (other : String)
    (manifest : Manifest) (apart : other ≠ deployment)
    (written : (history.state.deployments other).manifest = some manifest)
    (active : ¬ settled manifest.status)
    (root : (history.state.deployments other).gameRoot = gameRoot) :
    ∀ target ∈ manifest.targets, target ∉ targets := by
  intro target member wanted
  have listed := ordered.listed other (by rw [written]; exact Option.some_ne_none _)
  have open_ : recovering manifest.status = true → False := fun open_ =>
    clear ⟨other, manifest, apart, written, open_, root, target, wanted, member⟩
  cases status : manifest.status with
  | prepared => exact open_ (by rw [status]; rfl)
  | failedRollbackRequired => exact open_ (by rw [status]; rfl)
  | installed => exact activeCollisions_free free apart listed written status root member wanted
  | rolledBack => exact active (Or.inl status)
  | failedRolledBack => exact active (Or.inr status)

theorem undisturbed (trace : List (Moment World Kind)) :
    ∀ moment ∈ trace, Undisturbed (disturbed trace = false) moment := by
  intro moment member calm
  unfold disturbed at calm
  rw [any_eq_false] at calm
  simpa using calm moment member

/-- One call, whatever happens in it, keeps the deployments apart. -/
theorem Ordered.next (ordered : Ordered host history)
    (call : Command × List Fault) (clear : Clear host history.state call.1) :
    Ordered host (history.next host call) := by
  obtain ⟨command, plan⟩ := call
  have fresh : ∀ deployment gameRoot, (host.view history.state deployment gameRoot).deploymentDir = false →
      (host.view history.state deployment gameRoot).manifest = none := by
    intro deployment gameRoot absent
    by_contra found
    exact of_decide_eq_false absent (ordered.listed deployment found)
  have more : ∀ one ∈ history.interrupted, one ∈ (history.next host (command, plan)).interrupted := by
    intro one member
    simp only [History.next]
    split
    · exact mem_cons_of_mem _ member
    · exact member
  -- A deployment that has a manifest and is not listed was not disturbed by this call.
  have calm : command.deployment ∉ (history.next host (command, plan)).interrupted →
      (host.perform history.state command plan).world.manifest ≠ none →
      disturbed (host.perform history.state command plan).trace = false := by
    intro unlisted found
    by_contra noisy
    apply unlisted
    simp only [History.next]
    rw [if_pos]
    · exact mem_cons_self
    · rw [Bool.and_eq_true]
      exact ⟨Option.isSome_iff_ne_none.mpr found, Bool.eq_true_of_not_eq_false noisy⟩
  cases command with
  | install deployment gameRoot args =>
    have ends := (install_creates (disturbed (host.perform history.state
        (.install deployment gameRoot args) plan).trace = false)
      (Host.installArgs history.state deployment gameRoot args) (fresh deployment gameRoot)).always
      rfl (undisturbed _)
    refine ordered.creates ends.1 (install_executable _ plan _) ?_ more ?_
    · intro admits
      exact ordered.free admits.ready.free (clear admits)
    · exact fun unlisted found => ends.2 (calm unlisted found)
  | adopt deployment gameRoot args =>
    have ends := (adopt_creates (disturbed (host.perform history.state
        (.adopt deployment gameRoot args) plan).trace = false)
      (Host.adoptArgs history.state deployment gameRoot args) (fresh deployment gameRoot)).always
      rfl (undisturbed _)
    refine ordered.creates ends.1 (adopt_executable _ plan _) ?_ more ?_
    · intro admits
      exact ordered.free admits.ready.free (clear admits)
    · exact fun unlisted found => ends.2 (calm unlisted found)
  | rollback deployment confirmed clientRunning =>
    have ends := (rollback_works (disturbed (host.perform history.state
        (.rollback deployment confirmed clientRunning) plan).trace = false) confirmed
      clientRunning).always rfl (undisturbed _)
    refine ordered.works ends.1 (rollback_executable _ _ plan _) more ?_
    exact fun unlisted found => ends.2 (calm unlisted found)

end Keeping

variable {host : Host} {history : History}

theorem run_ordered (calls : List (Command × List Fault))
    (ordered : Ordered host history) (clear : Cleared host calls history) :
    Ordered host (host.run calls history) := by
  induction calls generalizing history with
  | nil => exact ordered
  | cons call rest ih => exact ih (ordered.next call clear.1) clear.2

theorem Cleared.append {first second : List (Command × List Fault)} (clear : Cleared host (first ++ second) history) :
    Cleared host first history := by
  induction first generalizing history with
  | nil => trivial
  | cons call rest ih => exact ⟨clear.1, ih clear.2⟩

theorem StateRoot.Vacant.ordered {state : StateRoot} (vacant : state.Vacant) : Ordered host ⟨state, []⟩ where
  healthy deployment _ := Platform.verified_of_none (vacant.2 deployment)
  disjoint one _ first _ _ found := by
    rw [vacant.2 one] at found
    cases found
  listed deployment found := absurd (vacant.2 deployment) found

/-- From a state root without deployments, after each of any number of calls, whatever failed or was
killed in them, the deployments are apart, as long as no install or adoption began on a target of an
unfinished deployment. -/
theorem deployments_apart (host : Host) (state : StateRoot) (vacant : state.Vacant)
    (calls : List (Command × List Fault)) (clear : Cleared host calls ⟨state, []⟩) :
    ∀ passed, passed <+: calls → Apart host (host.run passed ⟨state, []⟩) := by
  rintro passed ⟨left, rfl⟩
  exact (run_ordered passed vacant.ordered clear.append).toApart

def Host.passes (host : Host) (state : StateRoot) (deployment : String) : Bool :=
  let entry := state.deployments deployment
  match entry.manifest with
  | none => true
  | some manifest =>
    manifest.status ≠ .installed || (host.platform deployment entry.gameRoot []).verifyManifest manifest
        (host.view state deployment entry.gameRoot)

theorem Apart.passes (apart : Apart host history) {deployment : String} (calm : deployment ∉ history.interrupted) :
    host.passes history.state deployment = true := by
  unfold Host.passes
  dsimp only
  split
  · rfl
  · rename_i manifest found
    rw [Bool.or_eq_true, decide_eq_true_eq, or_iff_not_imp_left]
    intro installed
    exact apart.healthy deployment calm manifest found (not_ne_iff.mp installed)

def workbench : Host where
  sha256 bytes := String.ofList (bytes.map fun byte => Char.ofNat byte.toNat)
  located _ := none
  planSha256 _ _ _ plan := String.join (plan.files.map Planned.sourceSha256)

def unmodded : StateRoot where
  targets _ _ := none
  sources path := if path = "/probe/version.dll" then some ⟨[97], 0o600⟩ else none
  executables _ := some [99]
  listing := []
  deployments _ := ⟨"", fun _ => none, none⟩

def probe (deployment : String) : Command :=
  .install deployment "/game"
    { confirmed := true
      validId := true
      clientRunning := false
      collisions := false
      file := [("/probe/version.dll", "DuneSandbox/Binaries/Win64/version.dll")]
      expectPlanSha256 := "a" }

def killedInstall (deployment : String) : Command × List Fault :=
  (probe deployment, List.replicate 5 .proceeds ++ [.kills])

def crossing : List (Command × List Fault) :=
  [killedInstall "one", (probe "two", []), (.rollback "one" true false, [])]

def inTurn : List (Command × List Fault) :=
  [killedInstall "one", (.rollback "one" true false, []), (probe "two", [])]

theorem unmodded_vacant : unmodded.Vacant := ⟨rfl, fun _ => rfl⟩

theorem recovery_removes_installed_file :
    unmodded.Vacant ∧ ¬ Apart workbench (workbench.run crossing ⟨unmodded, []⟩) := by
  refine ⟨unmodded_vacant, fun apart => ?_⟩
  have calm : "two" ∉ (workbench.run crossing ⟨unmodded, []⟩).interrupted := by decide
  have broken : workbench.passes (workbench.run crossing ⟨unmodded, []⟩).state "two" = false := by
    decide
  rw [apart.passes calm] at broken
  cases broken

theorem step_other {state : StateRoot} {command : Command} {plan : List Fault}
    {other : String} (apart : other ≠ command.deployment) :
    (host.step state command plan).deployments other = state.deployments other :=
  keep_deployments_other apart

theorem inTurn_cleared : Cleared workbench inTurn ⟨unmodded, []⟩ := by
  refine ⟨?_, trivial, ?_, trivial⟩
  · rintro - ⟨_, _, -, written, -⟩
    cases written
  · rintro - ⟨other, manifest, -, written, open_, -⟩
    by_cases one : other = "one"
    · subst one
      have closed : ((workbench.run (inTurn.take 2) ⟨unmodded, []⟩).state.deployments
          "one").manifest.map Manifest.status = some .rolledBack := by
        decide
      have status : manifest.status = .rolledBack := by
        rw [show ((workbench.run (inTurn.take 2) ⟨unmodded, []⟩).state.deployments
          "one").manifest = some manifest from written] at closed
        exact Option.some.inj closed
      rw [status] at open_
      cases open_
    · have absent : ((workbench.run (inTurn.take 2) ⟨unmodded, []⟩).state.deployments other).manifest = none := by
        change ((workbench.step (workbench.step unmodded (killedInstall "one").1
          (killedInstall "one").2) (.rollback "one" true false) []).deployments other).manifest = none
        rw [step_other one, step_other one]
        rfl
      rw [show ((workbench.run (inTurn.take 2) ⟨unmodded, []⟩).state.deployments
        other).manifest = some manifest from written] at absent
      cases absent

theorem inTurn_apart : Apart workbench (workbench.run inTurn ⟨unmodded, []⟩) ∧
      (workbench.run inTurn ⟨unmodded, []⟩).state.targets "/game"
        "DuneSandbox/Binaries/Win64/version.dll" = some ⟨[97], 0o644⟩ :=
  ⟨deployments_apart workbench unmodded unmodded_vacant inTurn inTurn_cleared inTurn (prefix_refl _), by decide⟩

end Dash.Deployment
