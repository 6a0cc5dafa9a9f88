import Dash.Deployment.Recovery
import Dash.Foundation.Attempts
import Dash.Foundation.Table

/-! The two loops of an install, and the loop of an adoption, at each of their moments. -/

set_option autoImplicit false

namespace Dash.Deployment

open Dash.Foundation Dash.Foundation.Program List

namespace Platform

variable {pl : Platform}

structure Bare (start world : World) : Prop where
  manifest : world.manifest = none
  targets : world.targets = start.targets
  sources : world.sources = start.sources
  executable : world.executable = start.executable

variable {start world : World}

theorem Bare.fine (bare : Bare start world) : pl.Fine start.targets world:= by
  refine ⟨Or.inl ⟨bare.manifest, bare.targets⟩, ?_⟩
  rintro ⟨manifest, written, -⟩
  rw [bare.manifest] at written
  cases written

theorem Bare.fileAt (bare : Bare start world) : pl.fileAt world = pl.fileAt start:= by
  funext path
  unfold Platform.fileAt
  rw [bare.targets, bare.sources]

theorem Bare.copyBackup (bare : Bare start world) (relative : String)
    (bytes : Bytes) : Bare start (copyBackup relative bytes world) :=
  ⟨bare.manifest, bare.targets, bare.sources, bare.executable⟩

variable {before : String → Option File} {world : World} {row : Row}

theorem Restorable.copyBackup (restorable : pl.Restorable before world row) {relative : String} {bytes : Bytes}
    (apart : row.relativeTarget ≠ relative) :
    pl.Restorable before (copyBackup relative bytes world) row := by
  unfold Restorable Platform.copyBackup at *
  simpa only [Function.update_of_ne apart] using restorable

structure Backing (pl : Platform) (start : World) (names : List String) (left : List String)
    (before : String → Option File) (found : List Row) (world : World) : Prop where
  bare : Bare start world
  directory : world.deploymentDir = true
  names : found.map Row.relativeTarget ++ left = names
  restorable : ∀ row ∈ found, pl.Restorable before world row

variable {start : World}

theorem Backing.found {names left : List String} {relative : String} {found : List Row} {world after : World}
    (backing : pl.Backing start names (relative :: left) before found world) (nodup : names.Nodup)
    (target : row.relativeTarget = relative)
    (copied : after = world ∨ ∃ bytes, after = copyBackup relative bytes world)
    (restorable : pl.Restorable before after row) :
    pl.Backing start names left before (found ++ [row]) after := by
  have apart : ∀ other ∈ found, other.relativeTarget ≠ relative := by
    intro other member same
    rw [← backing.names, nodup_append] at nodup
    exact nodup.2.2 _ (mem_map_of_mem member) _ (mem_cons_self) same
  constructor
  · rcases copied with rfl | ⟨bytes, rfl⟩
    · exact backing.bare
    · exact backing.bare.copyBackup _ _
  · rcases copied with rfl | ⟨bytes, rfl⟩ <;> exact backing.directory
  · rw [map_append, append_assoc, map_singleton, target]
    exact backing.names
  · intro other member
    rcases mem_append.mp member with old | new
    · rcases copied with rfl | ⟨bytes, rfl⟩
      · exact backing.restorable other old
      · exact (backing.restorable other old).copyBackup (apart other old)
    · rw [mem_singleton.mp new]
      exact restorable

variable {allowed : Moment World Kind → Prop}

theorem remove_bare (returned : List Row → World → Prop) :
    Meets allowed (Bare start) (andThen (act .file removeDeployment) fun _ => fail)
      ⟨returned, Bare start, Bare start⟩ := by
  refine Meets.andThen (fun _ => Bare start) ?_ fun _ => Meets.fail fun _ bare => bare
  have removed : ∀ world, Bare start world → Bare start (removeDeployment world) :=
    fun _ bare => ⟨bare.manifest, bare.targets, bare.sources, bare.executable⟩
  exact Meets.act removed (fun _ bare _ => bare) removed fun _ bare _ => bare

/-- A row of `install` with the values of its plan. -/
def rowOf (planned : Planned) (original : Option Original) : Row :=
  ⟨planned.relativeTarget, planned.source, planned.sourceSha256, original⟩

def Follows {β : Type} (form : β → Option Original → Row) (items : List β) (found : List Row)
    (left : List β) : Prop :=
  ∃ taken, items = taken ++ left ∧ List.Forall₂ (fun item row => ∃ original, row = form item original) taken found

theorem Follows.next {β : Type} {form : β → Option Original → Row} {items left : List β}
    {found : List Row} {item : β} (follows : Follows form items found (item :: left))
    (original : Option Original) : Follows form items (found ++ [form item original]) left := by
  obtain ⟨taken, whole, rows⟩ := follows
  refine ⟨taken ++ [item], by rw [whole, append_assoc]; rfl, ?_⟩
  exact rel_append rows (List.Forall₂.cons ⟨original, rfl⟩ List.Forall₂.nil)

theorem Follows.member {β : Type} {form : β → Option Original → Row} {items left : List β}
    {found : List Row} {item : β} (follows : Follows form items found (item :: left)) :
    item ∈ items := by
  obtain ⟨taken, whole, -⟩ := follows
  rw [whole]
  exact mem_append_right _ (mem_cons_self)

theorem backUp_backs {planned : List Planned}
    (nodup : (planned.map Planned.relativeTarget).Nodup) (item : Planned) (left : List Planned)
    (found : List Row) :
    Meets allowed (fun world => Follows rowOf planned found (item :: left) ∧
        pl.Backing start (planned.map Planned.relativeTarget)
          ((item :: left).map Planned.relativeTarget) start.targets found world)
      (pl.backUp item)
      ⟨fun row world => Follows rowOf planned (found ++ [row]) left ∧
        pl.Backing start (planned.map Planned.relativeTarget) (left.map Planned.relativeTarget)
          start.targets (found ++ [row]) world, Bare start, Bare start⟩ := by
  let here : World → Prop := fun world => Follows rowOf planned found (item :: left) ∧
    pl.Backing start (planned.map Planned.relativeTarget)
      ((item :: left).map Planned.relativeTarget) start.targets found world
  have bare : ∀ world, here world → Bare start world := fun _ holds => holds.2.bare
  refine Meets.lookThen bare (fun world holds _ => bare world holds) fun seen held => ?_
  refine Meets.requireThen bare fun _ => ?_
  rw [held.2.bare.targets]
  cases was : start.targets item.relativeTarget with
  | none =>
    apply Meets.done
    rintro world ⟨follows, backing⟩
    exact ⟨follows.next none, backing.found nodup rfl (Or.inl rfl) was⟩
  | some file =>
    let saved : World → Prop := fun after => ∃ world, here world ∧
      after = copyBackup item.relativeTarget file.bytes world
    have copied : ∀ after, saved after → Bare start after := by
      rintro _ ⟨world, holds, rfl⟩
      exact holds.2.bare.copyBackup _ _
    refine Meets.andThen (fun _ => saved) ?_ fun _ => ?_
    · apply Meets.act
      · exact fun world holds => ⟨world, holds, rfl⟩
      · exact fun world holds _ => bare world holds
      · exact fun world holds => copied _ ⟨world, holds, rfl⟩
      · exact fun world holds _ => bare world holds
    refine Meets.lookThen copied (fun after holds _ => copied after holds) fun _ _ => ?_
    refine Meets.requireThen copied fun _ => ?_
    apply Meets.done
    rintro _ ⟨world, ⟨follows, backing⟩, rfl⟩
    refine ⟨follows.next _, backing.found nodup rfl (Or.inr ⟨_, rfl⟩) ?_⟩
    exact ⟨file.bytes, Function.update_self _ _ _, rfl, was⟩

theorem backUps_back {planned : List Planned} (nodup : (planned.map Planned.relativeTarget).Nodup) :
    Meets allowed (fun world => Bare start world ∧ world.deploymentDir = true)
      (attempt (collect pl.backUp [] planned) (andThen (act .file removeDeployment) fun _ => fail))
      ⟨fun rows world => Follows rowOf planned rows [] ∧
        pl.Backing start (planned.map Planned.relativeTarget) [] start.targets rows world,
        Bare start, Bare start⟩ := by
  apply Meets.attempt (Bare start)
  · apply (Meets.collect (fun left found world => Follows rowOf planned found left ∧
      pl.Backing start (planned.map Planned.relativeTarget) (left.map Planned.relativeTarget)
        start.targets found world) fun item left found => backUp_backs nodup item left found).weaken
    rintro world ⟨bare, directory⟩
    exact ⟨⟨[], rfl, List.Forall₂.nil⟩, bare, directory, rfl, fun row member => absurd member (not_mem_nil)⟩
  · exact remove_bare _

/-- What `install` has put at the target of a row: a file with its checksum, and with the bytes of
a source that is outside of the game directory. -/
def Placed (pl : Platform) (start world : World) (row : Row) : Prop :=
  ∃ bytes, world.targets row.relativeTarget = some ⟨bytes, 0o644⟩ ∧ pl.sha256 bytes = row.installedSha256 ∧
    (pl.inside row.source = none → ∃ source, start.sources row.source = some source ∧ source.bytes = bytes)

theorem Placed.installed (placed : pl.Placed start world row) : pl.Installed world row := by
  obtain ⟨bytes, target, sum, -⟩ := placed
  unfold Installed shaOf
  rw [target]
  exact congrArg some sum

/-- The second loop of `install`: the files of `installed` are in place, the others as before. -/
structure Putting (pl : Platform) (start : World) (manifest : Manifest) (left : List Row)
    (world : World) : Prop where
  held : pl.Held start.targets { manifest with status := .prepared } world
  sources : world.sources = start.sources
  rows : world.installed ++ left = manifest.files
  rest : ∀ row ∈ left, world.targets row.relativeTarget = start.targets row.relativeTarget
  placed : ∀ row ∈ world.installed, pl.Placed start world row

/-- An install that stopped: the files that are not in `installed` are as before. -/
structure Halted (pl : Platform) (before : String → Option File) (manifest : Manifest)
    (world : World) : Prop where
  restoring : pl.Restoring before manifest world.installed world
  listed : ∀ row ∈ world.installed, row ∈ manifest.files

variable {manifest : Manifest} {left : List Row}

theorem Putting.halted (putting : pl.Putting start manifest left world) : pl.Halted start.targets manifest world := by
  refine ⟨⟨⟨.prepared, by decide, putting.held⟩, ?_⟩, ?_⟩
  · intro row member gone
    rw [← putting.rows] at member
    exact putting.rest row ((mem_append.mp member).resolve_left gone)
  · intro row member
    rw [← putting.rows]
    exact mem_append_left _ member

def listed (row : Row) (world : World) : World :=
  { world with installed := world.installed ++ [row] }

theorem Held.listed (held : pl.Held before manifest world) (row : Row) : pl.Held before manifest (listed row world) :=
  ⟨held.written, held.directory, held.distinct, held.executable, held.restorable, held.targets, held.others⟩

theorem Putting.listed_halted (putting : pl.Putting start manifest (row :: left) world) :
    pl.Halted start.targets manifest (listed row world) := by
  refine ⟨⟨⟨.prepared, by decide, putting.held.listed row⟩, ?_⟩, ?_⟩
  · intro other member gone
    rw [← putting.rows] at member
    apply putting.rest other
    rcases mem_append.mp member with done | ahead
    · exact absurd (mem_append_left _ done) gone
    · exact ahead
  · intro other member
    rw [← putting.rows]
    rcases mem_append.mp member with done | new
    · exact mem_append_left _ done
    · rw [mem_singleton.mp new]
      exact mem_append_right _ (mem_cons_self)

theorem Putting.distinct (putting : pl.Putting start manifest (row :: left) world) {other : Row}
    (member : other ∈ world.installed ∨ other ∈ left) :
    other.relativeTarget ≠ row.relativeTarget := by
  have nodup := putting.held.distinct
  simp only [← putting.rows, map_append, map_cons] at nodup
  rw [nodup_append] at nodup
  rcases member with done | ahead
  · exact nodup.2.2 _ (mem_map_of_mem done) _ (mem_cons_self)
  · intro same
    apply (nodup_cons.mp nodup.2.1).1
    rw [← same]
    exact mem_map_of_mem ahead

theorem Putting.placing (putting : pl.Putting start manifest (row :: left) world) {source : File}
    (read : pl.fileAt world row.source = some source)
    (sum : pl.sha256 source.bytes = row.installedSha256) :
    pl.Putting start manifest left (copyTarget row.relativeTarget ⟨source.bytes, 0o644⟩ (listed row world)) where
  held := by
    have member : row ∈ manifest.files := by
      rw [← putting.rows]
      exact mem_append_right _ (mem_cons_self)
    exact (putting.held.listed row).update member (Or.inr (congrArg some sum))
  sources := putting.sources
  rows := by
    rw [← putting.rows]
    exact append_assoc _ [row] left
  rest := by
    intro other member
    rw [← putting.rest other (mem_cons_of_mem _ member)]
    exact Function.update_of_ne (putting.distinct (Or.inr member)) _ _
  placed := by
    intro other member
    rcases mem_append.mp member with done | new
    · obtain ⟨bytes, target, rest⟩ := putting.placed other done
      refine ⟨bytes, ?_, rest⟩
      rw [← target]
      exact Function.update_of_ne (putting.distinct (Or.inl done)) _ _
    · rw [mem_singleton.mp new]
      refine ⟨source.bytes, Function.update_self _ _ _, sum, fun outside => ⟨source, ?_, rfl⟩⟩
      unfold fileAt at read
      rw [outside] at read
      rw [← putting.sources]
      exact read

variable {stopped : World → Prop}

theorem put_places (prepared : ∀ world,
      pl.Held start.targets { manifest with status := .prepared } world → stopped world)
    (row : Row) (left : List Row) :
    Meets allowed (pl.Putting start manifest (row :: left)) (pl.put row)
      ⟨fun _ => pl.Putting start manifest left, pl.Halted start.targets manifest, stopped⟩ := by
  refine Meets.andThen (fun source world =>
    pl.Putting start manifest (row :: left) world ∧ pl.fileAt world row.source = source) ?_ fun found => ?_
  · exact Meets.look (fun _ putting => ⟨putting, rfl⟩) (fun _ putting => putting.halted)
      fun _ putting _ => prepared _ putting.held
  cases found with
  | none => exact Meets.fail fun _ holds => holds.1.halted
  | some source =>
    refine Meets.requireThen (fun _ holds => holds.1.halted) fun same => ?_
    have sum := of_decide_eq_true same
    refine Meets.andThen (fun _ after => ∃ world, pl.Putting start manifest (row :: left) world ∧
      pl.fileAt world row.source = some source ∧ after = listed row world) ?_ fun _ => ?_
    · exact Meets.note fun world holds => ⟨world, holds.1, holds.2, rfl⟩
    refine Meets.andThen (fun _ => pl.Putting start manifest left) ?_ fun _ => ?_
    · apply Meets.act
      · rintro _ ⟨world, putting, read, rfl⟩
        exact putting.placing read sum
      · rintro _ ⟨world, putting, -, rfl⟩ _
        exact putting.listed_halted
      · rintro _ ⟨world, putting, read, rfl⟩
        exact (putting.placing read sum).halted
      · rintro _ ⟨world, putting, -, rfl⟩ _
        exact prepared _ (putting.held.listed row)
    refine Meets.lookThen (fun _ putting => putting.halted)
      (fun _ putting _ => prepared _ putting.held) fun _ _ => ?_
    exact Meets.require (fun _ _ putting => putting) fun _ _ putting => putting.halted

/-- The whole second loop, and the manifest that says installed. -/
theorem puts_place (prepared : ∀ world,
      pl.Held start.targets { manifest with status := .prepared } world → stopped world) :
    Meets allowed (pl.Putting start manifest manifest.files) (andThen (each pl.put manifest.files) fun _ =>
        act .manifest (writeManifest { manifest with status := .installed }))
      ⟨fun _ world => pl.Held start.targets { manifest with status := .installed } world ∧
          ∀ row ∈ manifest.files, pl.Placed start world row,
        pl.Halted start.targets manifest, stopped⟩ := by
  apply Meets.andThen (fun _ => pl.Putting start manifest [])
  · exact Meets.each (pl.Putting start manifest) fun row left => put_places prepared row left
  intro _
  have done : ∀ world, pl.Putting start manifest [] world → world.installed = manifest.files :=
    fun world putting => (append_nil _).symm.trans putting.rows
  have placed : ∀ world, pl.Putting start manifest [] world → ∀ row ∈ manifest.files, pl.Placed start world row := by
    intro world putting row member
    rw [← done world putting] at member
    exact putting.placed row member
  apply Meets.act
  · exact fun world putting => ⟨putting.held.write .installed, placed world putting⟩
  · exact fun world putting _ => putting.halted
  · intro world putting
    refine ⟨⟨⟨.installed, by decide, putting.held.write .installed⟩, ?_⟩, ?_⟩
    · intro row member gone
      exact absurd ((done world putting).symm ▸ member) gone
    · exact fun row member => done world putting ▸ member
  · exact fun world putting _ => prepared _ putting.held

theorem recoverInstall_stops  (stops : Stops pl allowed before manifest stopped) (returned : Unit → World → Prop) :
    Meets allowed (pl.Halted before manifest) (pl.recoverInstall manifest) ⟨returned, stopped, stopped⟩ := by
  refine Meets.andThen (fun installed world =>
    pl.Restoring before manifest installed world ∧ ∀ row ∈ installed, row ∈ manifest.files)
    ?_ fun installed => ?_
  · exact Meets.recollect fun _ halted => ⟨halted.restoring, halted.listed⟩
  refine Meets.andThen (fun _ => pl.Restoring before manifest []) ?_ fun _ => ?_
  · intro plan world holds
    refine Meets.attempt _ (rollbackRows_restores stops installed holds.2)
      (mark_failed stops _ (by decide) ?_ ?_ _) plan world holds.1
    · exact fun _ opened => opened
    · exact fun _ _ => Or.inr rfl
  · exact mark_failed stops _ (by decide) (fun _ restoring => restoring.opened)
      (fun _ restoring => Or.inl restoring.restored) _

theorem places (stops : Stops pl allowed start.targets manifest stopped) (prepared : ∀ world,
      pl.Held start.targets { manifest with status := .prepared } world → stopped world) :
    Meets allowed (pl.Putting start manifest manifest.files) (attempt (andThen (each pl.put manifest.files) fun _ =>
          act .manifest (writeManifest { manifest with status := .installed }))
        (pl.recoverInstall manifest))
      ⟨fun _ world => pl.Held start.targets { manifest with status := .installed } world ∧
        ∀ row ∈ manifest.files, pl.Placed start world row, stopped, stopped⟩ :=
  Meets.attempt _ (puts_place prepared) (recoverInstall_stops stops _)

end Platform

end Dash.Deployment
