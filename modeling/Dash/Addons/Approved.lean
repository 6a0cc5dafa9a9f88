import Dash.Addons.Store
import Dash.Foundation.Table
import Dash.Python.Plain

/-! What is served of an enabled addon is what an install put there with its approval. -/

set_option autoImplicit false

namespace Dash.Addons

open Dash.Python Dash.Foundation Dash.Foundation.Program List
open Function (update_of_ne update_self)

variable {F : Type}

namespace Platform

variable (rt : Platform F)

structure Checked (entry : String × Directory) : Prop where
  named : entry.1 = entry.2.remote.id
  digest : rt.sha256 entry.2.archive = entry.2.remote.sha256
  manifest : ∃ manifest, rt.manifest? entry.2 = .ok manifest ∧ manifest.id = entry.1

/-- The entry of the state file allows no more than the install was given, and where it says enabled,
the addon was enabled since, with permissions that the install was given. -/
structure Admits (world : World) (entry : String × Directory) (saved : Saved) : Prop where
  approved : ∀ permission ∈ saved.approvedPermissions, permission ∈ entry.2.approved
  standing : saved.enabled = true → world.standing entry.1 = true
  permissions : saved.enabled = true → ∀ manifest, rt.manifest? entry.2 = .ok manifest →
    ∀ permission ∈ manifest.permissions, permission ∈ entry.2.approved

structure SoundBut (without : String → Prop) (world : World) : Prop where
  distinct : (world.installed.map Prod.fst).Nodup
  checked : ∀ entry ∈ world.installed, rt.Checked entry
  admits : ∀ entry ∈ world.installed, ¬ without entry.1 → ∀ saved,
    world.state entry.1 = some saved → rt.Admits world entry saved

def Sound (world : World) : Prop := rt.SoundBut (fun _ => False) world

/-- The directory of an addon, put in place with a checked archive, enabled since, and asking for no
more than was approved. -/
def Approved (world : World) (id : String) : Prop :=
  ∃ directory, (id, directory) ∈ world.installed ∧
    rt.sha256 directory.archive = directory.remote.sha256 ∧ world.standing id = true ∧
    ∃ manifest, rt.manifest? directory = .ok manifest ∧
      ∀ permission ∈ manifest.permissions, permission ∈ directory.approved

variable {rt} {world : World} {addonId : String}

variable {manifest : LocalManifest} {saved : Saved}

theorem row_valid (checked : ∀ entry ∈ world.installed, rt.Checked entry)
    (found : rt.row? world addonId = some (.valid manifest saved)) :
    ∃ directory, (addonId, directory) ∈ world.installed ∧ rt.manifest? directory = .ok manifest ∧
      manifest.id = addonId ∧ saved = (world.state addonId).getD noEntry := by
  have chosen := List.find?_some found
  have same : manifest.id = addonId := of_decide_eq_true chosen
  obtain ⟨entry, member, row⟩ := mem_map.mp (List.mem_of_find?_eq_some found)
  have inside := (mem_filter.mp ((mem_insertionSort _).mp member)).1
  unfold rowOf at row
  split at row
  · rename_i read parsed
    cases row
    obtain ⟨other, parsedAgain, name⟩ := (checked entry inside).manifest
    rw [parsed] at parsedAgain
    cases parsedAgain
    have named : entry.1 = addonId := name.symm.trans same
    exact ⟨entry.2, named ▸ inside, parsed, same, by rw [same]⟩
  · cases row

theorem Sound.enabledRow (sound : rt.Sound world) (found : rt.enabledRow? world addonId = some (manifest, saved)) :
    ∃ directory, (addonId, directory) ∈ world.installed ∧
      rt.sha256 directory.archive = directory.remote.sha256 ∧ world.standing addonId = true ∧
      rt.manifest? directory = .ok manifest ∧
      ∀ permission ∈ manifest.permissions, permission ∈ directory.approved := by
  unfold enabledRow? at found
  split at found
  · rename_i read entry row
    split at found
    · rename_i enabled
      cases found
      obtain ⟨directory, member, parsed, -, same⟩ := row_valid sound.checked row
      have stored : world.state addonId = some saved := by
        cases state : world.state addonId with
        | none =>
          rw [state] at same
          rw [same] at enabled
          cases enabled
        | some other =>
          rw [state] at same
          rw [same]
          rfl
      have admitted := sound.admits _ member id saved stored
      exact ⟨directory, member, (sound.checked _ member).digest, admitted.standing enabled, parsed,
        admitted.permissions enabled manifest parsed⟩
    · cases found
  · cases found

theorem Sound.contentPath (sound : rt.Sound world) {path content : String}
    (served : rt.contentPath world addonId path = some content) : rt.Approved world addonId := by
  unfold Platform.contentPath at served
  split at served
  · rename_i row target found _
    obtain ⟨directory, member, digest, standing, parsed, approved⟩ := sound.enabledRow found
    exact ⟨directory, member, digest, standing, row.1, parsed, approved⟩
  · cases served

theorem SoundBut.stage {without : String → Prop} (sound : rt.SoundBut without world) (key : String)
    (files : Option (List (String × String))) : rt.SoundBut without (stage key files world) :=
  ⟨sound.distinct, sound.checked, fun entry member apart saved stored =>
    let admitted := sound.admits entry member apart saved stored
    ⟨admitted.approved, admitted.standing, admitted.permissions⟩⟩

theorem Sound.setAside (sound : rt.Sound world) (id : String) : rt.Sound (setAside id world) := by
  have subset : ∀ entry ∈ withoutDirectory id world, entry ∈ world.installed :=
    fun entry member => (mem_filter.mp member).1
  refine ⟨sound.distinct.sublist ((filter_sublist).map Prod.fst),
    fun entry member => sound.checked entry (subset entry member), fun entry member apart saved stored => ?_⟩
  have admitted := sound.admits entry (subset entry member) apart saved stored
  exact ⟨admitted.approved, admitted.standing, admitted.permissions⟩

variable {directory : Directory}

theorem SoundBut.place (sound : rt.Sound world) {id key : String} (checked : rt.Checked (id, directory)) :
    rt.SoundBut (fun other => other = id) (place id key directory world) := by
  have apart : ∀ entry ∈ withoutDirectory id world, entry ∈ world.installed ∧ entry.1 ≠ id :=
    fun entry member => by simpa [withoutDirectory] using member
  refine ⟨?_, fun entry member => ?_, fun entry member other saved stored => ?_⟩
  · rw [Addons.place, map_append, map_singleton]
    refine nodup_append.mpr ⟨sound.distinct.sublist ((filter_sublist).map Prod.fst),
      nodup_singleton _, fun first inside second single same => ?_⟩
    obtain ⟨entry, member, rfl⟩ := mem_map.mp inside
    exact (apart entry member).2 (same.trans (mem_singleton.mp single))
  · rcases mem_append.mp member with old | new
    · exact sound.checked entry (apart entry old).1
    · rw [mem_singleton.mp new]
      exact checked
  · rcases mem_append.mp member with old | new
    · have admitted := sound.admits entry (apart entry old).1 not_false saved stored
      refine ⟨admitted.approved, fun enabled => ?_, admitted.permissions⟩
      change Function.update world.standing id false entry.1 = true
      rw [update_of_ne other]
      exact admitted.standing enabled
    · rw [mem_singleton.mp new] at other
      exact absurd rfl other

theorem SoundBut.unsaved {id : String} (sound : rt.SoundBut (fun other => other = id) world)
    (none_ : world.state id = none) : rt.Sound world :=
  ⟨sound.distinct, sound.checked, fun entry member _ saved stored => by
    by_cases same : entry.1 = id
    · rw [same, none_] at stored
      cases stored
    · exact sound.admits entry member same saved stored⟩

def Read (world : World) (state : String → Option Saved) : Prop :=
  ∀ id saved, state id = some saved → world.state id = some saved

theorem Read.own (world : World) : Read world world.state := fun _ _ stored => stored

theorem Read.nothing (world : World) : Read world fun _ => none := fun _ _ stored => by cases stored

variable {state : String → Option Saved}

theorem SoundBut.writeState {without : String → Prop} (sound : rt.SoundBut without world)
    (fewer : ∀ id, ¬ without id → ∀ saved, state id = some saved →
      world.state id = some saved) : rt.SoundBut without (writeState state world) :=
  ⟨sound.distinct, sound.checked, fun entry member apart saved stored =>
    let admitted := sound.admits entry member apart saved (fewer entry.1 apart saved stored)
    ⟨admitted.approved, admitted.standing, admitted.permissions⟩⟩

theorem Sound.removed (sound : rt.Sound world) (read : Read world state) (id : String) :
    rt.Sound (Addons.writeState (Function.update state id none) world) := by
  refine SoundBut.writeState sound fun other _ saved stored => ?_
  by_cases same : other = id
  · subst same
    rw [update_self] at stored
    cases stored
  · rw [update_of_ne same] at stored
    exact read other saved stored

/-- The entry that an install writes is about the directory it placed. -/
theorem SoundBut.installed {id : String} (sound : rt.SoundBut (fun other => other = id) world)
    (read : Read world state) {approved : List String} {lifecycle : Option String}
    (own : ∀ entry ∈ world.installed, entry.1 = id → entry.2.approved = approved) :
    rt.Sound (Addons.writeState (Function.update state id (some ⟨false, approved, lifecycle⟩)) world) := by
  refine ⟨sound.distinct, sound.checked, fun entry member _ saved stored => ?_⟩
  change Function.update state id _ entry.1 = some saved at stored
  by_cases same : entry.1 = id
  · rw [same, update_self] at stored
    cases stored
    refine ⟨fun permission listed => ?_, fun enabled => absurd enabled Bool.false_ne_true,
      fun enabled => absurd enabled Bool.false_ne_true⟩
    rw [own entry member same]
    exact listed
  · rw [update_of_ne same] at stored
    have admitted := sound.admits entry member same saved (read entry.1 saved stored)
    exact ⟨admitted.approved, admitted.standing, admitted.permissions⟩

/-- The entry that `set_enabled` writes. -/
theorem Sound.enabled (sound : rt.Sound world) (read : Read world state)
    (member : (addonId, directory) ∈ world.installed)
    (parsed : rt.manifest? directory = .ok manifest) {enabled : Bool}
    (passes : (enabled && blocks manifest ((state addonId).getD noEntry)) = false) :
    rt.Sound (writeEnabled addonId enabled (Function.update state addonId
      (some { (state addonId).getD noEntry with enabled := enabled })) world) := by
  have allowed : ∀ permission ∈ ((state addonId).getD noEntry).approvedPermissions,
      permission ∈ directory.approved := by
    cases stored : state addonId with
    | none => exact fun permission listed => absurd listed not_mem_nil
    | some saved =>
      exact (sound.admits _ member not_false saved (read addonId saved stored)).approved
  refine ⟨sound.distinct, sound.checked, fun entry inside _ saved stored => ?_⟩
  change Function.update state addonId _ entry.1 = some saved at stored
  by_cases same : entry.1 = addonId
  · have only : entry = (addonId, directory) :=
      Foundation.Table.same_row sound.distinct inside member same
    subst only
    rw [update_self] at stored
    cases stored
    refine ⟨allowed, fun on => ?_, fun on other read_ permission listed => ?_⟩
    · change Function.update world.standing addonId enabled addonId = true
      rw [update_self]
      exact on
    · cases parsed.symm.trans read_
      dsimp only at on
      rw [on, Bool.true_and, blocks, Bool.or_eq_false_iff, Bool.not_eq_false'] at passes
      exact allowed permission (of_decide_eq_true (all_eq_true.mp passes.2 permission listed))
  · rw [update_of_ne same] at stored
    have admitted := sound.admits entry inside not_false saved (read entry.1 saved stored)
    refine ⟨admitted.approved, fun on => ?_, admitted.permissions⟩
    change Function.update world.standing addonId enabled entry.1 = true
    rw [update_of_ne same]
    exact admitted.standing on

/-- No install stops between placing an addon's directory and writing its entry, where the state file
has one. -/
def Finishes (moment : Moment World Kind) : Prop :=
  ∀ id, (moment.kind = .placing id ∧ moment.fault = .raisesAfter) ∨
    (moment.kind = .placed id ∧ (moment.fault = .raisesBefore ∨ moment.fault = .kills)) →
      moment.world.state id = none

def always {α : Type} (holds : World → Prop) : Post World α := ⟨fun _ => holds, holds, holds⟩

theorem act_keeps {kind : Kind} {effect : World → World} {holds : World → Prop}
    (kept : ∀ world, holds world → holds (effect world)) :
    Meets Finishes holds (act kind effect) (always holds) :=
  Meets.act kept (fun _ holds _ => holds) kept fun _ holds _ => holds

theorem readState_reads {kind : Kind} {holds stopped : World → Prop}
    (kills : ∀ world, holds world → Finishes ⟨world, kind, .kills⟩ → stopped world) :
    Meets Finishes holds (readState kind) ⟨fun state world => holds world ∧ Read world state, stopped, stopped⟩ :=
  Meets.attempt holds (Meets.look (fun world kept => ⟨kept, Read.own world⟩) (fun _ kept => kept) kills)
    (Meets.done fun world kept => ⟨kept, Read.nothing world⟩)

theorem remove_sound (rt : Platform F) (addonId : String) :
    Meets Finishes rt.Sound (remove addonId) (always rt.Sound) := by
  refine Meets.requireThen (fun _ kept => kept) fun _ => ?_
  refine Meets.lookThen (fun _ kept => kept) (fun _ kept _ => kept) fun _ _ => ?_
  refine Meets.requireThen (fun _ kept => kept) fun _ => ?_
  refine Meets.andThen (fun _ => rt.Sound) (act_keeps fun _ kept => kept.setAside addonId) fun _ => ?_
  refine Meets.andThen _ (readState_reads fun _ kept _ => kept) fun state => ?_
  exact Meets.act (fun _ kept => Sound.removed kept.1 kept.2 addonId) (fun _ kept _ => kept.1)
    (fun _ kept => Sound.removed kept.1 kept.2 addonId) fun _ kept _ => kept.1

theorem setEnabled_sound (rt : Platform F) (addonId : String) (enabled : Bool) :
    Meets Finishes rt.Sound (rt.setEnabled addonId enabled) (always rt.Sound) := by
  refine Meets.andThen (fun row world => rt.Sound world ∧ rt.row? world addonId = row)
    (Meets.look (fun _ kept => ⟨kept, rfl⟩) (fun _ kept => kept) fun _ kept _ => kept) fun row => ?_
  match row with
  | none => exact Meets.fail fun _ kept => kept.1
  | some (.invalid _) => exact Meets.fail fun _ kept => kept.1
  | some (.valid manifest shown) =>
    refine Meets.andThen _ (readState_reads fun _ kept _ => kept.1) fun state => ?_
    refine Meets.requireThen (fun _ kept => kept.1.1) fun passes => ?_
    have enables : ∀ world, (rt.Sound world ∧ rt.row? world addonId = some (.valid manifest shown)) ∧
        Read world state → rt.Sound (writeEnabled addonId enabled (Function.update state addonId
          (some { (state addonId).getD noEntry with enabled := enabled })) world) := by
      rintro world ⟨⟨sound, row⟩, read⟩
      obtain ⟨directory, member, parsed, -, -⟩ := row_valid sound.checked row
      exact sound.enabled read member parsed (by simpa only [Bool.not_eq_true'] using passes)
    exact Meets.act enables (fun _ kept _ => kept.1.1) enables fun _ kept _ => kept.1.1

theorem write_sound (rt : Platform F) (prepared : Prepared)
    (digest : rt.sha256 prepared.archive = prepared.remote.sha256) :
    Meets Finishes rt.Sound (rt.write prepared) (always rt.Sound) := by
  have staged : ∀ key files, Meets Finishes rt.Sound (act .other (stage key files)) (always rt.Sound) :=
    fun key files => act_keeps fun _ kept => kept.stage key files
  refine Meets.andThen (fun _ => rt.Sound) (staged _ none) fun _ => ?_
  refine Meets.andThen (fun _ => rt.Sound) (staged _ (some [])) fun _ => ?_
  refine Meets.requireThen (fun _ kept => kept) fun _ => ?_
  refine Meets.requireThen (fun _ kept => kept) fun _ => ?_
  have extracts : ∀ entries, Meets Finishes rt.Sound
      (each (fun entry => act .other (extract (rt.stageKey prepared) entry)) entries)
      (always rt.Sound) := fun entries =>
    Meets.each (fun _ => rt.Sound) fun _ _ => act_keeps fun _ kept => kept.stage _ _
  refine Meets.andThen (fun _ => rt.Sound) (extracts _) fun _ => ?_
  refine Meets.lookThen (fun _ kept => kept) (fun _ kept _ => kept) fun seen _ => ?_
  generalize (seen.staging (rt.stageKey prepared)).getD [] = files
  refine Meets.requireThen (fun _ kept => kept) fun passes => ?_
  have checked : rt.Checked (prepared.remote.id,
      (⟨files, prepared.archive, prepared.remote, prepared.approved⟩ : Directory)) := by
    unfold checkStaged at passes
    split at passes
    · rename_i manifest parsed
      rw [Bool.and_eq_true, Bool.and_eq_true] at passes
      exact ⟨rfl, digest, manifest, parsed, of_decide_eq_true passes.1.1⟩
    · cases passes
  refine Meets.lookThen (fun _ kept => kept) (fun _ kept _ => kept) fun _ _ => ?_
  refine Meets.andThen (fun _ => rt.Sound) ?_ fun _ => ?_
  · split
    · exact act_keeps fun _ kept => kept.setAside _
    · exact Meets.done fun _ kept => kept
  have own : ∀ world : World, ∀ entry ∈ (place prepared.remote.id (rt.stageKey prepared)
      ⟨files, prepared.archive, prepared.remote, prepared.approved⟩ world).installed,
      entry.1 = prepared.remote.id → entry.2.approved = prepared.approved := by
    intro world entry member same
    rcases mem_append.mp member with old | new
    · exact absurd same (by simpa [withoutDirectory] using (mem_filter.mp old).2)
    · rw [mem_singleton.mp new]
  -- From here on the directory is new and its entry is still the old one.
  refine Meets.andThen (fun _ world => rt.SoundBut (fun other => other = prepared.remote.id) world ∧
      ∀ entry ∈ world.installed, entry.1 = prepared.remote.id → entry.2.approved = prepared.approved)
    (Meets.act_limited (fun world kept => ⟨SoundBut.place kept checked, own world⟩)
      (fun _ kept _ => kept) (fun world kept finishes => ?_) fun _ kept _ => kept) fun _ => ?_
  · exact (SoundBut.place kept checked).unsaved (finishes _ (.inl ⟨rfl, rfl⟩))
  refine Meets.andThen _ (readState_reads fun world kept finishes =>
    kept.1.unsaved (finishes _ (.inr ⟨rfl, .inr rfl⟩))) fun state => ?_
  refine Meets.act (fun world kept => ?_) (fun world kept finishes => ?_) (fun world kept => ?_)
    fun world kept finishes => ?_
  · exact kept.1.1.installed kept.2 kept.1.2
  · exact kept.1.1.unsaved (finishes _ (.inr ⟨rfl, .inl rfl⟩))
  · exact kept.1.1.installed kept.2 kept.1.2
  · exact kept.1.1.unsaved (finishes _ (.inr ⟨rfl, .inr rfl⟩))

theorem prepare_digest {args : InstallArgs F} {prepared : Prepared} (checked : rt.prepare args = .ok prepared) :
    rt.sha256 prepared.archive = prepared.remote.sha256 := by
  obtain ⟨index, -, checked⟩ := result_bind.mp checked
  split at checked
  · cases checked
  · split at checked
    · cases checked
    obtain ⟨text, -, checked⟩ := result_bind.mp checked
    obtain ⟨value, -, checked⟩ := result_bind.mp checked
    obtain ⟨remote, -, checked⟩ := result_bind.mp checked
    split at checked
    · cases checked
    obtain ⟨approved, -, checked⟩ := result_bind.mp checked
    split at checked
    · cases checked
    obtain ⟨archive, -, checked⟩ := result_bind.mp checked
    split at checked
    · cases checked
    · rename_i same
      cases checked
      exact not_not.mp same

theorem program_sound (rt : Platform F) (call : Call F) :
    Meets Finishes rt.Sound (rt.program call) (always rt.Sound) := by
  cases call with
  | install args =>
    change Meets Finishes rt.Sound (rt.install args) _
    unfold install
    split
    · rename_i prepared checked
      exact rt.write_sound prepared (prepare_digest checked)
    · exact Meets.fail fun _ kept => kept
  | setEnabled addonId enabled => exact rt.setEnabled_sound addonId enabled
  | remove addonId => exact rt.remove_sound addonId

theorem run_sound (calls : List (Call F × List Fault)) {world : World} (sound : rt.Sound world)
    (finishes : ∀ moment ∈ (rt.run calls world).1, Finishes moment) :
    rt.Sound (rt.run calls world).2 := by
  induction calls generalizing world with
  | nil => exact sound
  | cons call rest ih =>
    obtain ⟨call, plan⟩ := call
    apply ih
    · exact (rt.program_sound call).always sound fun moment member =>
        finishes moment (mem_append_left _ member)
    · exact fun moment member => finishes moment (mem_append_right _ member)

theorem empty_sound (rt : Platform F) : rt.Sound empty :=
  ⟨nodup_nil, fun _ member => absurd member not_mem_nil, fun _ member => absurd member not_mem_nil⟩

/-- Where every install that placed a directory writes its entry, whatever is served or granted is
of an approved directory. -/
theorem served_is_approved (rt : Platform F) (calls : List (Call F × List Fault))
    (finishes : ∀ moment ∈ (rt.run calls empty).1, Finishes moment) (addonId : String) :
    (∀ path content, rt.contentPath (rt.run calls empty).2 addonId path = some content →
      rt.Approved (rt.run calls empty).2 addonId) ∧
    ∀ permission, rt.assertPermission (rt.run calls empty).2 addonId permission = true →
      rt.Approved (rt.run calls empty).2 addonId := by
  have sound := rt.run_sound calls rt.empty_sound finishes
  refine ⟨fun path content served => sound.contentPath served, fun permission granted => ?_⟩
  unfold assertPermission at granted
  split at granted
  · rename_i manifest saved found
    obtain ⟨directory, member, digest, standing, parsed, approved⟩ := sound.enabledRow found
    exact ⟨directory, member, digest, standing, manifest, parsed, approved⟩
  · cases granted

def placedOf (prepared : Prepared) (first second : Entry) : Directory :=
  ⟨[(first.filename, first.content), (second.filename, second.content)], prepared.archive,
    prepared.remote, prepared.approved⟩

def stagedOf (rt : Platform F) (prepared : Prepared) (first second : Entry) (world : World) : World :=
  extract (rt.stageKey prepared) second (extract (rt.stageKey prepared) first
    (stage (rt.stageKey prepared) (some []) (stage (rt.stageKey prepared) none world)))

section Writes

variable {prepared : Prepared} {first second : Entry}

structure Packs (rt : Platform F) (prepared : Prepared) (first second : Entry) : Prop where
  files : rt.unzip prepared.archive = some [first, second]
  passes : rt.checkEntries [first, second] = true
  staged : rt.checkStaged prepared.remote (placedOf prepared first second) = true

theorem staged_files (rt : Platform F) (prepared : Prepared) (first second : Entry) (world : World) :
    (rt.stagedOf prepared first second world).staging (rt.stageKey prepared) =
      some [(first.filename, first.content), (second.filename, second.content)] := by
  simp [stagedOf, extract, stage]

section

variable (packs : rt.Packs prepared first second) (none_ : directory? prepared.remote.id world = none)
include packs none_

theorem write_installs : (rt.write prepared [] world).world =
      Addons.writeState (Function.update world.state prepared.remote.id
          (some ⟨false, prepared.approved, some prepared.summary.lifecycle⟩))
        (place prepared.remote.id (rt.stageKey prepared) (placedOf prepared first second)
          (rt.stagedOf prepared first second world)) ∧
    ∀ moment ∈ (rt.write prepared [] world).trace, moment.fault = .proceeds := by
  obtain ⟨files, passes, staged⟩ := packs
  have key := staged_files rt prepared first second world
  have there : directory? prepared.remote.id (rt.stagedOf prepared first second world) = none := none_
  unfold stagedOf at key there
  unfold placedOf at staged
  simp only [write, Program.andThen, attempt, act, look, require, each, done, readState, files,
    Option.isSome_some, Option.isSome_none, Bool.false_eq_true, if_true, if_false, passes,
    headD_nil, tail_nil, Option.getD_some, key, staged, there, stagedOf, placedOf]
  exact ⟨rfl, by simp⟩

end

theorem write_killed (packs : rt.Packs prepared first second)
    (some_ : (directory? prepared.remote.id world).isSome = true) :
    (rt.write prepared (List.replicate 8 .proceeds ++ [.kills]) world).world =
      place prepared.remote.id (rt.stageKey prepared) (placedOf prepared first second)
        (Addons.setAside prepared.remote.id (rt.stagedOf prepared first second world)) := by
  obtain ⟨files, passes, staged⟩ := packs
  have key := staged_files rt prepared first second world
  have there : (directory? prepared.remote.id (rt.stagedOf prepared first second world)).isSome = true := some_
  unfold stagedOf at key there
  unfold placedOf at staged
  simp [write, Program.andThen, attempt, act, look, require, each, done, readState, files, passes, key, staged,
    there, stagedOf, placedOf]

end Writes

theorem row_single (only : world.installed = [(addonId, directory)]) (valid : isId addonId = true)
    (parsed : rt.manifest? directory = .ok manifest) (same : manifest.id = addonId) :
    rt.row? world addonId = some (.valid manifest ((world.state addonId).getD noEntry)) := by
  have listed : rt.listInstalled world = [.valid manifest ((world.state addonId).getD noEntry)] := by
    simp [listInstalled, only, valid, rowOf, parsed, same]
  rw [row?, listed, List.find?_cons_of_pos (by simp [Row.id, same])]

section

variable (row : rt.row? world addonId = some (.valid manifest saved))
  (passes : blocks manifest ((world.state addonId).getD noEntry) = false)
include row passes

theorem setEnabled_enables : (rt.setEnabled addonId true [] world).world =
      writeEnabled addonId true (Function.update world.state addonId
        (some { (world.state addonId).getD noEntry with enabled := true })) world ∧
    ∀ moment ∈ (rt.setEnabled addonId true [] world).trace, moment.fault = .proceeds := by
  simp only [setEnabled, Program.andThen, attempt, act, look, require, done, readState,
    headD_nil, tail_nil, row, passes, Bool.and_false, Bool.not_false, if_true]
  simp

end

theorem finishes_of {moment : Moment World Kind} (goes : moment.fault = .proceeds) : Finishes moment := by
  intro id stops
  simp [goes] at stops

end Platform

def json (fields : List (String × Document)) : String :=
  String.ofList ((Document.object fields).text false)

/-- `addon.json` of a version, and its page. -/
def manifestEntry (version : String) : Entry :=
  ⟨"addon.json", 10, false, json [("id", .str "aa"), ("type", .str "ui"), ("name", .str "A"),
    ("version", .str version), ("entry", .object [("path", .str "index.html")])]⟩

def pageEntry (page : String) : Entry := ⟨"index.html", 10, false, page⟩

def twoVersions : Platform FloatText where
  toRuntime := plainRuntime
  sha256 archive := String.ofList (List.replicate 63 '0' ++ [if archive = [1] then '1' else '2'])
  urlAllowed _ := true
  unzip archive := some (if archive = [1] then [manifestEntry "1", pageEntry "old"]
    else [manifestEntry "2", pageEntry "new"])

def publishing (version : String) (archive : List UInt8) : InstallArgs FloatText where
  addonId := "aa"
  approvedPermissions := .list []
  indexUrl := "index"
  fetcher :=
    { text := fun url => .ok (if url = "index" then
        json [("schemaVersion", .int 1), ("addons", .array [.object [("id", .str "aa"),
          ("name", .str "A"), ("version", .str version), ("manifestUrl", .str "manifest")]])]
        else json [("id", .str "aa"), ("type", .str "ui"),
          ("name", .str "A"), ("version", .str version), ("sourceUrl", .str "s"),
          ("downloadUrl", .str "d"), ("sha256", .str (twoVersions.sha256 archive))])
      bytes := fun _ => .ok archive }

def enabledFirst : List (Call FloatText × List Fault) :=
  [(.install (publishing "1" [1]), []), (.setEnabled "aa" true, [])]

def killedSecond : List (Call FloatText × List Fault) :=
  [(.install (publishing "2" [2]), List.replicate 8 .proceeds ++ [.kills])]

def killedUpgrade : List (Call FloatText × List Fault) := enabledFirst ++ killedSecond

def prepares (version : String) (archive : List UInt8) : Bool :=
  match twoVersions.prepare (publishing version archive) with
  | .ok prepared => decide (prepared.remote.id = "aa" ∧ prepared.remote.version = version ∧
      prepared.approved = [] ∧ prepared.archive = archive ∧ prepared.summary.lifecycle = "active")
  | .error _ => false

variable {version : String} {archive : List UInt8}

theorem prepared_of (passes : prepares version archive = true) :
    ∃ prepared, twoVersions.prepare (publishing version archive) = .ok prepared ∧
      prepared.remote.id = "aa" ∧ prepared.remote.version = version ∧ prepared.approved = [] ∧
      prepared.archive = archive ∧ prepared.summary.lifecycle = "active" := by
  unfold prepares at passes
  split at passes
  · rename_i prepared same
    exact ⟨prepared, same, of_decide_eq_true passes⟩
  · cases passes

def manifestOf (version : String) : LocalManifest := ⟨⟨"aa", "A", "", "", version, []⟩, "", "index.html"⟩

/-- The text of `addon.json` is read as the manifest. -/
def reads (version : String) : Bool :=
  match twoVersions.loads (manifestEntry version).content with
  | .ok value => match twoVersions.normalizeLocal value with
    | .ok manifest => decide (manifest = manifestOf version)
    | .error _ => false
  | .error _ => false

theorem returns_of {α : Type} {result : Result α} {value : α} (same : result.toOption = some value) :
    result = .ok value := by
  cases result with
  | ok other => exact congrArg Except.ok (Option.some.inj same)
  | error why => cases same

theorem loads_json (fields : List (String × Document)) :
    twoVersions.loads (json fields) = .ok (twoVersions.ofDocument (.object fields)) :=
  twoVersions.loads_text false (.object fields)

def silent : Platform.Fetcher := ⟨fun _ => valueError "", fun _ => valueError ""⟩

theorem Platform.summary_complete {F : Type} (rt : Platform F) (fetcher : Platform.Fetcher) (raw : Value F)
    (seen : List String) : rt.summary fetcher raw seen = (rt.summary silent raw seen).map (rt.complete fetcher) := by
  have kept : ∀ row, rt.complete silent row = row := fun row => by
    unfold Platform.complete
    split <;> rfl
  unfold Platform.summary
  simp only [kept]
  cases rt.text (raw.get "id") "id" false with
  | error why => rfl
  | ok id =>
    simp only [bind, Except.bind]
    split
    · rfl
    repeat (split; rfl)
    rfl

theorem Platform.complete_reads {F : Type} (rt : Platform F) (fetcher : Platform.Fetcher)
    (row : Summary) {manifest : RemoteManifest}
    (fetched : (fetcher.text row.manifestUrl >>= fun text =>
      rt.loads text >>= rt.normalizeRemote) = .ok manifest)
    (none_ : row.permissions = []) (same : manifest.id = row.id) :
    rt.complete fetcher row = { row with
      permissions := manifest.permissions, sourceUrl := some manifest.sourceUrl } := by
  unfold Platform.complete
  rw [if_neg (not_not.mpr none_)]
  have read : (do rt.normalizeRemote (← rt.loads (← fetcher.text row.manifestUrl))) = .ok manifest := fetched
  rw [read]
  exact if_pos same

def indexRow (version : String) : Summary :=
  ⟨"aa", "A", "", "", version, "manifest", "active", "", [], none⟩

def rowFields (version : String) : List (String × Document) :=
  [("id", .str "aa"), ("name", .str "A"), ("version", .str version), ("manifestUrl", .str "manifest")]

def remoteFields (version : String) (archive : List UInt8) : List (String × Document) :=
  [("id", .str "aa"), ("type", .str "ui"), ("name", .str "A"), ("version", .str version),
    ("sourceUrl", .str "s"), ("downloadUrl", .str "d"), ("sha256", .str (twoVersions.sha256 archive))]

def remoteOf (version : String) (archive : List UInt8) : RemoteManifest :=
  ⟨⟨"aa", "A", "", "", version, []⟩, "s", "d", twoVersions.sha256 archive⟩

def localFields (version : String) : List (String × Document) :=
  [("id", .str "aa"), ("type", .str "ui"), ("name", .str "A"),
    ("version", .str version), ("entry", .object [("path", .str "index.html")])]

def ReadBack (version : String) (archive : List UInt8) : Prop :=
  (twoVersions.summary silent (twoVersions.ofDocument (.object (rowFields version)))
    []).toOption = some (indexRow version) ∧
  (twoVersions.normalizeRemote (twoVersions.ofDocument (.object (remoteFields version archive)))).toOption =
      some (remoteOf version archive) ∧
  (twoVersions.normalizeLocal (twoVersions.ofDocument (.object (localFields version)))).toOption =
    some (manifestOf version)

instance {version : String} {archive : List UInt8} : Decidable (ReadBack version archive) :=
  inferInstanceAs (Decidable (_ ∧ _ ∧ _))

theorem versions_read : ReadBack "1" [1] ∧ ReadBack "2" [2] := by decide +kernel

theorem prepares_of (back : ReadBack version archive) : prepares version archive = true := by
  obtain ⟨row, remote, -⟩ := back
  have text : (publishing version archive).fetcher.text (indexRow version).manifestUrl =
      .ok (json (remoteFields version archive)) := congrArg Except.ok (if_neg (show ¬ "manifest" = "index" by decide))
  have fetched : ((publishing version archive).fetcher.text (indexRow version).manifestUrl >>= fun text =>
      twoVersions.loads text >>= twoVersions.normalizeRemote) = .ok (remoteOf version archive) :=
    result_bind.mpr ⟨_, text, result_bind.mpr ⟨_, loads_json _, returns_of remote⟩⟩
  have completed : twoVersions.complete (publishing version archive).fetcher (indexRow version) =
      { indexRow version with sourceUrl := some "s" } :=
    twoVersions.complete_reads _ (indexRow version) fetched rfl rfl
  have index : twoVersions.fetchIndex (publishing version archive).fetcher "index" =
      .ok [{ indexRow version with sourceUrl := some "s" }] := by
    have read : (publishing version archive).fetcher.text "index" = .ok (json [("schemaVersion",
        .int 1), ("addons", .array [.object (rowFields version)])]) :=
      congrArg Except.ok (if_pos rfl)
    have schema : twoVersions.int (getOr (twoVersions.ofDocument (.object [("schemaVersion", .int 1),
        ("addons", .array [.object (rowFields version)])])) "schemaVersion" (.int 0)) = .ok 1 := by
      rfl
    refine result_bind.mpr ⟨_, read, ?_⟩
    refine result_bind.mpr ⟨_, loads_json _, ?_⟩
    refine result_bind.mpr ⟨1, schema, ?_⟩
    have rows : (twoVersions.ofDocument (.object [("schemaVersion", .int 1),
        ("addons", .array [.object (rowFields version)])])).get "addons" =
        .list [twoVersions.ofDocument (.object (rowFields version))] := by rfl
    rw [rows]
    refine (if_neg (by simp)).trans ?_
    rw [Platform.summaries, Platform.summary_complete, returns_of row]
    simp only [Except.map, bind, Except.bind, Platform.summaries, pure, Except.pure, completed]
  have prepared : twoVersions.prepare (publishing version archive) =
      .ok ⟨{ indexRow version with sourceUrl := some "s" }, remoteOf version archive, [], archive⟩ := by
    refine result_bind.mpr ⟨_, index, ?_⟩
    have found : [{ indexRow version with sourceUrl := some "s" }].find?
        (fun row => decide (row.id = (publishing version archive).addonId)) =
          some { indexRow version with sourceUrl := some "s" } :=
      List.find?_cons_of_pos (decide_eq_true rfl)
    rw [found]
    refine (if_neg (by simp [indexRow, BLOCKED_LIFECYCLES])).trans ?_
    refine result_bind.mpr ⟨_, text, ?_⟩
    refine result_bind.mpr ⟨_, loads_json _, ?_⟩
    refine result_bind.mpr ⟨_, returns_of remote, ?_⟩
    rw [if_neg (by simp [remoteOf, indexRow])]
    have none_ : twoVersions.permissions (twoVersions.orElse (.list []) (.list [])) = .ok [] := by rfl
    refine result_bind.mpr ⟨_, none_, ?_⟩
    rw [if_neg (by simp [remoteOf])]
    refine result_bind.mpr ⟨archive, rfl, ?_⟩
    exact if_neg (not_not.mpr rfl)
  unfold prepares
  rw [prepared]
  exact decide_eq_true ⟨rfl, rfl, rfl, rfl, rfl⟩

theorem reads_of (back : ReadBack version archive) : reads version = true := by
  have loaded : twoVersions.loads (manifestEntry version).content = _ := loads_json (localFields version)
  unfold reads
  rw [loaded]
  dsimp only
  rw [returns_of back.2.2]
  exact decide_eq_true rfl

theorem prepares_first : prepares "1" [1] = true := prepares_of versions_read.1

theorem prepares_second : prepares "2" [2] = true := prepares_of versions_read.2

theorem reads_first : reads "1" = true := reads_of versions_read.1

theorem reads_second : reads "2" = true := reads_of versions_read.2

theorem manifest_read (passes : reads version = true) (page : String) (prepared : Prepared) :
    twoVersions.manifest? (Platform.placedOf prepared (manifestEntry version) (pageEntry page)) =
      .ok (manifestOf version) := by
  unfold reads at passes
  split at passes
  · rename_i value loaded
    split at passes
    · rename_i manifest parsed
      have file : ((Platform.placedOf prepared (manifestEntry version)
          (pageEntry page)).files.find? fun file => file.1 = "addon.json").map Prod.snd =
        some (manifestEntry version).content := rfl
      rw [← of_decide_eq_true passes, Platform.manifest?, file]
      exact result_bind.mpr ⟨value, loaded, parsed⟩
    · cases passes
  · cases passes

theorem relative_names : (twoVersions.relative (.str "addon.json") "zip entry").toOption = some "addon.json" ∧
    (twoVersions.relative (.str "index.html") "zip entry").toOption = some "index.html" ∧
    (twoVersions.relative (.str "index.html") "content path").toOption = some "index.html" := by
  decide +kernel

theorem checkEntries_package (version page : String) :
    twoVersions.checkEntries [manifestEntry version, pageEntry page] = true := by
  simp [Platform.checkEntries, manifestEntry, pageEntry, returns_of relative_names.1, returns_of relative_names.2.1]
  rfl

theorem packs_of (page : String) {prepared : Prepared}
    (files : twoVersions.unzip archive = some [manifestEntry version, pageEntry page])
    (read : reads version = true) (id : prepared.remote.id = "aa")
    (same : prepared.remote.version = version) (bytes : prepared.archive = archive) :
    twoVersions.Packs prepared (manifestEntry version) (pageEntry page) where
  files := bytes ▸ files
  passes := checkEntries_package version page
  staged := by
    rw [Platform.checkStaged, manifest_read read page prepared]
    simp [manifestOf, id, same, Platform.placedOf, pageEntry, manifestEntry]

/-- What the two calls leave, and that nothing stops in them. -/
theorem enabledFirst_leaves : ∃ prepared, (twoVersions.run enabledFirst empty).2.installed =
      [("aa", Platform.placedOf prepared (manifestEntry "1") (pageEntry "old"))] ∧
    (twoVersions.run enabledFirst empty).2.state "aa" = some ⟨true, [], some "active"⟩ ∧
    ∀ moment ∈ (twoVersions.run enabledFirst empty).1, moment.fault = .proceeds := by
  obtain ⟨prepared, checked, id, version, approved, bytes, lifecycle⟩ := prepared_of prepares_first
  have packs := packs_of "old" rfl reads_first id version bytes
  have install : twoVersions.program (.install (publishing "1" [1])) = twoVersions.write prepared := by
    rw [Platform.program, Platform.install, checked]
  have none_ : directory? prepared.remote.id empty = none := rfl
  have left := (Platform.write_installs packs none_).1
  -- The world between the two calls.
  generalize installed : writeState _ _ = world at left
  have only : world.installed = [("aa", Platform.placedOf prepared (manifestEntry "1") (pageEntry "old"))] := by
    rw [← installed, ← id]
    rfl
  have saved : world.state "aa" = some ⟨false, [], some "active"⟩ := by
    rw [← installed]
    simp [writeState, approved, lifecycle, id]
  have row := Platform.row_single only rfl (manifest_read reads_first "old" prepared) rfl
  rw [saved] at row
  have passes : Platform.blocks (manifestOf "1") ((world.state "aa").getD noEntry) = false := by
    rw [saved]
    rfl
  have ran : twoVersions.run enabledFirst empty = ((twoVersions.write prepared [] empty).trace ++
        ((twoVersions.setEnabled "aa" true [] world).trace ++ []),
        (twoVersions.setEnabled "aa" true [] world).world) := by
    rw [enabledFirst, Platform.run, Platform.run, install, left, Platform.program, Platform.run]
  have enabled := (Platform.setEnabled_enables row passes).1
  refine ⟨prepared, ?_, ?_, ?_⟩
  · rw [ran, enabled]
    exact only
  · rw [ran, enabled, saved]
    simp [writeEnabled]
  · rw [ran, append_nil]
    intro moment member
    rcases mem_append.mp member with early | late
    · exact (Platform.write_installs packs none_).2 moment early
    · exact (Platform.setEnabled_enables row passes).2 moment late

theorem served_of {world : World} {directory : Directory} {manifest : LocalManifest}
    (only : world.installed = [("aa", directory)])
    (parsed : twoVersions.manifest? directory = .ok manifest) (named : manifest.id = "aa")
    (saved : world.state "aa" = some ⟨true, [], some "active"⟩) :
    twoVersions.contentPath world "aa" "index.html" =
      (directory.files.find? fun file => file.1 = "index.html").map Prod.snd := by
  have row := Platform.row_single only rfl parsed named
  rw [saved] at row
  have enabled : twoVersions.enabledRow? world "aa" = some (manifest, ⟨true, [], some "active"⟩) := by
    rw [Platform.enabledRow?, row]
    rfl
  rw [Platform.contentPath, enabled, returns_of relative_names.2.2]
  simp [directory?, only]

theorem enabledFirst_serves :
    twoVersions.contentPath (twoVersions.run enabledFirst empty).2 "aa" "index.html" = some "old" := by
  obtain ⟨prepared, only, saved, -⟩ := enabledFirst_leaves
  exact (served_of only (manifest_read reads_first "old" prepared) rfl saved).trans rfl

/-- The page of the first version is served, and it was approved. -/
theorem enabledFirst_approved : (∀ moment ∈ (twoVersions.run enabledFirst empty).1, Platform.Finishes moment) ∧
      twoVersions.contentPath (twoVersions.run enabledFirst empty).2 "aa" "index.html" = some "old" ∧
      twoVersions.Approved (twoVersions.run enabledFirst empty).2 "aa" := by
  obtain ⟨-, -, -, goes⟩ := enabledFirst_leaves
  have finishes := fun moment member => Platform.finishes_of (goes moment member)
  exact ⟨finishes, enabledFirst_serves, (Platform.served_is_approved twoVersions enabledFirst finishes
    "aa").1 "index.html" "old" enabledFirst_serves⟩

/-- A killed install of the second version, wherever the first is enabled. -/
theorem killedSecond_serves {world : World} {old : Directory} (only : world.installed = [("aa", old)])
    (saved : world.state "aa" = some ⟨true, [], some "active"⟩) :
    twoVersions.contentPath (twoVersions.run killedSecond world).2 "aa" "index.html" = some "new" ∧
      (twoVersions.run killedSecond world).2.standing "aa" = false := by
  obtain ⟨prepared, checked, id, version, -, bytes, -⟩ := prepared_of prepares_second
  have packs := packs_of "new" rfl reads_second id version bytes
  have there : (directory? prepared.remote.id world).isSome = true := by
    simp [directory?, only, id]
  have install : twoVersions.program (.install (publishing "2" [2])) = twoVersions.write prepared := by
    rw [Platform.program, Platform.install, checked]
  have left : (twoVersions.run killedSecond world).2 = place "aa" (twoVersions.stageKey prepared)
      (Platform.placedOf prepared (manifestEntry "2") (pageEntry "new"))
      (setAside "aa" (twoVersions.stagedOf prepared (manifestEntry "2") (pageEntry "new") world)) := by
    rw [killedSecond, Platform.run_single, install, Platform.write_killed packs there, id]
  -- The entry of the state file is still that of the first version.
  generalize (twoVersions.run killedSecond world).2 = upgraded at left ⊢
  have only : upgraded.installed = [("aa", Platform.placedOf prepared (manifestEntry "2") (pageEntry "new"))] := by
    rw [left]
    simp [place, withoutDirectory, setAside, Platform.stagedOf, extract, stage, only]
  have saved : upgraded.state "aa" = some ⟨true, [], some "active"⟩ := by
    rw [left]
    exact saved
  have down : upgraded.standing "aa" = false := by
    rw [left]
    simp [place]
  exact ⟨(served_of only (manifest_read reads_second "new" prepared) rfl saved).trans rfl, down⟩

theorem killedUpgrade_serves :
    twoVersions.contentPath (twoVersions.run killedUpgrade empty).2 "aa" "index.html" = some "new" ∧
      (twoVersions.run killedUpgrade empty).2.standing "aa" = false := by
  obtain ⟨old, only, saved, -⟩ := enabledFirst_leaves
  rw [killedUpgrade, Platform.run_append]
  exact killedSecond_serves only saved

/-- The new page is served although nobody enabled it. -/
theorem killedUpgrade_unapproved :
    ¬ ∀ path content, twoVersions.contentPath (twoVersions.run killedUpgrade empty).2 "aa" path =
      some content → twoVersions.Approved (twoVersions.run killedUpgrade empty).2 "aa" := by
  intro approved
  obtain ⟨served, down⟩ := killedUpgrade_serves
  obtain ⟨directory, -, -, standing, -⟩ := approved "index.html" "new" served
  rw [down] at standing
  cases standing

end Dash.Addons
