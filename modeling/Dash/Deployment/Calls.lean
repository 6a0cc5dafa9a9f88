import Dash.Deployment.Deploying

/-! Whole calls of install, adopt and rollback, and any number of them after each other. -/

set_option autoImplicit false

namespace Dash.Deployment

open Dash.Foundation Dash.Foundation.Program List
open Bool (and_eq_true not_eq_true')

namespace Platform

variable {pl : Platform}

/-- The reviewed bytes are at every target. Sources in the game directory may be targets themselves,
so for those the bytes are the ones that have the checksum. -/
def Delivered (pl : Platform) (args : InstallArgs) (start world : World) : Prop :=
  ∃ plan, pl.buildPlan args start = some plan ∧ pl.planSha256 plan = args.expectPlanSha256 ∧
    ∀ entry ∈ args.file, ∃ source bytes, pl.fileAt start entry.1 = some source ∧
      world.targets entry.2 = some ⟨bytes, 0o644⟩ ∧ pl.sha256 bytes = pl.sha256 source.bytes ∧
      (pl.inside entry.1 = none ∨ Function.Injective pl.sha256 → bytes = source.bytes)

variable {world : World} {args : InstallArgs} {plan : Plan}

theorem buildPlan_some (built : pl.buildPlan args world = some plan) :
    world.executable.map pl.sha256 = some plan.gameExecutableSha256 ∧ (plan.files.map Planned.relativeTarget).Nodup ∧
      List.Forall₂ (fun entry planned => pl.planRow world entry = some planned) args.file
        plan.files := by
  unfold buildPlan at built
  split at built
  · rename_i executable rows there mapped
    split at built
    · rename_i good
      simp only [and_eq_true, decide_eq_true_eq] at good
      cases built
      exact ⟨by rw [there]; rfl, good.2, Attempts.mapM_some mapped⟩
    · cases built
  · cases built

theorem planRow_some {entry : String × String} {planned : Planned} (row : pl.planRow world entry = some planned) :
    ∃ source, pl.fileAt world entry.1 = some source ∧ planned.source = entry.1 ∧
      planned.relativeTarget = entry.2 ∧ planned.sourceSha256 = pl.sha256 source.bytes := by
  unfold planRow at row
  split at row
  · cases row
  · rename_i source found
    split at row
    · cases row
      exact ⟨source, found, rfl, rfl, rfl⟩
    · cases row

theorem delivered {start world : World} {rows : List Row} (built : pl.buildPlan args start = some plan)
    (reviewed : pl.planSha256 plan = args.expectPlanSha256) (follows : Follows rowOf plan.files rows [])
    (placed : ∀ row ∈ rows, pl.Placed start world row) : pl.Delivered args start world := by
  obtain ⟨taken, whole, matched⟩ := follows
  rw [append_nil] at whole
  subst whole
  refine ⟨plan, built, reviewed, fun entry member => ?_⟩
  obtain ⟨planned, inPlan, row⟩ := Attempts.forall₂_left (buildPlan_some built).2.2 member
  obtain ⟨source, found, path, relative, sum⟩ := planRow_some row
  obtain ⟨_, inRows, original, rfl⟩ := Attempts.forall₂_left matched inPlan
  obtain ⟨bytes, target, same, outside⟩ := placed _ inRows
  simp only [rowOf, path, relative, sum] at target same outside
  refine ⟨source, bytes, found, target, same, ?_⟩
  rintro (apart | injective)
  · obtain ⟨other, there, equal⟩ := outside apart
    unfold fileAt at found
    rw [apart] at found
    rw [← equal, Option.some.inj (there.symm.trans found)]
  · exact injective same

theorem buildPlan_names (built : pl.buildPlan args world = some plan) :
    plan.files.map Planned.relativeTarget = args.file.map Prod.snd := by
  have matched := (buildPlan_some built).2.2
  generalize args.file = entries, plan.files = rows at matched ⊢
  induction matched with
  | nil => rfl
  | cons head _ ih =>
    obtain ⟨_, _, _, relative, _⟩ := planRow_some head
    rw [map_cons, map_cons, relative, ih]

variable {start : World}

theorem Backing.putting {rows : List Row} (built : pl.buildPlan args start = some plan)
    (backing : pl.Backing start (plan.files.map Planned.relativeTarget) [] start.targets rows world) :
    pl.Held start.targets ⟨.prepared, plan.gameExecutableSha256, rows⟩
      (writeManifest ⟨.prepared, plan.gameExecutableSha256, rows⟩ world) where
  written := rfl
  directory := backing.directory
  distinct := by
    have names := backing.names
    rw [append_nil] at names
    rw [names]
    exact (buildPlan_some built).2.1
  executable := by
    change world.executable.map pl.sha256 = _
    rw [backing.bare.executable]
    exact (buildPlan_some built).1
  restorable := backing.restorable
  targets := fun row _ => Or.inl (congrFun backing.bare.targets _)
  others := fun relative _ => congrFun backing.bare.targets relative

variable {before : String → Option File}

theorem Fine.bare (fine : pl.Fine before world)
    (absent : world.deploymentDir = false) : Bare world world ∧ world.targets = before := by
  rcases fine.1 with ⟨none, same⟩ | ⟨manifest, held, -⟩
  · exact ⟨⟨none, rfl, rfl, rfl⟩, same⟩
  · rw [held.directory] at absent
    cases absent

/-- What `install` and `adopt` ask for before they create the deployment. -/
structure Ready (request : Request) (start : World) : Prop where
  confirmed : request.confirmed = true
  stopped : request.clientRunning = false
  fresh : start.deploymentDir = false
  free : request.collisions = false

structure Admits (pl : Platform) (args : InstallArgs) (start : World) : Prop where
  ready : Ready args.toRequest start
  planned : ∃ plan, pl.buildPlan args start = some plan ∧ pl.planSha256 plan = args.expectPlanSha256

variable {allowed : Moment World Kind → Prop}

/-- An install stops in order, if what it does after its checks does. -/
theorem install_meets {stopped : World → Prop} (args : InstallArgs) (start : World) (halted : stopped start)
    (bare : pl.Admits args start → Bare start start)
    (unchanged : pl.Admits args start → ∀ world, Bare start world → stopped world)
    (prepared : pl.Admits args start → ∀ manifest : Manifest,
      manifest.files.map Row.relativeTarget = args.file.map Prod.snd → ∀ world,
      pl.Held start.targets { manifest with status := .prepared } world → stopped world)
    (stops : pl.Admits args start → ∀ manifest : Manifest,
      manifest.files.map Row.relativeTarget = args.file.map Prod.snd →
      Stops pl allowed start.targets manifest stopped)
    (ended : pl.Admits args start → ∀ manifest : Manifest,
      manifest.files.map Row.relativeTarget = args.file.map Prod.snd → ∀ world,
      pl.Held start.targets { manifest with status := .installed } world →
      (∀ row ∈ manifest.files, pl.Installed world row) → stopped world) :
    Meets allowed (fun world => world = start) (pl.install args)
      ⟨fun _ world => stopped world ∧ pl.Delivered args start world, stopped, stopped⟩ := by
  have here : ∀ world, world = start → stopped world := fun _ same => same ▸ halted
  refine Meets.requireThen here fun confirmed => ?_
  refine Meets.lookThen here (fun world same _ => here world same) fun _ _ => ?_
  refine Meets.requireThen here fun _ => ?_
  refine Meets.lookThen here (fun world same _ => here world same) fun seen same => ?_
  rw [same]
  cases plan_ : pl.buildPlan args start with
  | none => exact Meets.fail here
  | some plan =>
    refine Meets.requireThen here fun passes => ?_
    simp only [and_eq_true, not_eq_true', decide_eq_true_eq] at confirmed passes
    obtain ⟨⟨absent, sum⟩, free⟩ := passes
    have admits : pl.Admits args start := ⟨⟨confirmed.1, confirmed.2, absent, free⟩, plan, plan_, sum⟩
    have bare := bare admits
    have bareStops := unchanged admits
    -- the directory, the backups, the manifest, then the files: each leaves what the next starts from
    refine Meets.andThen (fun _ world => Bare start world ∧ world.deploymentDir = true) ?_ fun _ => ?_
    · apply Meets.act
      · rintro _ rfl
        exact ⟨⟨bare.manifest, rfl, rfl, rfl⟩, rfl⟩
      · exact fun world same _ => here world same
      · rintro _ rfl
        exact bareStops _ ⟨bare.manifest, rfl, rfl, rfl⟩
      · exact fun world same _ => here world same
    refine Meets.andThen (fun rows world => Follows rowOf plan.files rows [] ∧
      pl.Backing start (plan.files.map Planned.relativeTarget) [] start.targets rows world) ?_
      fun rows => ?_
    · exact (backUps_back (buildPlan_some plan_).2.1).consequence (fun _ _ holds => holds) bareStops bareStops
    let manifest : Manifest := ⟨.prepared, plan.gameExecutableSha256, rows⟩
    have named : ∀ world, Follows rowOf plan.files rows [] ∧ pl.Backing start
        (plan.files.map Planned.relativeTarget) [] start.targets rows world →
        manifest.files.map Row.relativeTarget = args.file.map Prod.snd := by
      intro world holds
      rw [← buildPlan_names plan_, ← holds.2.names, append_nil]
    refine Meets.assuming named fun names => ?_
    refine Meets.andThen (fun _ world => Follows rowOf plan.files rows [] ∧
      pl.Held start.targets manifest world ∧ world.targets = start.targets ∧
        world.sources = start.sources) ?_ fun _ => ?_
    · have written : ∀ world, Follows rowOf plan.files rows [] ∧ pl.Backing start
          (plan.files.map Planned.relativeTarget) [] start.targets rows world →
          pl.Held start.targets manifest (writeManifest manifest world) :=
        fun world holds => holds.2.putting plan_
      apply Meets.act
      · exact fun world holds =>
          ⟨holds.1, written world holds, holds.2.bare.targets, holds.2.bare.sources⟩
      · exact fun world holds _ => bareStops world holds.2.bare
      · exact fun world holds => prepared admits manifest names _ (written world holds)
      · exact fun world holds _ => bareStops world holds.2.bare
    refine Meets.andThen (fun _ world => Follows rowOf plan.files rows [] ∧
      pl.Putting start manifest rows world) ?_ fun _ => ?_
    · apply Meets.note
      rintro world ⟨follows, held, same, sources⟩
      refine ⟨follows, ⟨held.written, held.directory, held.distinct, held.executable,
        held.restorable, held.targets, held.others⟩, sources, rfl, ?_, ?_⟩
      · exact fun row _ => congrFun same _
      · exact fun row member => absurd member (not_mem_nil)
    refine Meets.assuming (fun _ holds => holds.1) fun follows =>
      (Meets.weaken ?_ fun _ holds => holds.2)
    refine (places (stops admits manifest names) (prepared admits manifest names)).consequence
      ?_ (fun _ stop => stop) fun _ stop => stop
    intro _ world holds
    refine ⟨ended admits manifest names world holds.1 fun row member =>
      (holds.2 row member).installed, delivered plan_ sum follows holds.2⟩

theorem install_fine (args : InstallArgs) (start : World) (fine : pl.Fine before start) :
    Meets (pl.Careful before) (fun world => world = start) (pl.install args)
      ⟨fun _ => pl.Fine before, pl.Fine before, pl.Fine before⟩ := by
  have same : pl.Admits args start → start.targets = before :=
    fun admits => (fine.bare admits.ready.fresh).2
  have meets : Meets (pl.Careful before) (fun world => world = start) (pl.install args)
      ⟨fun _ world => pl.Fine before world ∧ pl.Delivered args start world, pl.Fine before, pl.Fine before⟩ := by
    apply install_meets args start fine (fun admits => (fine.bare admits.ready.fresh).1)
    · exact fun admits world bare => same admits ▸ bare.fine
    · exact fun admits manifest _ world held =>
        same admits ▸ held.fine (Or.inr (Or.inl rfl))
    · intro admits manifest _
      rw [same admits]
      exact careful_stops manifest
    · exact fun admits manifest _ world held installed =>
        same admits ▸ held.fine (Or.inr (Or.inr ⟨rfl, installed⟩))
  exact meets.consequence (fun _ _ holds => holds.1) (fun _ holds => holds) fun _ holds => holds

theorem install_delivers (args : InstallArgs) (start : World)
    (bare : start.deploymentDir = false → start.manifest = none) :
    Meets (fun _ => True) (fun world => world = start) (pl.install args)
      ⟨fun _ => pl.Delivered args start, fun _ => True, fun _ => True⟩ := by
  have meets : Meets (fun _ => True) (fun world => world = start) (pl.install args)
      ⟨fun _ world => True ∧ pl.Delivered args start world, fun _ => True, fun _ => True⟩ :=
    install_meets args start trivial (fun admits => ⟨bare admits.ready.fresh, rfl, rfl, rfl⟩) (fun _ _ _ => trivial)
      (fun _ _ _ _ _ => trivial)
      (fun _ _ _ => ⟨fun _ _ _ _ => trivial, fun _ _ _ => trivial, fun _ _ _ _ _ => trivial⟩)
      fun _ _ _ _ _ _ => trivial
  exact meets.consequence (fun _ _ holds => holds.2) (fun _ _ => trivial) fun _ _ => trivial

def beforeAdoption (pl : Platform) (args : AdoptArgs) (start : World) (relative : String) : Option File :=
  match args.installed.find? fun entry => decide (entry.1 = relative) with
  | some (_, some path) => pl.fileAt start path
  | some (_, none) => none
  | none => start.targets relative

variable {rows : List Adopted} {executable : String}

variable {args : AdoptArgs}

theorem adoptedRows_some (read : pl.adoptedRows args world = some (executable, rows)) :
    world.executable.map pl.sha256 = some executable ∧ (rows.map Adopted.relativeTarget).Nodup ∧
      List.Forall₂ (fun entry row => pl.adoptedRow world entry = some row) args.installed rows := by
  unfold adoptedRows at read
  split at read
  · rename_i found rows there mapped
    split at read
    · rename_i good
      simp only [and_eq_true, decide_eq_true_eq] at good
      cases read
      exact ⟨by rw [there]; rfl, good.2, Attempts.mapM_some mapped⟩
    · cases read
  · cases read

theorem adoptedRow_some {entry : String × Option String} {row : Adopted} (read : pl.adoptedRow world entry = some row) :
    row.relativeTarget = entry.1 ∧ row.original = entry.2 ∧ row.originalFile = entry.2.bind (pl.fileAt world) ∧
      pl.shaOf (world.targets row.relativeTarget) = some row.installedSha256 := by
  unfold adoptedRow at read
  split at read
  · cases read
  · rename_i target found
    split at read
    · cases kept : entry.2 with
      | none =>
        rw [kept] at read
        cases read
        exact ⟨rfl, rfl, rfl, by unfold shaOf; rw [found]; rfl⟩
      | some path =>
        rw [kept] at read
        cases file : pl.fileAt world path with
        | none => simp [file] at read
        | some original =>
          simp only [file, Option.map_some, Option.some.injEq] at read
          subst read
          exact ⟨rfl, rfl, file.symm, by unfold shaOf; rw [found]; rfl⟩
    · cases read

variable {entries : List (String × Option String)}

theorem adoptedRow_names (matched : List.Forall₂ (fun entry row => pl.adoptedRow world entry = some row) entries rows) :
    rows.map Adopted.relativeTarget = entries.map Prod.fst :=
  Attempts.forall₂_map matched fun _ _ row => (adoptedRow_some row).1

variable (read : pl.adoptedRows args start = some (executable, rows))

include read in
theorem beforeAdoption_row
    {row : Adopted} (member : row ∈ rows) :
    pl.beforeAdoption args start row.relativeTarget = row.originalFile ∧
      row.originalFile = row.original.bind (pl.fileAt start) ∧
      pl.shaOf (start.targets row.relativeTarget) = some row.installedSha256 := by
  obtain ⟨-, nodup, matched⟩ := adoptedRows_some read
  rw [adoptedRow_names matched] at nodup
  obtain ⟨entry, listed, found⟩ := Attempts.forall₂_left matched.flip member
  obtain ⟨relative, original, file, sum⟩ := adoptedRow_some found
  refine ⟨?_, by rw [file, original], sum⟩
  unfold beforeAdoption
  rw [relative, Table.find_mem nodup listed, file]
  rcases entry with ⟨_, _ | path⟩ <;> rfl

include read in
theorem beforeAdoption_other
    {relative : String} (unlisted : relative ∉ rows.map Adopted.relativeTarget) :
    start.targets relative = pl.beforeAdoption args start relative := by
  obtain ⟨-, -, matched⟩ := adoptedRows_some read
  unfold beforeAdoption
  cases found : args.installed.find? fun entry => decide (entry.1 = relative) with
  | none => rfl
  | some entry =>
    have named := List.find?_some found
    obtain ⟨row, member, read⟩ := Attempts.forall₂_left matched (List.mem_of_find?_eq_some found)
    exfalso
    apply unlisted
    rw [← of_decide_eq_true named, ← (adoptedRow_some read).1]
    exact mem_map_of_mem member

/-- A row of `adopt`. -/
def adoptedOf (row : Adopted) (original : Option Original) : Row :=
  ⟨row.relativeTarget, "<adopted-current>", row.installedSha256, original⟩

include read in
theorem keepOriginal_keeps (item : Adopted)
    (left : List Adopted) (found : List Row) :
    Meets allowed (fun world => Follows adoptedOf rows found (item :: left) ∧
        pl.Backing start (rows.map Adopted.relativeTarget)
          ((item :: left).map Adopted.relativeTarget) (pl.beforeAdoption args start) found world)
      (pl.keepOriginal item)
      ⟨fun row world => Follows adoptedOf rows (found ++ [row]) left ∧
        pl.Backing start (rows.map Adopted.relativeTarget) (left.map Adopted.relativeTarget)
          (pl.beforeAdoption args start) (found ++ [row]) world, Bare start, Bare start⟩ := by
  let here : World → Prop := fun world => Follows adoptedOf rows found (item :: left) ∧
    pl.Backing start (rows.map Adopted.relativeTarget)
      ((item :: left).map Adopted.relativeTarget) (pl.beforeAdoption args start) found world
  have nodup := (adoptedRows_some read).2.1
  have known : ∀ world, here world → pl.beforeAdoption args start item.relativeTarget =
      item.originalFile ∧ item.originalFile = item.original.bind (pl.fileAt start) := by
    intro world holds
    obtain ⟨was, file, -⟩ := beforeAdoption_row read holds.1.member
    exact ⟨was, file⟩
  have absent : item.originalFile = none ∨ item.original = none → Meets allowed here (done (adoptedOf item none))
        ⟨fun row world => Follows adoptedOf rows (found ++ [row]) left ∧
          pl.Backing start (rows.map Adopted.relativeTarget) (left.map Adopted.relativeTarget)
            (pl.beforeAdoption args start) (found ++ [row]) world, Bare start, Bare start⟩ := by
    intro missing
    apply Meets.done
    intro world holds
    obtain ⟨was, file⟩ := known world holds
    refine ⟨holds.1.next none, holds.2.found nodup rfl (Or.inl rfl) ?_⟩
    change pl.beforeAdoption args start item.relativeTarget = none
    rw [was]
    rcases missing with missing | missing
    · exact missing
    · rw [file, missing]
      rfl
  have kept : ∀ world, here world → Bare start world := fun _ holds => holds.2.bare
  refine Meets.lookThen kept (fun world holds _ => kept world holds) fun seen held => ?_
  refine Meets.requireThen kept fun _ => ?_
  dsimp only
  rw [held.2.bare.fileAt, ← (known seen held).2]
  cases path : item.original with
  | none => exact absent (Or.inr path)
  | some path =>
    cases file : item.originalFile with
    | none => exact absent (Or.inl file)
    | some original =>
      have copied : ∀ world, here world → Bare start (copyBackup item.relativeTarget original.bytes world) :=
        fun world holds => holds.2.bare.copyBackup _ _
      let saved : World → Prop := fun after => ∃ world, here world ∧
        after = copyBackup item.relativeTarget original.bytes world
      have bare : ∀ after, saved after → Bare start after := by
        rintro _ ⟨world, holds, rfl⟩
        exact copied world holds
      refine Meets.requireThen kept fun _ => ?_
      refine Meets.andThen (fun _ => saved) ?_ fun _ => ?_
      · apply Meets.act
        · exact fun world holds => ⟨world, holds, rfl⟩
        · exact fun world holds _ => kept world holds
        · exact copied
        · exact fun world holds _ => kept world holds
      refine Meets.lookThen bare (fun after holds _ => bare after holds) fun _ _ => ?_
      refine Meets.requireThen bare fun _ => ?_
      apply Meets.done
      rintro _ ⟨world, holds, rfl⟩
      refine ⟨holds.1.next _, holds.2.found nodup rfl (Or.inr ⟨_, rfl⟩) ?_⟩
      refine ⟨original.bytes, Function.update_self _ _ _, rfl, ?_⟩
      rw [(known world holds).1, file]

def AdoptedOrNot (pl : Platform) (args : AdoptArgs) (start world : World) : Prop :=
  (world.manifest = none ∧ world.targets = start.targets) ∨
    (world.manifest ≠ none ∧ pl.Fine (pl.beforeAdoption args start) world)

structure AdmitsAdoption (pl : Platform) (args : AdoptArgs) (start : World) : Prop where
  ready : Ready args.toRequest start
  readable : (pl.adoptedRows args start).isSome = true

/-- An adoption stops in order, if what it leaves after its checks is. -/
theorem adopt_meets {stopped : World → Prop} (args : AdoptArgs) (start : World) (halted : stopped start)
    (bare : pl.AdmitsAdoption args start → Bare start start)
    (unchanged : pl.AdmitsAdoption args start → ∀ world, Bare start world → stopped world)
    (ended : pl.AdmitsAdoption args start → ∀ manifest : Manifest, manifest.status = .installed →
      manifest.files.map Row.relativeTarget = args.installed.map Prod.fst → ∀ world,
      world.targets = start.targets → pl.Held (pl.beforeAdoption args start) manifest world →
      (∀ row ∈ manifest.files, pl.Installed world row) → stopped world) :
    Meets allowed (fun world => world = start) (pl.adopt args) ⟨fun _ => stopped, stopped, stopped⟩ := by
  have here : ∀ world, world = start → stopped world := fun _ same => same ▸ halted
  refine Meets.requireThen here fun confirmed => ?_
  refine Meets.lookThen here (fun world same _ => here world same) fun seen same => ?_
  rw [same]
  cases read : pl.adoptedRows args start with
  | none => exact Meets.fail here
  | some pair =>
    obtain ⟨executable, rows⟩ := pair
    refine Meets.requireThen here fun passes => ?_
    simp only [and_eq_true, not_eq_true'] at confirmed passes
    have admits : pl.AdmitsAdoption args start :=
      ⟨⟨confirmed.1, confirmed.2, passes.1, passes.2⟩, by rw [read]; rfl⟩
    have bare := bare admits
    have bareStops := unchanged admits
    refine Meets.andThen (fun _ world => Bare start world ∧ world.deploymentDir = true) ?_ fun _ => ?_
    · apply Meets.act
      · rintro _ rfl
        exact ⟨⟨bare.manifest, rfl, rfl, rfl⟩, rfl⟩
      · exact fun world same _ => here world same
      · rintro _ rfl
        exact bareStops _ ⟨bare.manifest, rfl, rfl, rfl⟩
      · exact fun world same _ => here world same
    refine Meets.andThen (fun files world => Follows adoptedOf rows files [] ∧
      pl.Backing start (rows.map Adopted.relativeTarget) [] (pl.beforeAdoption args start) files
        world) ?_ fun files => ?_
    · refine Meets.consequence (Meets.attempt _ ?_ (remove_bare _)) (fun _ _ holds => holds) bareStops bareStops
      apply (Meets.collect (fun left found world => Follows adoptedOf rows found left ∧
        pl.Backing start (rows.map Adopted.relativeTarget) (left.map Adopted.relativeTarget)
          (pl.beforeAdoption args start) found world)
        fun item left found => keepOriginal_keeps read item left found).weaken
      rintro world ⟨bare, directory⟩
      exact ⟨⟨[], rfl, List.Forall₂.nil⟩, bare, directory, rfl, fun row member => absurd member (not_mem_nil)⟩
    have written : ∀ world, Follows adoptedOf rows files [] ∧
        pl.Backing start (rows.map Adopted.relativeTarget) [] (pl.beforeAdoption args start) files world →
        stopped (writeManifest ⟨.installed, executable, files⟩ world) := by
      rintro world ⟨follows, backing⟩
      obtain ⟨ran, nodup, entries⟩ := adoptedRows_some read
      have names : files.map Row.relativeTarget = rows.map Adopted.relativeTarget :=
        (append_nil _).symm.trans backing.names
      have installed : ∀ row ∈ files, pl.Installed world row := by
        intro row member
        obtain ⟨taken, whole, matched⟩ := follows
        rw [append_nil] at whole
        subst whole
        obtain ⟨item, listed, original, rfl⟩ := Attempts.forall₂_left matched.flip member
        unfold Installed
        rw [backing.bare.targets]
        exact (beforeAdoption_row read listed).2.2
      have held : pl.Held (pl.beforeAdoption args start) ⟨.installed, executable, files⟩
          (writeManifest ⟨.installed, executable, files⟩ world) := by
        refine ⟨rfl, backing.directory, names ▸ nodup, ?_, backing.restorable,
          fun row member => Or.inr (installed row member), fun relative unlisted => ?_⟩
        · change world.executable.map pl.sha256 = _
          rw [backing.bare.executable]
          exact ran
        · change world.targets relative = _
          rw [backing.bare.targets]
          exact beforeAdoption_other read (names ▸ unlisted)
      exact ended admits _ rfl (names.trans (adoptedRow_names entries)) _ backing.bare.targets held installed
    apply Meets.act
    · exact written
    · exact fun world holds _ => bareStops world holds.2.bare
    · exact written
    · exact fun world holds _ => bareStops world holds.2.bare

theorem adopt_fine (args : AdoptArgs) (start : World) (fresh : start.manifest = none) :
    Meets allowed (fun world => world = start) (pl.adopt args)
      ⟨fun _ => pl.AdoptedOrNot args start, pl.AdoptedOrNot args start, pl.AdoptedOrNot args start⟩ := by
  apply adopt_meets args start (Or.inl ⟨fresh, rfl⟩) fun _ => ⟨fresh, rfl, rfl, rfl⟩
  · exact fun _ world bare => Or.inl ⟨bare.manifest, bare.targets⟩
  · intro _ manifest status _ world _ held installed
    refine Or.inr ⟨?_, held.fine (Or.inr (Or.inr ⟨status, installed⟩))⟩
    rw [held.written]
    exact Option.some_ne_none _

/-- A later call for the deployment. -/
inductive Call where
  | install (args : InstallArgs)
  | rollback (confirmed clientRunning : Bool)

def Call.program (pl : Platform) : Call → Work Unit
  | .install args => pl.install args
  | .rollback confirmed clientRunning => pl.rollback confirmed clientRunning

/-- The calls of a run, each with what happens at its operations: its moments and the world left. -/
def run (pl : Platform) : List (Call × List Fault) → World → List (Moment World Kind) × World
  | [], world => ([], world)
  | (call, plan) :: rest, world =>
    let execution := call.program pl plan world
    let later := run pl rest execution.world
    (execution.trace ++ later.1, later.2)

theorem Call.fine (call : Call) (plan : List Fault) (fine : pl.Fine before world)
    (careful : ∀ moment ∈ (call.program pl plan world).trace, pl.Careful before moment) :
    pl.Fine before (call.program pl plan world).world := by
  cases call with
  | install args => exact (install_fine args world fine).always rfl careful
  | rollback confirmed clientRunning =>
    exact (rollback_fine confirmed clientRunning).always fine careful

theorem run_fine (calls : List (Call × List Fault)) (fine : pl.Fine before world)
    (careful : ∀ moment ∈ (pl.run calls world).1, pl.Careful before moment) :
    pl.Fine before (pl.run calls world).2 := by
  induction calls generalizing world with
  | nil => exact fine
  | cons call rest ih =>
    obtain ⟨call, plan⟩ := call
    apply ih
    · exact call.fine plan fine fun moment member => careful moment (mem_append_left _ member)
    · exact fun moment member => careful moment (mem_append_right _ member)

def Fresh (world : World) : Prop := world.manifest = none ∧ world.deploymentDir = false

/-- Every state that careful calls leave can be recovered, of an installed deployment and of an
adopted one, and an install that returns has put the reviewed bytes in place. -/
theorem deployments_recoverable (pl : Platform) (start : World) (fresh : Fresh start) :
    (∀ calls, (∀ moment ∈ (pl.run calls start).1, pl.Careful start.targets moment) →
      pl.Recoverable start.targets (pl.run calls start).2) ∧
    (∀ args plan calls,
      let adopted := (pl.adopt args plan start).world
      (adopted.manifest = none → adopted.targets = start.targets) ∧
      (adopted.manifest ≠ none → (∀ moment ∈ (pl.run calls adopted).1,
          pl.Careful (pl.beforeAdoption args start) moment) →
        pl.Recoverable (pl.beforeAdoption args start) (pl.run calls adopted).2)) ∧
    (∀ world args plan, (world.deploymentDir = false → world.manifest = none) →
      (pl.install args plan world).outcome = .returned () →
      pl.Delivered args world (pl.install args plan world).world) := by
  have begin_ : pl.Fine start.targets start := (⟨fresh.1, rfl, rfl, rfl⟩ : Bare start start).fine
  refine ⟨fun calls careful => (run_fine calls begin_ careful).recoverable, ?_, ?_⟩
  · intro args plan calls adopted
    have ends : pl.AdoptedOrNot args start adopted :=
      (@adopt_fine pl (fun _ => True) args start fresh.1).always rfl fun _ _ => trivial
    constructor
    · intro absent
      rcases ends with ⟨-, same⟩ | fine
      · exact same
      · exact absurd absent fine.1
    · intro created careful
      rcases ends with ⟨absent, -⟩ | fine
      · exact absurd absent created
      · exact (run_fine calls fine.2 careful).recoverable
  · intro world args plan bare outcome
    have ends := @install_delivers pl args world bare plan world rfl fun _ _ => trivial
    rw [outcome] at ends
    exact ends

theorem careful_of_status {moment : Moment World Kind} (holds : moment.fault = .proceeds ∨
      moment.world.manifest.map Manifest.status ≠ some .installed) :
    pl.Careful before moment := by
  intro mixed
  rcases holds with quiet | status
  · rw [quiet]
    exact ⟨nofun, fun written => nomatch written.2⟩
  · obtain ⟨manifest, written, installed, -⟩ := mixed
    rw [written, Option.map_some, installed] at status
    exact absurd rfl status

def sample : Platform where
  sha256 bytes := String.ofList (bytes.map fun byte => Char.ofNat byte.toNat)
  inside _ := none
  planSha256 plan := String.join (plan.files.map Planned.sourceSha256)

/-- A game without client files, and two files to put there. -/
def vacant : World where
  targets _ := none
  sources path := if path = "/probe/version.dll" then some ⟨[97], 0o600⟩
    else if path = "/probe/lua54.dll" then some ⟨[98], 0o600⟩ else none
  executable := some [99]
  deploymentDir := false
  backups _ := none
  manifest := none
  installed := []

def twoFiles : InstallArgs where
  confirmed := true
  validId := true
  clientRunning := false
  collisions := false
  file := [("/probe/version.dll", "DuneSandbox/Binaries/Win64/version.dll"),
    ("/probe/lua54.dll", "DuneSandbox/Binaries/Win64/lua54.dll")]
  expectPlanSha256 := "ab"

def halfInstalled : List (Call × List Fault) :=
  [(.install twoFiles, List.replicate 10 .proceeds ++ [.kills])]

def halfRolledBack : List (Call × List Fault) :=
  [(.install twoFiles, []), (.rollback true false, List.replicate 4 .proceeds ++ [.kills])]

theorem halfInstalled_recoverable : sample.Recoverable vacant.targets (sample.run halfInstalled vacant).2 ∧
      (sample.run halfInstalled vacant).2.targets "DuneSandbox/Binaries/Win64/version.dll" = some ⟨[97], 0o644⟩ := by
  refine ⟨(deployments_recoverable sample vacant ⟨rfl, rfl⟩).1 halfInstalled ?_, by decide⟩
  have stops : (sample.run halfInstalled vacant).1.all (fun moment =>
      decide (moment.fault = .proceeds ∨ moment.world.manifest.map Manifest.status ≠ some .installed)) = true := by
    decide
  rw [all_eq_true] at stops
  exact fun moment member => careful_of_status (of_decide_eq_true (stops moment member))

def isReturned {α : Type} : Outcome α → Bool
  | .returned _ => true
  | _ => false

theorem halfRolledBack_stuck :
    Fresh vacant ∧ ¬ sample.Recoverable vacant.targets (sample.run halfRolledBack vacant).2 := by
  refine ⟨⟨rfl, rfl⟩, ?_⟩
  rintro (same | ⟨after, ⟨trace, ran⟩, -⟩)
  · have changed : (sample.run halfRolledBack vacant).2.targets "DuneSandbox/Binaries/Win64/version.dll" ≠ none := by
      decide
    exact changed (congrFun same _)
  · have refused : isReturned (sample.rollback true false [] (sample.run halfRolledBack vacant).2).outcome = false := by
      decide
    rw [ran] at refused
    cases refused

end Platform

end Dash.Deployment
