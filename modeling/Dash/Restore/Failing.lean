import Dash.Restore.BackupSet

/-! How a restore fails.

It leaves writers stopped where a later stop raises, or the staging directory cannot be made: both
come before the guarded block. It leaves data half replaced where the set's content is refused: an
archive is read when its layer is reached, after the database has been replaced.
-/

set_option autoImplicit false

namespace Dash.Restore

open Foundation List

variable {δ : Type} {answers : Answers δ} {set : BackupSet δ} {layers : Layers}

/-- What a restore promises when it fails: it has asked every container it stopped to start, and where
the set's content is why it raises, nothing has been replaced. -/
def KeepsWhole (answers : Answers δ) (set : BackupSet δ) (layers : Layers) : Prop :=
  ∀ site : Site δ, site.stopped = [] → site.started = [] →
    (∀ id ∈ (restoreBackupSet answers set layers site).2.stopped,
      id ∈ (restoreBackupSet answers set layers site).2.started) ∧
    ∀ failure, (restoreBackupSet answers set layers site).1 = .error failure → failure.content = true →
        (restoreBackupSet answers set layers site).2.database = site.database ∧
          (restoreBackupSet answers set layers site).2.serverSaved = site.serverSaved ∧
          (restoreBackupSet answers set layers site).2.rabbitmq = site.rabbitmq ∧
          (restoreBackupSet answers set layers site).2.config = site.config ∧
          (restoreBackupSet answers set layers site).2.environment = site.environment

def haltedBy (answers : Answers δ) : List Container → List String
  | [] => []
  | container :: rest =>
    if !container.writes then haltedBy answers rest
    else
      match answers.stop container.id with
      | .raisesBefore _ => []
      | .raisesAfter _ => [container.id]
      | .done => container.id :: haltedBy answers rest

def AllStop (answers : Answers δ) (containers : List Container) : Prop :=
  ∀ container ∈ containers, container.writes = true → answers.stop container.id = .done

theorem haltedBy_all {containers : List Container} (stops : AllStop answers containers) :
    haltedBy answers containers = (containers.filter Container.writes).map Container.id := by
  induction containers with
  | nil => rfl
  | cons container rest ih =>
    have later : AllStop answers rest := fun other member =>
      stops other (mem_cons_of_mem _ member)
    cases writes : container.writes with
    | false => simp [haltedBy, writes, ih later]
    | true => simp [haltedBy, writes, ih later, stops container mem_cons_self writes]

variable (answers : Answers δ)

theorem stopContainers_spec (containers before : List Container) (site : Site δ) :
    ∃ outcome, stopContainers answers before containers site =
        (outcome, { site with stopped := site.stopped ++ haltedBy answers containers }) ∧
      (AllStop answers containers → outcome = .ok (before ++ containers.filter Container.writes)) ∧
      (¬AllStop answers containers → ∃ failure, outcome = .error failure ∧ failure.content = false) := by
  induction containers generalizing before site with
  | nil =>
    refine ⟨.ok before, ?_, fun _ => by simp, fun unstopped => absurd ?_ unstopped⟩
    · simp [stopContainers, haltedBy]
    · intro container member
      cases member
  | cons container rest ih =>
    have split : AllStop answers (container :: rest) ↔
        (container.writes = true → answers.stop container.id = .done) ∧ AllStop answers rest :=
      forall_mem_cons
    cases writes : container.writes with
    | false =>
      obtain ⟨outcome, same, good, bad⟩ := ih before site
      have drop : AllStop answers (container :: rest) ↔ AllStop answers rest := by
        rw [split, writes]
        simp
      refine ⟨outcome, ?_, fun all => ?_, fun some => bad (drop.not.mp some)⟩
      · simpa [stopContainers, haltedBy, writes] using same
      · rw [good (drop.mp all), filter_cons_of_neg (by simp [writes])]
    | true =>
      cases stop : answers.stop container.id with
      | raisesBefore error =>
        refine ⟨.error ⟨error, false⟩, ?_, fun all => ?_, fun _ => ⟨_, rfl, rfl⟩⟩
        · simp [stopContainers, haltedBy, writes, stop]
        · have done := (split.mp all).1 writes
          rw [stop] at done
          cases done
      | raisesAfter error =>
        refine ⟨.error ⟨error, false⟩, ?_, fun all => ?_, fun _ => ⟨_, rfl, rfl⟩⟩
        · simp only [stopContainers, writes, stop, Bool.not_true, Bool.false_eq_true, if_false]
          rw [Effectful.bind_ok (Effectful.modify_run _ _)]
          simp [haltedBy, writes, stop]
        · have done := (split.mp all).1 writes
          rw [stop] at done
          cases done
      | done =>
        obtain ⟨outcome, same, good, bad⟩ := ih (before ++ [container])
          { site with stopped := site.stopped ++ [container.id] }
        have drop : AllStop answers (container :: rest) ↔ AllStop answers rest := by
          rw [split]
          simp [stop]
        refine ⟨outcome, ?_, fun all => ?_, fun some => bad (drop.not.mp some)⟩
        · simp only [stopContainers, writes, stop, Bool.not_true, Bool.false_eq_true, if_false]
          rw [Effectful.bind_ok (Effectful.modify_run _ _), same]
          simp [haltedBy, writes, stop]
        · rw [good (drop.mp all), filter_cons_of_pos writes, append_assoc]
          rfl

theorem startContainers_spec (containers : List Container) (site : Site δ) :
    ∃ results, startContainers answers containers site = (.ok results,
      { site with started := site.started ++ containers.map Container.id }) := by
  induction containers generalizing site with
  | nil => exact ⟨[], by simp [startContainers]⟩
  | cons container rest ih =>
    obtain ⟨others, same⟩ := ih { site with started := site.started ++ [container.id] }
    simp only [startContainers]
    rw [Effectful.bind_ok (Effectful.modify_run _ _), Effectful.bind_ok same]
    refine ⟨_, Prod.ext rfl ?_⟩
    simp

theorem startRestoreWriters_spec (stopped : List Container) (site : Site δ) :
    ∃ outcome, startRestoreWriters answers stopped site = (outcome, { site with
        started := site.started ++ (stopped.mergeSort startsEarlier).map Container.id }) ∧
      ∀ failure, outcome = .error failure → failure.content = false := by
  obtain ⟨results, same⟩ := startContainers_spec answers (stopped.mergeSort startsEarlier) site
  simp only [startRestoreWriters]
  rw [Effectful.bind_ok same]
  split
  · cases answered : answers.hooks with
    | ok ok => exact ⟨_, rfl, fun _ same => nomatch same⟩
    | error error =>
      refine ⟨_, rfl, fun failure same => ?_⟩
      cases same
      rfl
  · exact ⟨_, rfl, fun _ same => nomatch same⟩

inductive Verdict where
  | fine | fault | content
  deriving DecidableEq

def firstBad (verdicts : List Verdict) : Option Verdict :=
  verdicts.find? fun verdict => verdict ≠ .fine

def answered {ε α : Type} (outcome : Except ε α) : Verdict :=
  match outcome with
  | .ok _ => .fine
  | .error _ => .fault

def accepted {ε α : Type} (outcome : Except ε α) : Verdict :=
  match outcome with
  | .ok _ => .fine
  | .error _ => .content

def SameElsewhere (site after : Site δ) : Prop :=
  after.database = site.database ∧ after.stopped = site.stopped ∧ after.started = site.started

def Judged {α : Type} (part : Restoring δ α) (verdicts : List Verdict) (value : α) : Prop :=
  ∀ site, ∃ outcome after, part site = (outcome, after) ∧ SameElsewhere site after ∧
    match firstBad verdicts with
    | none => outcome = .ok value
    | some verdict => ∃ failure, outcome = .error failure ∧
        failure.content = decide (verdict = .content)

theorem SameElsewhere.refl (site : Site δ) : SameElsewhere site site := ⟨rfl, rfl, rfl⟩

theorem SameElsewhere.trans {first second third : Site δ} (one : SameElsewhere first second)
    (other : SameElsewhere second third) : SameElsewhere first third :=
  ⟨other.1.trans one.1, other.2.1.trans one.2.1, other.2.2.trans one.2.2⟩

theorem firstBad_append (first second : List Verdict) :
    firstBad (first ++ second) = (firstBad first).or (firstBad second) := by
  rw [firstBad, List.find?_append]
  rfl

theorem Judged.pure {α : Type} (value : α) : Judged (pure value : Restoring δ α) [] value :=
  fun site => ⟨_, _, rfl, .refl site, rfl⟩

theorem Judged.bind {α β : Type} {first : Restoring δ α} {next : α → Restoring δ β}
    {verdicts later : List Verdict} {value : α} {last : β} (one : Judged first verdicts value)
    (other : Judged (next value) later last) : Judged (first >>= next) (verdicts ++ later) last := by
  intro site
  obtain ⟨outcome, middle, ran, same, ends⟩ := one site
  rw [firstBad_append]
  cases bad : firstBad verdicts with
  | some verdict =>
    rw [bad] at ends
    obtain ⟨failure, rfl, cause⟩ := ends
    exact ⟨_, middle, Effectful.bind_error ran, same, failure, rfl, cause⟩
  | none =>
    rw [bad] at ends
    subst ends
    obtain ⟨final, after, runs, still, finally_⟩ := other middle
    exact ⟨final, after, (Effectful.bind_ok ran).trans runs, same.trans still, finally_⟩

theorem Judged.refuse {α : Type} (message : String) (value : α) :
    Judged (refuse message : Restoring δ α) [.content] value :=
  fun site => ⟨_, _, rfl, .refl site, _, rfl, rfl⟩

def stageOf (artifact : String × Archive) : Tree :=
  match artifact.2.check artifact.1 with
  | .ok members => extracted members
  | .error _ => fun _ => none

def extraction (answers : Answers δ) (artifact : String × Archive) : List Verdict :=
  [accepted (artifact.2.check artifact.1), answered (answers.extraction artifact.1)]

theorem judged_extract (artifact : String × Archive) :
    Judged (safeExtractRestoreArchive answers artifact) (extraction answers artifact) (stageOf artifact) := by
  unfold safeExtractRestoreArchive extraction stageOf
  cases checked : artifact.2.check artifact.1 with
  | error error => exact fun site => ⟨_, _, rfl, .refl site, _, rfl, rfl⟩
  | ok members =>
    intro site
    cases answers.extraction artifact.1 with
    | error error => exact ⟨_, _, rfl, .refl site, _, rfl, rfl⟩
    | ok value => exact ⟨_, _, rfl, .refl site, rfl⟩

theorem replace_elsewhere (site : Site δ) (destination : Destination) (source : Tree) :
    SameElsewhere site (site.replace destination source) := by
  cases destination <;> exact ⟨rfl, rfl, rfl⟩

theorem judged_replace (source : Tree) (destination : Destination) :
    Judged (replaceDirectoryContents answers source destination) [answered (answers.replacement destination)] () := by
  intro site
  unfold replaceDirectoryContents
  cases answers.replacement destination with
  | ok value => exact ⟨_, _, rfl, replace_elsewhere site destination source, rfl⟩
  | error error => exact ⟨_, _, rfl, replace_elsewhere site destination error.2, _, rfl, rfl⟩

def environmentSteps (answers : Answers δ) (stage : Tree) : List Verdict :=
  match stage [".env"] with
  | some (.file bytes) => [accepted (answers.decoded bytes), answered answers.environment]
  | _ => []

theorem judged_environment (stage : Tree) :
    Judged (restoreEnvPreservingDatabasePassword answers stage) (environmentSteps answers stage) () := by
  unfold restoreEnvPreservingDatabasePassword environmentSteps
  generalize stage [".env"] = entry
  match entry with
  | none => exact Judged.pure ()
  | some .directory => exact Judged.pure ()
  | some (.file bytes) =>
    intro site
    dsimp only
    cases answers.decoded bytes with
    | error error => exact ⟨_, _, rfl, .refl site, _, rfl, rfl⟩
    | ok content =>
      cases answers.environment with
      | error error => exact ⟨_, _, rfl, .refl site, _, rfl, rfl⟩
      | ok value => exact ⟨_, _, rfl, ⟨rfl, rfl, rfl⟩, rfl⟩

def serverSavedSteps (answers : Answers δ) (artifact : String × Archive) : List Verdict :=
  extraction answers artifact ++ [answered (answers.replacement .serverSaved)]

def rabbitmqSteps (answers : Answers δ) : Rabbitmq → List Verdict
  | .combined artifact => extraction answers artifact ++ [answered (answers.replacement .rabbitmq)]
  | .legacy admin game =>
    extraction answers admin ++ ([answered (answers.replacement .rabbitmqAdmin)] ++
      (extraction answers game ++ [answered (answers.replacement .rabbitmqGame)]))

def configSteps (answers : Answers δ) (stage : Tree) : List Verdict :=
  [answered (answers.replacement .config)] ++ environmentSteps answers stage

/-- Where the set holds the `config/tls` directory. -/
def tlsDirectory (tls : Option (String × Archive)) (configStage : Option Tree) : Option Tree :=
  match tls with
  | some artifact => tlsSource (stageOf artifact) [["config", "tls"], ["tls"], []]
  | none => configStage.bind fun stage => tlsSource stage [["config", "tls"]]

def tlsSteps (answers : Answers δ) (tls : Option (String × Archive)) (configStage : Option Tree) :
    List Verdict :=
  (tls.map (extraction answers)).getD [] ++
  match tlsDirectory tls configStage with
  | some _ => [answered (answers.replacement .tls)]
  | none => [.content]

def configArtifact (artifacts : Artifacts δ) : Option (String × Archive) :=
  artifacts.config.or artifacts.tlsFromConfig

def layerSteps (answers : Answers δ) (artifacts : Artifacts δ) (layers : Layers) : List Verdict :=
  ((artifacts.serverSaved.map (serverSavedSteps answers)).getD []) ++
  (((artifacts.rabbitmq.map (rabbitmqSteps answers)).getD []) ++
  (((configArtifact artifacts).map (extraction answers)).getD [] ++
  (((if layers.config then (configArtifact artifacts).map stageOf else none).map
      (configSteps answers)).getD [] ++
  if layers.tls && !layers.config then
    tlsSteps answers artifacts.tls ((configArtifact artifacts).map stageOf)
  else [])))

theorem judged_serverSaved (artifact : String × Archive) :
    Judged (restoreServerSaved answers artifact) (serverSavedSteps answers artifact) () :=
  (judged_extract answers artifact).bind (judged_replace answers _ .serverSaved)

theorem judged_rabbitmq (artifact : Rabbitmq) :
    Judged (restoreRabbitmq answers artifact) (rabbitmqSteps answers artifact) () := by
  cases artifact with
  | combined artifact => exact (judged_extract answers artifact).bind (judged_replace answers _ .rabbitmq)
  | legacy admin game =>
    exact (judged_extract answers admin).bind ((judged_replace answers _ .rabbitmqAdmin).bind
      ((judged_extract answers game).bind (judged_replace answers _ .rabbitmqGame)))

theorem judged_config (stage : Tree) : Judged (restoreConfig answers stage) (configSteps answers stage) () :=
  (judged_replace answers _ .config).bind (judged_environment answers stage)

theorem judged_findTls (tls : Option (String × Archive)) (configStage : Option Tree) :
    Judged (findTls answers tls configStage) ((tls.map (extraction answers)).getD [])
      (tlsDirectory tls configStage) := by
  cases tls with
  | none => exact Judged.pure _
  | some artifact =>
    have first := judged_extract answers artifact
    rw [Option.map_some, Option.getD_some, ← append_nil (extraction answers artifact)]
    exact first.bind (Judged.pure _)

theorem judged_replaceTls (source : Option Tree) :
    Judged (replaceTls answers source) (match source with
      | some _ => [answered (answers.replacement .tls)]
      | none => [.content]) () := by
  cases source with
  | none => exact Judged.refuse _ ()
  | some source => exact judged_replace answers source .tls

theorem judged_tls (tls : Option (String × Archive)) (configStage : Option Tree) :
    Judged (restoreTls answers tls configStage) (tlsSteps answers tls configStage) () :=
  (judged_findTls answers tls configStage).bind (judged_replaceTls answers _)

theorem judged_optionally {α : Type} {part : α → Restoring δ Unit} {steps : α → List Verdict}
    (judged : ∀ artifact, Judged (part artifact) (steps artifact) ()) (artifact : Option α) :
    Judged (optionally part artifact) ((artifact.map steps).getD []) () := by
  cases artifact with
  | none => exact Judged.pure ()
  | some artifact => exact judged artifact

theorem judged_extractConfig (artifact : Option (String × Archive)) :
    Judged (extractConfig answers artifact) ((artifact.map (extraction answers)).getD []) (artifact.map stageOf) := by
  cases artifact with
  | none => exact Judged.pure none
  | some artifact =>
    have first := judged_extract answers artifact
    rw [Option.map_some, Option.getD_some, ← append_nil (extraction answers artifact)]
    exact first.bind (Judged.pure _)

theorem judged_layers (artifacts : Artifacts δ) (layers : Layers) :
    Judged (restoreSelectedFileLayers answers artifacts layers) (layerSteps answers artifacts layers) () := by
  refine (judged_optionally (judged_serverSaved answers) artifacts.serverSaved).bind ?_
  refine (judged_optionally (judged_rabbitmq answers) artifacts.rabbitmq).bind ?_
  refine (judged_extractConfig answers (configArtifact artifacts)).bind ?_
  refine (judged_optionally (judged_config answers) _).bind ?_
  split
  · exact judged_tls answers artifacts.tls _
  · exact Judged.pure ()

def Refuses (answers : Answers δ) (artifacts : Artifacts δ) (layers : Layers) : Prop :=
  (∃ recovery, answers.preRestore = .ok recovery) ∧ (∃ done, answers.postgres = .ok done) ∧
    firstBad (layerSteps answers artifacts layers) = some .content

/-- The error is one of content just where the layers refuse theirs, over the restored database. -/
def Told {α : Type} (answers : Answers δ) (artifacts : Artifacts δ) (layers : Layers)
    (outcome : Except Failure α) (after : Site δ) : Prop :=
  (Refuses answers artifacts layers → after.database = artifacts.postgres.2 ∧
    ∃ failure, outcome = .error failure ∧ failure.content = true) ∧
  (¬Refuses answers artifacts layers → ∀ failure, outcome = .error failure → failure.content = false)

theorem restoreData_spec (artifacts : Artifacts δ) (layers : Layers) (site : Site δ) :
    ∃ outcome after, restoreData answers artifacts layers site = (outcome, after) ∧
      after.stopped = site.stopped ∧ after.started = site.started ∧
      Told answers artifacts layers outcome after := by
  unfold restoreData Told
  cases backup : answers.preRestore with
  | error error =>
    refine ⟨_, site, Effectful.bind_error (Effectful.lift_run _ _), rfl, rfl, ?_, fun _ failure same => ?_⟩
    · rintro ⟨⟨_, ok⟩, -⟩
      rw [backup] at ok
      cases ok
    · cases same
      rfl
  | ok recovery =>
    have began : (outside (.ok recovery) : Restoring δ String) site = (.ok recovery, site) := rfl
    rw [Effectful.bind_ok began]
    cases restored : answers.postgres with
    | error error =>
      have ran : restorePostgresDump answers artifacts.postgres.2 site =
          (.error ⟨error.1, false⟩, { site with database := error.2 }) := by
        simp only [restorePostgresDump, restored]
        rfl
      refine ⟨_, _, Effectful.bind_error ran, rfl, rfl, ?_, fun _ failure same => ?_⟩
      · rintro ⟨-, ⟨_, ok⟩, -⟩
        rw [restored] at ok
        cases ok
      · cases same
        rfl
    | ok done =>
      have ran : restorePostgresDump answers artifacts.postgres.2 site =
          (.ok (), { site with database := artifacts.postgres.2 }) := by
        simp only [restorePostgresDump, restored]
        rfl
      rw [Effectful.bind_ok ran]
      obtain ⟨outcome, after, layered, ⟨kept, stopped, started⟩, ends⟩ :=
        judged_layers answers artifacts layers { site with database := artifacts.postgres.2 }
      have refuses : Refuses answers artifacts layers ↔
          firstBad (layerSteps answers artifacts layers) = some .content :=
        ⟨fun all => all.2.2, fun bad => ⟨⟨_, backup⟩, ⟨_, restored⟩, bad⟩⟩
      rw [refuses]
      cases bad : firstBad (layerSteps answers artifacts layers) with
      | none =>
        rw [bad] at ends
        subst ends
        exact ⟨_, after, Effectful.bind_ok layered, stopped, started, (fun same => nomatch same),
          fun _ _ same => nomatch same⟩
      | some verdict =>
        rw [bad] at ends
        obtain ⟨failure, rfl, cause⟩ := ends
        refine ⟨_, after, Effectful.bind_error layered, stopped, started, fun same => ?_, fun other _ same => ?_⟩
        · rw [Option.some.injEq] at same
          rw [same] at cause
          exact ⟨kept, failure, rfl, cause.trans (decide_eq_true rfl)⟩
        · cases same
          rw [cause, decide_eq_false_iff_not]
          exact fun is => other (congrArg some is)

/-- However the block ends, every stopped container has been asked to start. -/
theorem guarded_spec (stopped : List Container) (artifacts : Artifacts δ) (layers : Layers) (site : Site δ) :
    ∃ outcome after, guarded answers stopped (restoreData answers artifacts layers) site = (outcome, after) ∧
      after.stopped = site.stopped ∧
      after.started = site.started ++ (stopped.mergeSort startsEarlier).map Container.id ∧
      Told answers artifacts layers outcome after := by
  obtain ⟨outcome, after, ran, halted, begun, refused, fine⟩ := restoreData_spec answers artifacts layers site
  obtain ⟨restart, same, cause⟩ := startRestoreWriters_spec answers stopped after
  unfold guarded
  rw [ran]
  cases outcome with
  | error failure =>
    simp only [same]
    cases restart with
    | ok results =>
      refine ⟨_, _, rfl, halted, by rw [begun], fun refuses => ?_, fun accepts other ends => ?_⟩
      · obtain ⟨database, failure, failed, content⟩ := refused refuses
        cases failed
        exact ⟨database, _, rfl, content⟩
      · cases ends
        exact fine accepts failure rfl
    | error error =>
      refine ⟨_, _, rfl, halted, by rw [begun], fun refuses => ?_, fun accepts other ends => ?_⟩
      · obtain ⟨database, failure, failed, content⟩ := refused refuses
        cases failed
        exact ⟨database, _, rfl, content⟩
      · cases ends
        exact fine accepts failure rfl
  | ok recovery =>
    have accepts : ¬Refuses answers artifacts layers := fun refuses => by
      obtain ⟨-, failure, failed, -⟩ := refused refuses
      cases failed
    dsimp only
    cases restart with
    | error error =>
      rw [Effectful.bind_error same]
      refine ⟨_, _, rfl, halted, by rw [begun], fun refuses => absurd refuses accepts, fun _ failure ends => ?_⟩
      cases ends
      exact cause error rfl
    | ok results =>
      rw [Effectful.bind_ok same]
      split
      · exact ⟨_, _, rfl, halted, by rw [begun], fun refuses => absurd refuses accepts,
          fun _ failure ends => nomatch ends⟩
      · refine ⟨_, _, rfl, halted, by rw [begun], fun refuses => absurd refuses accepts, fun _ failure ends => ?_⟩
        cases ends
        rfl

def Begins (answers : Answers δ) (set : BackupSet δ) (layers : Layers) (artifacts : Artifacts δ)
    (containers : List Container) : Prop :=
  set.verified = .ok true ∧ restoreBackupArtifacts set layers = .ok artifacts ∧
    (∃ online, answers.online = .ok online ∧ online ≤ 0) ∧ answers.containers = .ok containers

/-- A container has been stopped when another stop raises or the staging directory is not made. -/
def Strands (answers : Answers δ) (set : BackupSet δ) (layers : Layers) : Prop :=
  ∃ artifacts containers, Begins answers set layers artifacts containers ∧ haltedBy answers containers ≠ [] ∧
    ¬(AllStop answers containers ∧ ∃ done, answers.staging = .ok done)

/-- Of the steps before and in the guarded block, the first that does not go through is one that the
set's content stops. -/
def ContentFails (answers : Answers δ) (set : BackupSet δ) (layers : Layers) : Prop :=
  ∃ artifacts containers, Begins answers set layers artifacts containers ∧
    AllStop answers containers ∧ (∃ done, answers.staging = .ok done) ∧
    Refuses answers artifacts layers

/-- The restore leaves everything alone, or it gets to stopping the containers. -/
theorem restore_begins (set : BackupSet δ) (layers : Layers) :
    (∀ site, ∃ failure, restoreBackupSet answers set layers site = (.error failure, site)) ∧
      (¬∃ artifacts containers, Begins answers set layers artifacts containers) ∨
    ∃ artifacts containers, Begins answers set layers artifacts containers ∧
      ∀ site, restoreBackupSet answers set layers site = (do
          let stopped ← stopContainers answers [] containers
          outside answers.staging
          guarded answers stopped (restoreData answers artifacts layers)) site := by
  unfold restoreBackupSet Begins
  cases verified : set.verified with
  | error error => exact .inl ⟨fun site => ⟨_, rfl⟩, fun ⟨_, _, ok, _⟩ => nomatch ok⟩
  | ok verdict =>
    cases verdict with
    | false => exact .inl ⟨fun site => ⟨_, rfl⟩, fun ⟨_, _, ok, _⟩ => nomatch ok⟩
    | true =>
      cases found : restoreBackupArtifacts set layers with
      | error error => exact .inl ⟨fun site => ⟨_, rfl⟩, fun ⟨_, _, _, ok, _⟩ => nomatch ok⟩
      | ok artifacts =>
        cases players : answers.online with
        | error error =>
          exact .inl ⟨fun site => ⟨_, rfl⟩, fun ⟨_, _, _, _, ⟨_, ok, _⟩, _⟩ => nomatch ok⟩
        | ok online =>
          by_cases busy : online > 0
          · refine .inl ⟨fun site => ⟨⟨"restore requires zero online players", false⟩, ?_⟩, ?_⟩
            · change (if online > 0 then _ else _ : Restoring δ Unit) site = _
              rw [if_pos busy]
              rfl
            · rintro ⟨_, _, _, _, ⟨_, ok, none⟩, _⟩
              cases ok
              omega
          · cases listed : answers.containers with
            | error error =>
              refine .inl ⟨fun site => ⟨⟨error, false⟩, ?_⟩, fun ⟨_, _, _, _, _, ok⟩ => nomatch ok⟩
              change (if online > 0 then _ else _ : Restoring δ Unit) site = _
              rw [if_neg busy]
              simp only [stopRestoreWriters, listed]
              rfl
            | ok containers =>
              refine .inr ⟨artifacts, containers, ⟨rfl, rfl, ⟨online, rfl, by omega⟩, rfl⟩, fun site => ?_⟩
              change (if online > 0 then _ else _ : Restoring δ Unit) site = _
              rw [if_neg busy]
              simp only [stopRestoreWriters, listed]
              rfl

variable {answers}

theorem begins_unique {artifacts other : Artifacts δ} {containers others : List Container}
    (one : Begins answers set layers artifacts containers)
    (two : Begins answers set layers other others) : artifacts = other ∧ containers = others := by
  obtain ⟨-, found, -, listed⟩ := one
  obtain ⟨-, again, -, too⟩ := two
  rw [found] at again
  rw [listed] at too
  exact ⟨Except.ok.inj again, Except.ok.inj too⟩

section Begun

variable {artifacts : Artifacts δ} {containers : List Container}

theorem restore_runs (begins : Begins answers set layers artifacts containers) (site : Site δ) :
    restoreBackupSet answers set layers site = (do
        let stopped ← stopContainers answers [] containers
        outside answers.staging
        guarded answers stopped (restoreData answers artifacts layers)) site := by
  rcases restore_begins answers set layers with ⟨-, never⟩ | ⟨_, _, others, same⟩
  · exact absurd ⟨artifacts, containers, begins⟩ never
  · obtain ⟨rfl, rfl⟩ := begins_unique begins others
    exact same site

theorem restore_stopped (begins : Begins answers set layers artifacts containers)
    (stops : ¬(AllStop answers containers ∧ ∃ done, answers.staging = .ok done)) (site : Site δ) :
    ∃ failure : Failure, failure.content = false ∧ restoreBackupSet answers set layers site = (.error failure,
        { site with stopped := site.stopped ++ haltedBy answers containers }) := by
  obtain ⟨outcome, stopped, good, bad⟩ := stopContainers_spec answers containers [] site
  rw [restore_runs begins]
  by_cases all : AllStop answers containers
  · cases staged : answers.staging with
    | ok done => exact absurd ⟨all, done, staged⟩ stops
    | error error =>
      rw [good all] at stopped
      rw [Effectful.bind_ok stopped]
      exact ⟨⟨error, false⟩, rfl, rfl⟩
  · obtain ⟨failure, rfl, cause⟩ := bad all
    exact ⟨failure, cause, Effectful.bind_error stopped⟩

theorem restore_guarded (begins : Begins answers set layers artifacts containers)
    (all : AllStop answers containers) (staged : ∃ done, answers.staging = .ok done)
    (site : Site δ) :
    ∃ outcome after, restoreBackupSet answers set layers site = (outcome, after) ∧
      after.stopped = site.stopped ++ (containers.filter Container.writes).map Container.id ∧
      after.started = site.started ++ ((containers.filter Container.writes).mergeSort startsEarlier).map Container.id ∧
      Told answers artifacts layers outcome after := by
  obtain ⟨outcome, stopped, good, -⟩ := stopContainers_spec answers containers [] site
  obtain ⟨done, staged⟩ := staged
  rw [good all, haltedBy_all all] at stopped
  rw [restore_runs begins, Effectful.bind_ok stopped, nil_append, staged]
  exact guarded_spec answers (containers.filter Container.writes) artifacts layers
    { site with stopped := site.stopped ++ (containers.filter Container.writes).map Container.id }

end Begun

theorem KeepsWhole.unstranded (whole : KeepsWhole answers set layers) (database : δ) : ¬Strands answers set layers := by
  rintro ⟨artifacts, containers, begins, halted, stops⟩
  let site : Site δ := ⟨database, fun _ => none, fun _ => none, fun _ => none, none, [], []⟩
  obtain ⟨failure, -, ended⟩ := restore_stopped begins stops site
  have asked := (whole site rfl rfl).1
  rw [ended] at asked
  exact halted (eq_nil_iff_forall_not_mem.mpr fun id member =>
    not_mem_nil (asked id member))

theorem KeepsWhole.accepts (whole : KeepsWhole answers set layers)
    (others : ∀ dumped : δ, ∃ database, database ≠ dumped) : ¬ContentFails answers set layers := by
  rintro ⟨artifacts, containers, begins, all, staged, refused⟩
  obtain ⟨database, different⟩ := others artifacts.postgres.2
  let site : Site δ := ⟨database, fun _ => none, fun _ => none, fun _ => none, none, [], []⟩
  obtain ⟨outcome, after, ran, -, -, replaced, -⟩ := restore_guarded begins all staged site
  obtain ⟨restored, failure, failed, content⟩ := replaced refused
  have kept := (whole site rfl rfl).2 failure
  rw [ran] at kept
  exact different ((kept failed content).1.symm.trans restored)

/-- A restore keeps its promises, whatever it finds in place, unless a stop that follows another or
the staging directory fails, or the set's content is refused once the database has been replaced. -/
theorem keepsWhole_iff [Nontrivial δ] : KeepsWhole answers set layers ↔
      ¬Strands answers set layers ∧ ¬ContentFails answers set layers := by
  constructor
  · intro whole
    obtain ⟨database, -, -⟩ := exists_pair_ne δ
    exact ⟨whole.unstranded database, whole.accepts exists_ne⟩
  · rintro ⟨unstranded, accepted⟩ site stopped started
    rcases restore_begins answers set layers with ⟨idle, -⟩ | ⟨artifacts, containers, begins, -⟩
    · obtain ⟨failure, alone⟩ := idle site
      rw [alone]
      refine ⟨fun id member => ?_, fun _ _ _ => ⟨rfl, rfl, rfl, rfl, rfl⟩⟩
      rw [stopped] at member
      cases member
    · by_cases stops : AllStop answers containers ∧ ∃ done, answers.staging = .ok done
      · obtain ⟨outcome, after, ran, halted, begun, -, fine⟩ :=
          restore_guarded begins stops.1 stops.2 site
        rw [ran]
        refine ⟨fun id member => ?_, fun failure failed content => ?_⟩
        · rw [halted, stopped, nil_append] at member
          rw [begun, started, nil_append]
          obtain ⟨container, listed, rfl⟩ := mem_map.mp member
          exact mem_map_of_mem (mem_mergeSort.mpr listed)
        · have sound : ¬Refuses answers artifacts layers := fun refuses =>
            accepted ⟨artifacts, containers, begins, stops.1, stops.2, refuses⟩
          rw [fine sound failure failed] at content
          cases content
      · obtain ⟨failure, cause, ended⟩ := restore_stopped begins stops site
        have unhalted : haltedBy answers containers = [] := by
          by_contra halted
          exact unstranded ⟨artifacts, containers, begins, halted, stops⟩
        rw [ended]
        refine ⟨fun id member => ?_, fun other failed content => ?_⟩
        · rw [unhalted, stopped] at member
          cases member
        · cases failed
          rw [cause] at content
          cases content

/-- Nothing outside fails, and no container runs. -/
def smooth : Answers String where
  online := .ok 0
  containers := .ok []
  stop _ := .done
  start _ := .ok ()
  staging := .ok ()
  preRestore := .ok "maintenance/before"
  postgres := .ok ()
  extraction _ := .ok ()
  replacement _ := .ok ()
  environment := .ok ()
  decoded := .ok
  restartSafe _ := false
  hooks := .ok true

def slowDirector : Answers String :=
  { smooth with
    containers := .ok [⟨"1", "gateway", true⟩, ⟨"2", "director", true⟩]
    stop := fun id => if id = "1" then .done else .raisesBefore "timed out" }

def truncatedSet : BackupSet String where
  dumps := [("postgres-dune.dump", "dumped")]
  archive name := if name = "server-saved.tgz" then some ⟨.error "unexpected end of data", none⟩ else none
  verified := .ok true

theorem keepsWhole_iff_truncated : KeepsWhole smooth truncatedSet { serverSaved := true } ↔
      ¬Strands smooth truncatedSet { serverSaved := true } ∧
        ¬ContentFails smooth truncatedSet { serverSaved := true } :=
  haveI : Nontrivial String := ⟨"", "dumped", by decide⟩
  keepsWhole_iff

theorem truncated_artifacts : ∃ artifacts, restoreBackupArtifacts truncatedSet { serverSaved := true } = .ok artifacts ∧
      Refuses smooth artifacts { serverSaved := true } :=
  ⟨_, rfl, ⟨_, rfl⟩, ⟨_, rfl⟩, by decide⟩

theorem other_database (dumped : String) : ∃ database, database ≠ dumped := by
  by_cases empty : dumped = ""
  · exact ⟨"other", by rw [empty]; decide⟩
  · exact ⟨"", Ne.symm empty⟩

/-- The gateway stays stopped, and the database is replaced before the archive is read. -/
theorem failing_restores : ¬KeepsWhole slowDirector truncatedSet {} ∧
      ¬KeepsWhole smooth truncatedSet { serverSaved := true } := by
  constructor
  · intro whole
    refine whole.unstranded "" ⟨⟨("postgres-dune.dump", "dumped"), none, none, none, none, none⟩, _,
      ⟨rfl, rfl, ⟨0, rfl, by decide⟩, rfl⟩, by decide, fun ⟨all, _⟩ => ?_⟩
    have done := all ⟨"2", "director", true⟩ (by decide) (by decide)
    revert done
    decide
  · intro whole
    obtain ⟨artifacts, found, refuses⟩ := truncated_artifacts
    exact whole.accepts other_database ⟨artifacts, [], ⟨rfl, found, ⟨0, rfl, by decide⟩, rfl⟩,
      (fun _ member => nomatch member), ⟨(), rfl⟩, refuses⟩

end Dash.Restore
