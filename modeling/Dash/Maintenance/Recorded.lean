import Dash.Foundation.Attempts
import Dash.Maintenance.Bounded

/-! Which executions leave a receipt, and that each receipt is accepted. -/

set_option autoImplicit false

namespace Dash.Maintenance.Receipts

open Dash.Python Dash.Foundation List

variable {rt : Platform} {settings : Settings} {scheduled : Scheduled} {measured : Measured}
  {started completed : ℚ} {result : Result}

/-- What `schedule_restart` gives a job. -/
structure Known (settings : Settings) (job : RestartJob) : Prop where
  target : job.target ∈ restartTargets
  action : job.action = some "restart" ∨ job.action = some "shutdown"
  policy : ∃ policy ∈ policies, job.updatePolicy = some policy

theorem scheduled_known {request : Request} {id : String}
    (schedules : scheduleRestart settings request id = some scheduled) :
    Known settings scheduled.job := by
  unfold scheduleRestart at schedules
  dsimp only at schedules
  split at schedules
  · cases schedules
  · next target =>
    split at schedules
    · cases schedules
    · next action =>
      split at schedules
      · cases schedules
      · next policy =>
        split at schedules
        · cases schedules
        · split at schedules
          · cases schedules
          · cases schedules
            refine ⟨not_not.mp target, ?_, _, not_not.mp policy, rfl⟩
            rcases not_and_or.mp action with restart | shutdown
            · exact .inl (congrArg some (not_not.mp restart))
            · exact .inr (congrArg some (not_not.mp shutdown))

section

theorem word_plain : ∀ word ∈ policies ++ ["restart", "shutdown"], strip word = word ∧ word ≠ "" ∧
      word ∈ ["restart", "shutdown", "current", "certified", "automatic"] := by
  decide

theorem policy_plain {policy : String} (known : policy ∈ policies) : strip policy = policy ∧ policy ≠ "" ∧
      policy ∈ ["restart", "shutdown", "current", "certified", "automatic"] :=
  word_plain policy (mem_append_left _ known)

variable (executed : Executed settings scheduled measured started completed)

include executed

theorem Executed.known : Known settings scheduled.job := by
  obtain ⟨request, schedules⟩ := executed.scheduled_
  exact scheduled_known schedules

theorem Executed.lower_policy {policy : String} (known : policy ∈ policies) :
    settings.lower (strip policy) = policy := by
  obtain ⟨stripped, -, inside⟩ := policy_plain known
  rw [stripped]
  exact executed.lower policy inside

theorem Executed.policy : policyOf settings scheduled.job ∈ policies := by
  obtain ⟨policy, known, same⟩ := executed.known.policy
  have given : orElse (some policy) "current" = policy := if_neg (policy_plain known).2.1
  rw [policyOf, same, given, executed.lower_policy known]
  exact known

theorem Executed.action : actionOf settings scheduled.job result = "restart" ∨
      actionOf settings scheduled.job result = "shutdown" := by
  have kept : ∀ action ∈ ["restart", "shutdown"], ∀ other,
      settings.lower (strip (orElse (some action) other)) = action := by
    intro action inside other
    obtain ⟨stripped, some_, known⟩ := word_plain action (mem_append_right _ inside)
    have given : orElse (some action) other = action := if_neg some_
    rw [given, stripped]
    exact executed.lower action known
  unfold actionOf
  rcases executed.known.action with restart | shutdown
  · rw [restart]
    exact .inl (kept "restart" mem_cons_self _)
  · rw [shutdown]
    exact .inr (kept "shutdown" (mem_cons_of_mem _ mem_cons_self) _)

theorem Executed.effective (sound : Sound settings measured.outcomes scheduled.job result) :
    effectivePolicy settings scheduled.job result ∈ policies := by
  have known := executed.policy
  have given : ∀ policy ∈ policies, ∀ other, orElse (some policy) other = policy :=
    fun policy inside other => if_neg (policy_plain inside).2.1
  unfold effectivePolicy
  dsimp only
  split
  · exact mem_cons_self
  · cases carries : result.updatePreflight with
    | none =>
      rw [Option.map_none, Option.bind_none]
      change settings.lower (strip (policyOf settings scheduled.job)) ∈ policies
      rw [executed.lower_policy known]
      exact known
    | some preflight =>
      obtain rfl := sound.preflight preflight carries
      obtain ⟨same, effective⟩ := @preflight_policies settings measured.outcomes.readiness scheduled.job
      rw [Option.map_some, Option.bind_some, same, given _ known]
      cases other : (restartUpdatePreflight settings measured.outcomes.readiness scheduled.job).effectivePolicy with
      | none =>
        change settings.lower (strip (policyOf settings scheduled.job)) ∈ policies
        rw [executed.lower_policy known]
        exact known
      | some policy =>
        have inside : policy ∈ policies := by
          rcases effective policy other with rfl | rfl <;> simp [policies]
        rw [given policy inside, executed.lower_policy inside]
        exact inside

end

theorem afterMark_within {mark text rest : List Char} (found : afterMark mark text = some rest) : mark <:+: text := by
  induction text with
  | nil =>
    unfold afterMark at found
    split at found
    · next empty =>
      exact empty ▸ List.nil_infix
    · cases found
  | cons char text whole =>
    unfold afterMark at found
    split at found
    · next starts => exact (List.isPrefixOf_iff_prefix.mp starts).isInfix
    · exact (whole found).trans (suffix_cons char text).isInfix

theorem relativePath_plain {path : String} (slashes : path.toList.count '/' ≤ 1) : relativePath path = path := by
  unfold relativePath
  split
  · next rest found =>
    have most := (afterMark_within found).sublist.count_le '/'
    have two : "/backups/".toList.count '/' = 2 := by decide
    omega
  · rfl

theorem name_plain {char : Char} (name : isName char = true) : isSpace char = false ∧ 32 ≤ char.toNat ∧ char ≠ '/' := by
  have code : (48 ≤ char.toNat ∧ char.toNat ≤ 57) ∨ (65 ≤ char.toNat ∧ char.toNat ≤ 90) ∨
      (97 ≤ char.toNat ∧ char.toNat ≤ 122) ∨ char.toNat = 95 ∨ char.toNat = 45 := by
    simp only [isName, Bool.or_eq_true, beq_iff_eq] at name
    rcases name with (alphanum | rfl) | rfl
    · have := alphanum_code alphanum
      omega
    · exact .inr (.inr (.inr (.inl rfl)))
    · exact .inr (.inr (.inr (.inr rfl)))
  refine ⟨?_, by omega, ?_⟩
  · simp only [isSpace, Bool.or_eq_false_iff, Bool.and_eq_false_iff, decide_eq_false_iff_not]
    omega
  · rintro rfl
    exact absurd code (by decide)

theorem name_of_alphanum {char : Char} (alphanum : char.isAlphanum = true) : isName char = true := by
  rw [isName, alphanum]
  rfl

variable (executed : Executed settings scheduled measured started completed)

include executed in
theorem Executed.path_kept {path : String} (made : measured.outcomes.backup = .ok path) :
    relativePath path = path ∧ boundedText path 512 false = some path ∧ path ≠ "" := by
  obtain ⟨stamp, digits, short, rfl⟩ := executed.path path made
  have stamped : ∀ char ∈ stamp.toList, isName char = true := fun char member =>
    name_of_alphanum (all_eq_true.mp digits char member)
  have named : ∀ char ∈ (clip 24 scheduled.job.id).toList, isName char = true := by
    intro char member
    rw [clip, String.toList_ofList] at member
    have job := executed.id_
    rw [isJob, Bool.and_eq_true] at job
    exact all_eq_true.mp job.2 char (mem_of_mem_take member)
  have chars : ("maintenance/" ++ stamp ++ "-" ++ clip 24 scheduled.job.id).toList =
      "maintenance/".toList ++ stamp.toList ++ "-".toList ++ (clip 24 scheduled.job.id).toList := by
    rw [String.toList_append, String.toList_append, String.toList_append]
  have slashless : ∀ text : List Char, (∀ char ∈ text, isName char = true) → text.count '/' = 0 :=
    fun text names => count_eq_zero.mpr fun member => (name_plain (names '/' member)).2.2 rfl
  refine ⟨relativePath_plain ?_, boundedText_plain ?_ nofun ?_, ?_⟩
  · rw [chars, count_append, count_append, count_append, slashless _ stamped, slashless _ named]
    decide
  · rw [chars]
    intro char member
    have start : ∀ char ∈ "maintenance/".toList ++ "-".toList, isSpace char = false ∧ 32 ≤ char.toNat :=
      forall_iff_forall_mem.mp (by decide)
    rcases mem_append.mp member with front | id
    · rcases mem_append.mp front with middle | dash
      · rcases mem_append.mp middle with first | inside
        · exact start char (mem_append_left _ first)
        · exact ⟨(name_plain (stamped char inside)).1, (name_plain (stamped char inside)).2.1⟩
      · exact start char (mem_append_right _ dash)
    · exact ⟨(name_plain (named char id)).1, (name_plain (named char id)).2.1⟩
  · rw [← String.length_toList, chars, length_append, length_append, length_append]
    have clipped : (clip 24 scheduled.job.id).toList.length ≤ 24 := by
      rw [clip, String.toList_ofList]
      exact length_take_le 24 _
    have mark : "maintenance/".toList.length = 12 ∧ "-".toList.length = 1 := by decide
    rw [← String.length_toList] at short
    omega
  · intro empty
    have nothing := congrArg String.toList empty
    rw [chars] at nothing
    simp at nothing

include executed in
theorem backupOf_evidence (sound : Sound settings measured.outcomes scheduled.job result) :
    backupOf (evidenceOf scheduled.job result) = some (evidenceOf scheduled.job result) := by
  have empty : boundedText "" 512 false = some "" := by decide
  unfold evidenceOf
  cases backed : result.backup with
  | none =>
    simp only [Option.isSome_none, Option.any_none, Option.bind_none, Option.map_none, backupOf,
      Option.getD_none, empty]
    rfl
  | some report =>
    obtain ⟨verified, made⟩ := sound.backup report backed
    simp only [Option.isSome_some, Option.any_some, Option.bind_some]
    cases named : report.path with
    | none =>
      have unverified : report.verified = false := by
        cases good : report.verified with
        | false => rfl
        | true => exact absurd named (verified good).2
      simp only [Option.map_none, backupOf, Option.getD_none, empty, unverified]
      rfl
    | some path =>
      obtain ⟨same, bounded, some_⟩ := executed.path_kept (made path named)
      simp [same, backupOf, bounded, orNone, some_]

def stagesOf (settings : Settings) (job : RestartJob) (measured : Measured) (result : Result) :
    List (StageName × Stage) :=
  stageNames.map fun name => (name, stageWith (ranOf job measured result name)
    (requiredOf job (actionOf settings job result) result name))

include executed in
theorem stages_mapM (sound : Sound settings measured.outcomes scheduled.job result) : (stageNames.mapM fun name =>
      (stageFromResult (ranOf scheduled.job measured result name)
        (requiredOf scheduled.job (actionOf settings scheduled.job result) result name)).map
          fun stage => (name, stage)) = some (stagesOf settings scheduled.job measured result) := by
  rw [stagesOf, ← Option.pure_def, ← mapM_pure]
  refine congrArg (fun step => stageNames.mapM step) (funext fun name => ?_)
  rw [stageFromResult_with fun ran there => ran_bounded executed sound name there]
  rfl

include executed in
theorem Executed.job_kept : boundedText scheduled.job.id 128 true = some scheduled.job.id := by
  have job := executed.id_
  rw [isJob, Bool.and_eq_true, decide_eq_true_eq] at job
  refine boundedText_plain (fun char member => ?_) (fun _ empty => ?_) job.1.2
  · have plain := name_plain (all_eq_true.mp job.2 char member)
    exact ⟨plain.1, plain.2.1⟩
  · rw [empty] at job
    exact absurd job.1.1 (by decide)

theorem target_kept : ∀ target ∈ restartTargets, boundedText target 64 true = some target ∧ isTarget target = true := by
  decide

theorem carried_none (recordable : ∀ preflight, result.updatePreflight = some preflight →
    preflight.candidate = none) : carried measured result = [] := by
  unfold carried
  cases there : result.updatePreflight with
  | none => rfl
  | some preflight =>
    rw [Option.bind_some, recordable preflight there]
    rfl

theorem readiness_none (sound : Sound settings measured.outcomes scheduled.job result)
    (recordable : ∀ preflight, result.updatePreflight = some preflight → preflight.candidate = none) :
    result.updatePreflight.bind Preflight.receiptId = none ∧
      result.updatePreflight.bind Preflight.receiptSha256 = none := by
  cases there : result.updatePreflight with
  | none => exact ⟨rfl, rfl⟩
  | some preflight =>
    have none_ := recordable preflight there
    obtain rfl := sound.preflight preflight there
    exact preflight_candidate.2 none_

structure Read (settings : Settings) (scheduled : Scheduled) (measured : Measured) (result : Result)
    (parts : Parts) : Prop where
  stages : parts.stages = stagesOf settings scheduled.job measured result
  warnings : ((result.warnings.take 32).mapM fun warning => boundedText warning 1000 true) = some parts.warnings
  jobId : parts.jobId = scheduled.job.id
  principalId : boundedText (if scheduled.principalId = "" then "system" else scheduled.principalId) 128
    true = some parts.principalId
  target : parts.target = scheduled.job.target
  candidate : candidateOf (carried measured result) = some parts.candidate
  readinessReceipt : readinessOf ⟨result.updatePreflight.bind Preflight.receiptId,
    result.updatePreflight.bind Preflight.receiptSha256⟩ = some parts.readinessReceipt
  backup : parts.backup = evidenceOf scheduled.job result

include executed in
theorem partsOf_iff (sound : Sound settings measured.outcomes scheduled.job result) {parts : Parts} :
    partsOf settings scheduled measured result = some parts ↔
      Read settings scheduled measured result parts := by
  have target := (target_kept scheduled.job.target executed.known.target).1
  unfold partsOf
  dsimp only
  rw [stages_mapM executed sound, executed.job_kept, target, backupOf_evidence executed sound]
  constructor
  · intro reads
    split at reads
    · next stages warnings_ id principal target_ candidate readiness backup_ =>
      cases reads
      cases stages
      cases id
      cases target_
      cases backup_
      exact ⟨rfl, warnings_, rfl, principal, rfl, candidate, readiness, rfl⟩
    · cases reads
  · rintro ⟨stages, warnings, jobId, principal, target_, candidate, readiness, backup⟩
    rw [warnings, principal, candidate, readiness]
    cases parts
    cases stages
    cases jobId
    cases target_
    cases backup
    rfl

theorem isText_system {principalId : String} :
    (∃ text, boundedText (if principalId = "" then "system" else principalId) 128 true = some text) ↔
      principalId = "" ∨ IsText 128 principalId := by
  split
  · next empty => exact ⟨fun _ => .inl empty, fun _ => ⟨"system", by decide⟩⟩
  · next some_ =>
    rw [← isText_iff]
    exact ⟨.inr, fun either => either.resolve_left some_⟩

variable {receipt : Receipt} {number : Nat}

section

variable (executed : Executed settings scheduled measured started completed)
  (sound : Sound settings measured.outcomes scheduled.job result)
include executed sound

theorem buildReceipt_iff : buildReceipt rt settings number scheduled measured result started completed = some receipt ↔
      ∃ parts, Read settings scheduled measured result parts ∧
        assembled rt settings number scheduled result started completed parts = receipt := by
  have interval : ¬¬(0 ≤ completed - started ∧ completed - started ≤ 86400) := by
    have order := executed.order
    have day := executed.day
    exact not_not.mpr ⟨by linarith, by linarith⟩
  have action : ¬(actionOf settings scheduled.job result ≠ "restart" ∧
      actionOf settings scheduled.job result ≠ "shutdown") := fun both =>
    executed.action.elim both.1 both.2
  have policy : ¬(policyOf settings scheduled.job ∉ policies ∨
      effectivePolicy settings scheduled.job result ∉ policies) := fun either =>
    either.elim (fun out => out executed.policy) fun out => out (executed.effective sound)
  unfold buildReceipt
  dsimp only
  rw [if_neg interval, if_neg action, if_neg policy, Option.map_eq_some_iff]
  exact exists_congr fun parts => and_congr_left fun _ => partsOf_iff executed sound

/-- A receipt is built for an execution where what it is built from can be read. -/
theorem built_iff_recordable (number : Nat) :
    (∃ receipt, buildReceipt rt settings number scheduled measured result started completed =
      some receipt) ↔ Recordable scheduled result := by
  constructor
  · rintro ⟨receipt, built⟩
    obtain ⟨parts, reads, -⟩ := (buildReceipt_iff executed sound).mp built
    refine ⟨isText_system.mp ⟨_, reads.principalId⟩, fun preflight there => ?_, fun warning member => ?_⟩
    · cases some_ : preflight.candidate with
      | none => rfl
      | some candidate =>
        obtain rfl := sound.preflight preflight there
        obtain ⟨-, -, ready, answers, -⟩ := preflight_candidate.1 candidate some_
        obtain ⟨digest, raw, normalizes, -⟩ := executed.evaluated ready answers
        have carries : carried measured result = measured.candidate := by
          unfold carried
          rw [there, Option.bind_some, some_]
          rfl
        have raised := reads.candidate
        rw [carries, candidateOf_normalized normalizes] at raised
        cases raised
    · exact isText_iff.mpr (mapM_isSome.mp ⟨_, reads.warnings⟩ warning member)
  · intro recordable
    obtain ⟨principalId, principal⟩ := isText_system.mpr recordable.principal
    obtain ⟨warnings, texts⟩ := mapM_isSome.mpr fun warning member =>
      isText_iff.mp (recordable.warnings warning member)
    have carries := @carried_none measured result recordable.candidate
    have readiness := readiness_none sound recordable.candidate
    refine ⟨_, (buildReceipt_iff executed sound).mpr ⟨⟨stagesOf settings scheduled.job measured result,
      warnings, scheduled.job.id, principalId, scheduled.job.target, noCandidate, ⟨none, none⟩,
      evidenceOf scheduled.job result⟩, ⟨rfl, texts, rfl, principal, rfl, ?_, ?_, rfl⟩, rfl⟩⟩
    · rw [carries]
      exact candidateOf_nil
    · rw [readiness.1, readiness.2]
      exact readinessOf_none

end

structure Agrees (job : RestartJob) (measured : Measured) (result : Result) (receipt : Receipt) :
    Prop where
  outcome : receipt.outcome = outcomeOf result.dryRun result.deferred result.ok
  ready : receipt.ready = result.ok
  updateApplied : receipt.updateApplied = result.updateApplied
  updateAttempted : receipt.updateAttempted = true ↔ ∃ part, result.update = some part ∧ part.skipped = false
  attempted : receipt.backup.attempted = result.backup.isSome
  verified : receipt.backup.verified = true ↔ ∃ report, result.backup = some report ∧ report.verified = true
  path : receipt.backup.path = result.backup.bind BackupReport.path
  stages : ∀ name, ∃ stage, stageOf receipt name = some stage ∧
    stage.attempted = (ranOf job measured result name).isSome ∧ ∀ ran, ranOf job measured result name = some ran →
        stage.ok = ran.ok ∧ stage.durationMs = ran.durationMs ∧ stage.returncode = ran.returncode

theorem stageOf_map {make : StageName → Stage}
    (stages : receipt.stages = stageNames.map fun name => (name, make name)) (name : StageName) :
    stageOf receipt name = some (make name) := by
  rw [stageOf, stages]
  cases name <;> rfl

theorem built_agrees (executed : Executed settings scheduled measured started completed)
    (sound : Sound settings measured.outcomes scheduled.job result)
    (built : buildReceipt rt settings number scheduled measured result started completed = some receipt) :
    Agrees scheduled.job measured result receipt := by
  obtain ⟨parts, reads, rfl⟩ := (buildReceipt_iff executed sound).mp built
  refine ⟨rfl, rfl, rfl, ?_, ?_, ?_, ?_, fun name => ⟨_, stageOf_map reads.stages name, ?_, ?_⟩⟩
  · simp only [assembled, Option.any_eq_true, Bool.not_eq_true']
  · simp [assembled, reads.backup, evidenceOf]
  · simp [assembled, reads.backup, evidenceOf, Option.any_eq_true]
  · simp only [assembled, reads.backup, evidenceOf]
    cases backed : result.backup with
    | none => rfl
    | some report =>
      rw [Option.bind_some]
      cases named : report.path with
      | none => rfl
      | some path =>
        have kept := executed.path_kept ((sound.backup report backed).path path named)
        rw [Option.map_some, kept.1]
  · cases ranOf scheduled.job measured result name <;> rfl
  · intro ran there
    rw [there]
    exact ⟨rfl, rfl, rfl⟩

theorem isReceipt_token (number : Nat) : isReceipt (RECEIPT_START ++ rt.token number) = true := by
  obtain ⟨length, hex⟩ := rt.token_hex number
  rw [isReceipt, String.length_append, length, String.toList_append, drop_append_of_le_length
    (Nat.le_of_eq String.length_toList.symm), String.length_toList.symm, drop_length,
    nil_append, hex, List.isPrefixOf_iff_prefix.mpr (prefix_append _ _)]
  decide

theorem assembled_times (executed : Executed settings scheduled measured started completed)
    (number : Nat) (parts : Parts) :
    validTimes (assembled rt settings number scheduled result started completed parts) = true := by
  have interval := interval_rounded executed.order executed.day
  have bounds := duration_bounded executed.order executed.day
  have near := duration_near started completed
  have due : epoch (iso (if scheduled.runAt = 0 then started else scheduled.runAt)) ≤
      epoch (iso started) + 300 := by
    have before := epoch_mono (iso_mono (show (if scheduled.runAt = 0 then started else
        scheduled.runAt) ≤ started by
      split
      · exact le_refl started
      · exact executed.due))
    linarith
  rw [validTimes, Bool.and_eq_true]
  exact ⟨decide_eq_true ⟨due, interval⟩, decide_eq_true ⟨bounds.1, bounds.2, near⟩⟩

theorem assembled_verdict (sound : Sound settings measured.outcomes scheduled.job result) (number : Nat)
    (parts : Parts) :
    validVerdict (assembled rt settings number scheduled result started completed parts) = true := by
  have applied : (!result.updateApplied || result.update.any fun part => !part.skipped) = true := by
    cases good : result.updateApplied with
    | false => rfl
    | true =>
      obtain ⟨part, there, attempted⟩ := sound.applied good
      rw [there, Option.any_some, attempted]
      rfl
  simp [validVerdict, assembled, applied]

section

variable (executed : Executed settings scheduled measured started completed)
  (sound : Sound settings measured.outcomes scheduled.job result)
include executed sound

theorem assembled_stages (number : Nat) {parts : Parts} (reads : Read settings scheduled measured result parts) :
    validStages (assembled rt settings number scheduled result started completed parts) = true := by
  have stage := fun name => @stageOf_map
    (assembled rt settings number scheduled result started completed parts) _ reads.stages name
  have names : parts.stages.map Prod.fst = stageNames := by
    rw [reads.stages]
    rfl
  have normal : (parts.stages.all fun stage => decide (normalizeStage stage.2 = some stage.2)) = true := by
    rw [reads.stages, stagesOf, all_map, all_eq_true]
    intro name _
    exact decide_eq_true (normalizeStage_with fun ran there => ran_bounded executed sound name there)
  have recovery : (stageWith (ranOf scheduled.job measured result .recovery)
      (requiredOf scheduled.job (actionOf settings scheduled.job result) result .recovery)).attempted =
        result.recovery.isSome := by
    unfold ranOf
    cases result.recovery <;> rfl
  have attempted : (stageWith (ranOf scheduled.job measured result .backup)
      (requiredOf scheduled.job (actionOf settings scheduled.job result) result .backup)).attempted =
        result.backup.isSome := by
    unfold ranOf
    cases result.backup <;> rfl
  have verified : (result.backup.any BackupReport.verified) = true →
      (stageWith (ranOf scheduled.job measured result .backup)
        (requiredOf scheduled.job (actionOf settings scheduled.job result) result .backup)).ok = true := by
    intro good
    obtain ⟨report, backed, true_⟩ := (Option.any_eq_true ..).mp good
    have went := ((sound.backup report backed).verified true_).1
    unfold ranOf
    dsimp only
    rw [backed]
    exact went
  have held : backupOf parts.backup = some (evidenceOf scheduled.job result) := by
    rw [reads.backup, backupOf_evidence executed sound]
  simp only [validStages, stage, Option.map_some, recovery, attempted]
  simp only [assembled, names, normal, held, decide_true, Bool.true_and, Option.any_some, evidenceOf,
    Bool.or_eq_true, Bool.not_eq_true', decide_eq_true_eq, Option.some.injEq]
  by_cases good : result.backup.any BackupReport.verified = true
  · exact .inr (verified good)
  · exact .inl (Bool.not_eq_true _ ▸ good)

theorem built_valid
    (built : buildReceipt rt settings number scheduled measured result started completed = some receipt) :
    validReceipt receipt = true := by
  have recordable := (built_iff_recordable executed sound number).mp ⟨receipt, built⟩
  obtain ⟨parts, reads, rfl⟩ := (buildReceipt_iff executed sound).mp built
  have id := @isReceipt_token rt number
  have times := @assembled_times rt settings scheduled measured started completed result executed number parts
  have verdict := @assembled_verdict rt settings scheduled measured started completed result sound number parts
  have stages := @assembled_stages rt settings scheduled measured started completed result executed sound
    number parts reads
  have action := @Executed.action settings scheduled measured started completed result executed
  have target := (target_kept scheduled.job.target executed.known.target).2
  have candidate : candidateOf parts.candidate = some parts.candidate := by
    have same := reads.candidate
    rw [carried_none recordable.candidate, candidateOf_nil] at same
    rw [← Option.some.inj same]
    exact candidateOf_none
  have readiness : readinessOf parts.readinessReceipt = some parts.readinessReceipt := by
    have same := reads.readinessReceipt
    obtain ⟨none_, also⟩ := readiness_none sound recordable.candidate
    rw [none_, also, readinessOf_none] at same
    rw [← Option.some.inj same]
    exact readinessOf_none
  have few : parts.warnings.length ≤ 32 := by
    rw [← (Attempts.mapM_some reads.warnings).length_eq]
    exact length_take_le 32 _
  have texts : (parts.warnings.all fun warning => (boundedText warning 1000 true).isSome) = true := by
    rw [all_eq_true]
    intro warning member
    obtain ⟨given, -, bounded⟩ := Attempts.forall₂_left (Attempts.mapM_some reads.warnings).flip member
    rw [boundedText_again bounded]
    rfl
  unfold validReceipt
  rw [times, verdict, stages]
  simp [assembled, reads.jobId, reads.target, id, executed.id_, target, boundedText_again reads.principalId,
    decide_eq_true action, decide_eq_true (And.intro executed.policy (executed.effective sound)),
    decide_eq_true candidate, decide_eq_true readiness, decide_eq_true few, texts]

end

theorem signedDocument_verified (valid : validReceipt receipt = true) (time : ℚ) :
    verifySignedDocument rt (signedDocument rt receipt time) = true := by
  simp [verifySignedDocument, signedDocument, valid, rt.digest_hash]

structure Execution where
  settings : Settings
  scheduled : Scheduled
  measured : Measured
  (started completed : ℚ)

namespace Execution

def returned (execution : Execution) : Result :=
  workerResult execution.settings execution.measured.outcomes execution.scheduled.job

def Due (execution : Execution) : Prop :=
  Executed execution.settings execution.scheduled execution.measured execution.started execution.completed

def recorded (rt : Platform) (retention : Nat) (store : Store) (execution : Execution) : Option Document × Store :=
  record rt execution.settings retention execution.scheduled execution.measured execution.returned
    execution.started execution.completed store

theorem sound (execution : Execution) :
    Sound execution.settings execution.measured.outcomes execution.scheduled.job execution.returned :=
  workerResult_sound _ _ _

end Execution

def recordAll (rt : Platform) (retention : Nat) (executions : List Execution) : Store :=
  executions.foldl (fun store execution => (execution.recorded rt retention store).2) ⟨0, []⟩

theorem recorded_status {retention : Nat} {execution : Execution} (due : execution.Due) {store : Store}
    (good : status rt store = true) : status rt (execution.recorded rt retention store).2 = true := by
  unfold Execution.recorded record
  split
  · exact good
  · next receipt built =>
    have verified := @signedDocument_verified rt receipt (built_valid due execution.sound built) execution.completed
    refine all_eq_true.mpr fun document member => ?_
    rcases mem_cons.mp (mem_of_mem_take member) with rfl | old
    · exact verified
    · exact all_eq_true.mp good document old

theorem foldl_status {retention : Nat} {executions : List Execution}
    (due : ∀ execution ∈ executions, execution.Due) {store : Store} (good : status rt store = true) :
    status rt (executions.foldl (fun store execution => (execution.recorded rt retention store).2) store) = true := by
  induction executions generalizing store with
  | nil => exact good
  | cons execution rest whole =>
    exact whole (fun other member => due other (mem_cons_of_mem _ member))
      (recorded_status (due execution mem_cons_self) good)

def hash : String := String.ofList (List.replicate 64 '0')

def platform : Platform where
  digest _ := hash
  digest_hash _ := by decide
  fingerprint := hash
  mac _ _ _ _ := hash
  token _ := String.ofList (List.replicate 32 '0')
  token_hex _ := by decide

def panel : Settings where
  lower := fun text => String.ofList (text.toList.map Char.toLower)
  restartCommand := "scripts/restart.sh"

def package : RawCandidate where
  imageTag := "1.2.3"
  currentImageTag := "1.2.3"
  status := "current"
  installedBuildId := "100"
  targetBuildId := "100"
  loadedBuildId := "100"

def request (policy : String) : Request where
  target := "all"
  action := "restart"
  updatePolicy := some policy
  execute := true
  backup := true
  requireSoftDisconnect := true
  principalId := "system"
  runAt := 1000

def job (policy : String) : Scheduled where
  job :=
    { id := "AbCdEfGhIjKlMnOp"
      target := "all"
      action := some "restart"
      updatePolicy := some policy
      requireSoftDisconnect := some true
      backup := some true
      execute := true }
  runAt := 1000
  principalId := "system"

def evaluatedPackage : Fields := (normalizeCandidate (fun _ => hash) package).getD []

def night : Measured where
  outcomes :=
    { lock := .acquired
      executable := true
      readiness := .ok
        { candidate := some ⟨some (textOf (get evaluatedPackage "status")),
            truth (get evaluatedPackage "updateRequired")⟩
          failedChecks := []
          applyReady := false
          currentReceiptReady := false
          latest := none }
      disconnect := .ok { ok := true }
      command := fun _ => .exited 0 "" ""
      backup := .ok ("maintenance/" ++ "20260101T040000Z" ++ "-" ++ clip 24 "AbCdEfGhIjKlMnOp")
      verification := .ok true
      awaitingReboot := .ok ()
      executing := .ok ()
      online := { ok := true }
      recovery := .ok { ok := true }
      onlineAfterRecovery := { ok := true } }
  candidate := evaluatedPackage
  durations := fun _ => 0
  recoveryReturncode := none

def restart (policy : String) : Execution := ⟨panel, job policy, night, 1000, 1060⟩

theorem restart_due {policy : String}
    (schedules : scheduleRestart panel (request policy) "AbCdEfGhIjKlMnOp" = some (job policy)) :
    (restart policy).Due where
  scheduled_ := ⟨request policy, schedules⟩
  id_ := by
    change isJob "AbCdEfGhIjKlMnOp" = true
    decide
  lower := by
    change ∀ text ∈ ["restart", "shutdown", "current", "certified", "automatic"],
      String.ofList (text.toList.map Char.toLower) = text
    decide
  order := by
    change (1000 : ℚ) ≤ 1060
    norm_num
  day := by
    change (1060 : ℚ) ≤ 1000 + 86400
    norm_num
  due := le_refl (1000 : ℚ)
  lasted _ := ⟨le_refl 0, by
    change 0 ≤ roundEven ((1060 - 1000) * 1000)
    decide +kernel⟩
  codes := by
    rintro _ _ _ _ ⟨⟩
    decide
  recovered := nofun
  path := by
    rintro _ ⟨⟩
    exact ⟨"20260101T040000Z", by decide, by decide +kernel, rfl⟩
  evaluated := by
    rintro _ ⟨⟩
    refine ⟨fun _ => hash, package, ?_, rfl⟩
    change normalizeCandidate (fun _ => hash) package = some evaluatedPackage
    decide

end Dash.Maintenance.Receipts
