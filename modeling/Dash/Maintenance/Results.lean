import Dash.Maintenance.Restart

/-! What the results of executions are made of. -/

set_option autoImplicit false

namespace Dash.Maintenance

open Foundation Python Logged

variable {settings : Settings} {outcomes : Outcomes} {job : RestartJob}

def Answered (outcomes : Outcomes) (result : CommandResult) : Prop :=
  (∃ phase, result = commandResult phase (outcomes.command phase)) ∨ result.returncode = none

structure Backed (outcomes : Outcomes) (report : BackupReport) : Prop where
  verified : report.verified = true → report.ok = true ∧ report.path ≠ none
  path : ∀ path, report.path = some path → outcomes.backup = .ok path

inductive Warned (outcomes : Outcomes) : String → Prop where
  | unverified : Warned outcomes "maintenance backup verification failed"
  | backup {error : String} : outcomes.backup = .error error ∨ outcomes.verification = .error error →
      Warned outcomes ("maintenance backup failed: " ++ error)
  | demanded (why : String) : why ∈ ["this job disabled backups", "maintenance backups are disabled"] →
      Warned outcomes ("a verified maintenance backup is required before applying an update; " ++ why)
  | update {error : String} : outcomes.command .update = .raised error → error ≠ "" →
      Warned outcomes error
  | updateFailed : Warned outcomes "Steam package update check failed"
  | returned : Warned outcomes
      "restart start hook returned 141, but farm reported fully online after verification"

structure Sound (settings : Settings) (outcomes : Outcomes) (job : RestartJob) (result : Result) :
    Prop where
  action : result.action = job.getAction
  preflight : ∀ preflight, result.updatePreflight = some preflight →
    preflight = restartUpdatePreflight settings outcomes.readiness job
  stop : ∀ part, result.stop = some part → Answered outcomes part
  update : ∀ part, result.update = some part → Answered outcomes part
  start : ∀ part, result.start = some part → Answered outcomes part
  reboot : ∀ part, result.reboot = some part → Answered outcomes part
  /-- An update that was applied was not skipped. -/
  applied : result.updateApplied = true → ∃ part, result.update = some part ∧ part.skipped = false
  backup : ∀ report, result.backup = some report → Backed outcomes report
  warnings : ∀ warning ∈ result.warnings, Warned outcomes warning

theorem answered_command (outcomes : Outcomes) (phase : Phase) :
    Answered outcomes (commandResult phase (outcomes.command phase)) := .inl ⟨phase, rfl⟩

theorem runRestartCommand_returns (steam : SteamCheck) (phase : Phase) :
    Returns (runRestartCommand outcomes steam phase) (· = commandResult phase (outcomes.command phase)) := by
  rintro _ ⟨⟩
  rfl

theorem Sound.warns {result : Result} (sound : Sound settings outcomes job result) {warning : String}
    (warned : Warned outcomes warning) :
    Sound settings outcomes job (appendRestartWarning result warning) := by
  unfold appendRestartWarning
  split
  · exact sound
  · refine ⟨sound.action, sound.preflight, sound.stop, sound.update, sound.start, sound.reboot,
      sound.applied, sound.backup, fun other member => ?_⟩
    rcases List.mem_append.mp member with old | new
    · exact sound.warnings other old
    · cases List.mem_singleton.mp new
      exact warned

theorem commandResult_warned (_ : (commandResult .update (outcomes.command .update)).ok = false) :
    Warned outcomes (orElse (commandResult .update (outcomes.command .update)).error
      "Steam package update check failed") := by
  cases ran : outcomes.command .update with
  | exited code stdout stderr => exact .updateFailed
  | raised error =>
    simp only [commandResult, orElse]
    split
    · exact .updateFailed
    · next some_ => exact .update ran some_

variable {steam : SteamCheck}

theorem backUp_returns {result : Result} (sound : Sound settings outcomes job result) :
    Returns (backUp settings outcomes job steam result) fun answer =>
      Sound settings outcomes job answer.1 ∧ ∀ failure, answer.2 = some failure →
        Warned outcomes failure := by
  have failed : ∀ error, outcomes.backup = .error error ∨ outcomes.verification = .error error →
      Sound settings outcomes job (backUp.failed result error).1 ∧
        ∀ failure, (backUp.failed result error).2 = some failure → Warned outcomes failure := by
    intro error raised
    refine ⟨⟨sound.action, sound.preflight, sound.stop, sound.update, sound.start, sound.reboot,
      sound.applied, ?_, sound.warnings⟩, ?_⟩
    · rintro _ ⟨⟩
      exact ⟨nofun, nofun⟩
    · rintro _ ⟨⟩
      exact .backup raised
  unfold backUp
  split
  · split
    · next error raised => exact .pure (failed error (.inl raised))
    · next path made =>
      split
      · next error raised => exact .pure (failed error (.inr raised))
      · next verified checked =>
        refine .bind (.any _) fun _ _ => .pure ⟨⟨sound.action, sound.preflight, sound.stop,
          sound.update, sound.start, sound.reboot, sound.applied, ?_, sound.warnings⟩, ?_⟩
        · rintro _ ⟨⟩
          refine ⟨fun good => ⟨good, nofun⟩, ?_⟩
          rintro _ ⟨⟩
          exact made
        · intro failure same
          dsimp only at same
          split at same
          · cases same
          · cases same
            exact .unverified
  · split
    · refine .pure ⟨sound, ?_⟩
      rintro _ ⟨⟩
      refine .demanded _ ?_
      split <;> decide
    · exact .pure ⟨sound, nofun⟩

/-- An update that was suppressed does not read as one that was applied. -/
theorem update_returns {result : Result} {failure : Option String}
    (sound : Sound settings outcomes job result)
    (warned : ∀ why, failure = some why → Warned outcomes why) :
    Returns (update outcomes steam result failure) fun answer =>
      Sound settings outcomes job answer.1 ∧ Answered outcomes answer.2.1 ∧
        (steamUpdateWasApplied answer.2.1 = true → answer.2.1.skipped = false) ∧
        (answer.2.1.ok = false → Warned outcomes (orElse answer.2.1.error "Steam package update check failed")) := by
  unfold update
  split
  · next failure =>
    have told := sound.warns (warned failure rfl)
    refine .pure ⟨⟨told.action, told.preflight, told.stop, told.update, told.start, told.reboot,
      told.applied, told.backup, told.warnings⟩, .inr rfl, fun applied => ?_, nofun⟩
    refine absurd applied ?_
    dsimp only
    split <;> decide
  · refine .bind (runRestartCommand_returns steam .update) ?_
    rintro _ rfl
    refine .pure ⟨sound, answered_command outcomes .update, fun _ => ?_, commandResult_warned⟩
    cases outcomes.command .update <;> rfl

theorem requestReboot_returns {result : Result} {outputs : List (Option String)}
    (sound : Sound settings outcomes job result) :
    Returns (requestReboot outcomes job steam result outputs) (Sound settings outcomes job) := by
  refine .bind (.any _) fun _ _ => .bind (runRestartCommand_returns steam .reboot) ?_
  rintro _ rfl
  have rebooted : ∀ part, some (commandResult .reboot (outcomes.command .reboot)) = some part →
      Answered outcomes part := by
    rintro _ ⟨⟩
    exact answered_command outcomes .reboot
  split
  · exact .pure ⟨sound.action, sound.preflight, sound.stop, sound.update, sound.start, rebooted,
      sound.applied, sound.backup, sound.warnings⟩
  · exact .bind (.any _) fun _ _ => .pure ⟨sound.action, sound.preflight, sound.stop, sound.update,
      sound.start, rebooted, sound.applied, sound.backup, sound.warnings⟩

theorem explainStart_sound {result : Result} (sound : Sound settings outcomes job result)
    (started : CommandResult) (online : Online) (failure : Option String) :
    Sound settings outcomes job (explainStart result started online failure) := by
  unfold explainStart
  split
  · exact sound.warns .returned
  all_goals
    try split
    all_goals
      try split
      all_goals exact ⟨sound.action, sound.preflight, sound.stop, sound.update, sound.start,
        sound.reboot, sound.applied, sound.backup, sound.warnings⟩

variable {stopped updated : CommandResult}

theorem startFarm_returns {result : Result} {failure : Option String}
    (sound : Sound settings outcomes job result) :
    Returns (startFarm outcomes steam result failure stopped updated) (Sound settings outcomes job) := by
  refine .bind (runRestartCommand_returns _ .start) ?_
  rintro _ rfl
  refine .bind (.any _) fun _ _ => .bind (.any _) ?_
  rintro ⟨recovery, online⟩ -
  refine .pure ?_
  have started : Sound settings outcomes job { result with
        start := some (commandResult .start (outcomes.command .start))
        recovery := recovery
        online := some online
        serviceRecovered := ((commandResult .start (outcomes.command .start)).ok ||
          (decide ((commandResult .start (outcomes.command .start)).returncode = some 141) && online.ok)) && online.ok
        ok := (((commandResult .start (outcomes.command .start)).ok ||
          (decide ((commandResult .start (outcomes.command .start)).returncode = some 141) &&
            online.ok)) && online.ok) && failure.isNone
        returncode := (commandResult .start (outcomes.command .start)).returncode } := by
    refine ⟨sound.action, sound.preflight, sound.stop, sound.update, ?_, sound.reboot, sound.applied,
      sound.backup, sound.warnings⟩
    rintro _ ⟨⟩
    exact answered_command outcomes .start
  have explained := explainStart_sound started (commandResult .start (outcomes.command .start)) online failure
  exact ⟨explained.action, explained.preflight, explained.stop, explained.update, explained.start,
    explained.reboot, explained.applied, explained.backup, explained.warnings⟩

theorem appendRestartWarning_eq (result : Result) (warning : String) : appendRestartWarning result warning =
      { result with
        warnings := if warning = "" then result.warnings else result.warnings ++ [warning] } := by
  unfold appendRestartWarning
  split <;> rfl

theorem Sound.updates {result : Result} (sound : Sound settings outcomes job result)
    {updated : CommandResult} (answered : Answered outcomes updated)
    (applied : steamUpdateWasApplied updated = true → updated.skipped = false) {warnings : List String}
    (warned : ∀ warning ∈ warnings, Warned outcomes warning) (output : Option String) :
    Sound settings outcomes job { result with
        update := some updated
        warnings := warnings
        output := output
        updateApplied := steamUpdateWasApplied updated } := by
  refine ⟨sound.action, sound.preflight, sound.stop, ?_, sound.start, sound.reboot,
    fun good => ⟨updated, rfl, applied good⟩, sound.backup, warned⟩
  rintro _ ⟨⟩
  exact answered

theorem resumed_returns {result : Result}
    {failure : Option String} (sound : Sound settings outcomes job result) :
    Returns
      (if job.getAction = "shutdown" then
        pure { result with
          ok := failure.isNone && updated.ok
          error := failure
          output := some (joinParts [stopped.output, updated.output]) }
      else if failure.isNone && settings.rebootAfterSteamUpdate && decide (job.target = "all")
          && result.updateApplied then
        requestReboot outcomes job steam result [stopped.output, updated.output]
      else startFarm outcomes steam result failure stopped updated)
      (Sound settings outcomes job) := by
  split
  · exact .pure ⟨sound.action, sound.preflight, sound.stop, sound.update, sound.start, sound.reboot,
      sound.applied, sound.backup, sound.warnings⟩
  · split
    · exact requestReboot_returns sound
    · exact startFarm_returns sound

theorem resume_returns {result : Result}
    {failure : Option String} (sound : Sound settings outcomes job result)
    (answered : Answered outcomes updated)
    (applied : steamUpdateWasApplied updated = true → updated.skipped = false)
    (warned : updated.ok = false → Warned outcomes (orElse updated.error "Steam package update check failed")) :
    Returns (resume settings outcomes job steam stopped updated result failure) (Sound settings outcomes job) := by
  unfold resume
  cases good : updated.ok with
  | true =>
    have whole := sound.updates answered applied sound.warnings result.output
    have resumed := @resumed_returns settings outcomes job steam stopped updated _ failure whole
    rw [good] at resumed
    exact resumed
  | false =>
    have told := (sound.warns (warned good)).warnings
    have whole := sound.updates answered applied told (some (joinParts [stopped.output, updated.output,
      some (orElse updated.error "Steam package update check failed")]))
    have resumed := @resumed_returns settings outcomes job steam stopped updated _
      (some (orElse updated.error "Steam package update check failed")) whole
    simp only [appendRestartWarning_eq] at resumed ⊢
    rw [good] at resumed
    exact resumed

/-- A result of a job that was turned away before its stop. -/
theorem sound_of_none {result : Result} (action : result.action = job.getAction)
    (preflight : result.updatePreflight = none ∨
      result.updatePreflight = some (restartUpdatePreflight settings outcomes.readiness job))
    (none_ : result.stop = none ∧ result.update = none ∧ result.start = none ∧ result.reboot = none ∧
      result.updateApplied = false ∧ result.backup = none ∧ result.warnings = []) :
    Sound settings outcomes job result := by
  obtain ⟨stop, update, start, reboot, applied, backup, warnings⟩ := none_
  constructor
  · exact action
  · intro part same
    rcases preflight with empty | carried
    · exact nomatch empty.symm.trans same
    · exact (Option.some.inj (carried.symm.trans same)).symm
  · exact fun part same => nomatch stop.symm.trans same
  · exact fun part same => nomatch update.symm.trans same
  · exact fun part same => nomatch start.symm.trans same
  · exact fun part same => nomatch reboot.symm.trans same
  · exact fun good => nomatch applied.symm.trans good
  · exact fun part same => nomatch backup.symm.trans same
  · intro warning member
    rw [warnings] at member
    cases member

theorem executeRestartLocked_returns :
    Returns (executeRestartLocked settings outcomes job) (Sound settings outcomes job) := by
  unfold executeRestartLocked
  dsimp only
  split
  · exact .pure (sound_of_none rfl (.inl rfl) ⟨rfl, rfl, rfl, rfl, rfl, rfl, rfl⟩)
  · split
    · exact .pure (sound_of_none rfl (.inl rfl) ⟨rfl, rfl, rfl, rfl, rfl, rfl, rfl⟩)
    · split
      · exact .pure (sound_of_none rfl (.inr rfl) ⟨rfl, rfl, rfl, rfl, rfl, rfl, rfl⟩)
      · refine .bind (.any _) fun disconnected _ => ?_
        split
        · exact .pure (sound_of_none rfl (.inl rfl) ⟨rfl, rfl, rfl, rfl, rfl, rfl, rfl⟩)
        · generalize (if job.getAction = "shutdown" then Phase.shutdown else Phase.stop) = phase
          refine .bind (runRestartCommand_returns _ phase) ?_
          rintro _ rfl
          have stopped : ∀ (phase : Phase) (output : Option String), Sound settings outcomes job
              { ok := false, action := job.getAction
                updatePreflight := some (restartUpdatePreflight settings outcomes.readiness job)
                disconnect := some disconnected
                stop := some (commandResult phase (outcomes.command phase))
                output := output } := by
            intro phase output
            refine ⟨rfl, ?_, ?_, nofun, nofun, nofun, nofun, nofun, nofun⟩
            · rintro _ ⟨⟩
              rfl
            · rintro _ ⟨⟩
              exact answered_command outcomes phase
          split
          · exact .pure (stopped _ _)
          · refine .bind (backUp_returns (stopped _ none)) ?_
            rintro ⟨backed, failure⟩ ⟨sound, warned⟩
            refine .bind (update_returns sound warned) ?_
            rintro ⟨next, updated, steam⟩ ⟨sound, answered, applied, failed⟩
            exact resume_returns sound answered applied failed

theorem workerResult_sound (settings : Settings) (outcomes : Outcomes) (job : RestartJob) :
    Sound settings outcomes job (workerResult settings outcomes job) := by
  have returns : Returns (executeRestart settings outcomes job) (Sound settings outcomes job) := by
    unfold executeRestart
    split
    · exact executeRestartLocked_returns
    · split
      · exact executeRestartLocked_returns
      · intro value same
        rw [lift_outcome] at same
        cases same
      · exact .pure (sound_of_none rfl (.inl rfl) ⟨rfl, rfl, rfl, rfl, rfl, rfl, rfl⟩)
  unfold workerResult
  split
  · next result returned => exact returns result returned
  · next error _ => exact sound_of_none rfl (.inl rfl) ⟨rfl, rfl, rfl, rfl, rfl, rfl, rfl⟩

end Dash.Maintenance
