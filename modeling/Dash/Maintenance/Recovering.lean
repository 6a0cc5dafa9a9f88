import Dash.Maintenance.Restart

/-! When a stopped farm is started again.

The one execution that leaves the farm stopped has applied an update and then fails to hand over to
the host's reboot: the job's state cannot be written, or the request is refused.
-/

set_option autoImplicit false

namespace Dash.Maintenance

open Foundation Python List

variable {settings : Settings} {outcomes : Outcomes} {job : RestartJob}

def Stopped (log : List Deed) : Prop :=
  ∃ check mode result, Deed.command .stop check mode result ∈ log ∧ result.ok = true

def Started (log : List Deed) : Prop :=
  ∃ check mode result, Deed.command .start check mode result ∈ log

def RebootAccepted (log : List Deed) : Prop :=
  ∃ check mode result, Deed.command .reboot check mode result ∈ log ∧ result.ok = true

def Updating (deed : Deed) : Prop := ∃ mode result, deed = .command .update true mode result

def BroughtUp (log : List Deed) : Prop :=
  (∃ check mode result, Deed.command .start check mode result ∈ log ∧
    (result.ok = true ∨ result.returncode = some 141)) ∧
  log.getLast? = some (.awaitedOnline true)

def Permits (settings : Settings) (readiness : Except String Readiness) (job : RestartJob) : Prop :=
  job.target = "all" ∧ (policyOf settings job = "automatic" ∧ settings.updateReadinessRequireReceipt = false ∨
      policyOf settings job = "certified" ∧ settings.updateReadinessEnabled = true ∧
        ∃ ready, readiness = .ok ready ∧ ready.candidate.any Candidate.updateRequired = true ∧
          ready.applyReady = true ∧ ready.currentReceiptReady = true)

def Guarded (settings : Settings) (readiness : Except String Readiness) (job : RestartJob)
    (log : List Deed) : Prop :=
  ∀ earlier deed later, log = earlier ++ deed :: later → Updating deed →
    Permits settings readiness job ∧ Deed.backedUp true ∈ earlier

def KeepsServing (settings : Settings) (outcomes : Outcomes) (job : RestartJob) : Prop :=
  let run := executeRestart settings outcomes job
  (Stopped run.log → Started run.log ∨ RebootAccepted run.log) ∧
  Guarded settings outcomes.readiness job run.log ∧
  ∀ result, run.outcome = .ok result ∨ result = workerResult settings outcomes job →
    result.ok = true → BroughtUp run.log ∨ RebootAccepted run.log

def Completes (outcomes : Outcomes) (phase : Phase) : Prop :=
  (commandResult phase (outcomes.command phase)).ok = true

def Halts (settings : Settings) (outcomes : Outcomes) (job : RestartJob) : Prop :=
  (match outcomes.lock with | .acquired => True | _ => False) ∧ outcomes.executable = true ∧
  (policyOf settings job = "current" ∨ policyOf settings job = "certified" ∨
    policyOf settings job = "automatic" ∧ settings.updateReadinessRequireReceipt = false) ∧
  (job.requireSoftDisconnect.getD true = true →
    ∃ disconnected, outcomes.disconnect = .ok disconnected ∧ disconnected.ok = true) ∧
  Completes outcomes .stop

def Secured (settings : Settings) (outcomes : Outcomes) (job : RestartJob) : Prop :=
  if job.backup.getD true = true ∧ settings.maintenanceBackupEnabled = true then
    (∃ path, outcomes.backup = .ok path) ∧ outcomes.verification = .ok true
  else ¬Permits settings outcomes.readiness job

/-- The stopped farm gets an update that the host is to reboot for, and the reboot is not handed over:
the job's state is not written or the request is refused. -/
def RebootLost (settings : Settings) (outcomes : Outcomes) (job : RestartJob) : Prop :=
  settings.rebootAfterSteamUpdate = true ∧ job.target = "all" ∧ Halts settings outcomes job ∧
  Secured settings outcomes job ∧ Completes outcomes .update ∧
  steamUpdateWasApplied (commandResult .update (outcomes.command .update)) = true ∧
  ¬((∃ done, outcomes.awaitingReboot = .ok done) ∧ Completes outcomes .reboot)

theorem certified_permits {policy : String} {ready : Readiness} :
    (certified policy ready).ok = true ∧ ((certified policy ready).checkSteamUpdate = true ↔
      ready.candidate.any Candidate.updateRequired = true ∧ ready.applyReady = true ∧
        ready.currentReceiptReady = true) := by
  have required : (ready.candidate.map Candidate.updateRequired).getD false
      = ready.candidate.any Candidate.updateRequired := by
    cases ready.candidate <;> rfl
  simp only [certified, required]
  cases ready.candidate.any Candidate.updateRequired <;> cases ready.applyReady <;>
    cases ready.currentReceiptReady <;> simp [currentFallback] <;> split <;> simp

theorem preflight_ok (whole : job.target = "all") : (restartUpdatePreflight settings outcomes.readiness job).ok = true ↔
      (policyOf settings job = "current" ∨ policyOf settings job = "certified" ∨
        policyOf settings job = "automatic" ∧ settings.updateReadinessRequireReceipt = false) := by
  have fallback := fun ready => (@certified_permits (policyOf settings job) ready).1
  simp only [restartUpdatePreflight, whole]
  by_cases current : policyOf settings job = "current"
  · simp [current]
  · by_cases automatic : policyOf settings job = "automatic"
    · cases settings.updateReadinessRequireReceipt <;> simp [automatic]
    · by_cases certain : policyOf settings job = "certified"
      · cases settings.updateReadinessEnabled <;> cases outcomes.readiness <;>
          simp_all [currentFallback]
      · simp [current, automatic, certain]

theorem preflight_permits (allowed : (restartUpdatePreflight settings outcomes.readiness job).ok = true) :
    (restartUpdatePreflight settings outcomes.readiness job).checkSteamUpdate = true ↔
      Permits settings outcomes.readiness job := by
  have certain := fun ready => (@certified_permits (policyOf settings job) ready).2
  revert allowed
  simp only [restartUpdatePreflight, Permits]
  by_cases current : policyOf settings job = "current"
  · simp [current]
  · by_cases whole : job.target = "all"
    · by_cases automatic : policyOf settings job = "automatic"
      · cases settings.updateReadinessRequireReceipt <;> simp [automatic, whole]
      · by_cases known : policyOf settings job = "certified"
        · cases settings.updateReadinessEnabled <;> cases outcomes.readiness <;>
            simp_all [currentFallback]
        · simp [current, automatic, known, whole]
    · by_cases automatic : policyOf settings job = "automatic" <;>
        by_cases known : policyOf settings job = "certified" <;>
        simp [current, automatic, known, whole]

theorem recover_online {online : Online} {recovery : Option Recovery} {found : Online}
    (returned : (recover outcomes online).outcome = .ok (recovery, found))
    (healthy : found.ok = true) :
    (Deed.awaitedOnline online.ok :: (recover outcomes online).log).getLast? = some (.awaitedOnline true) := by
  unfold recover at returned ⊢
  cases first : online.ok with
  | true => simp
  | false =>
    simp only [first, Bool.false_eq_true, if_false] at returned ⊢
    cases recovered : outcomes.recovery with
    | error error => simp [recovered] at returned
    | ok result =>
      simp only [recovered, Logged.lift_ok_bind, Logged.note_bind] at returned ⊢
      cases fine : result.ok with
      | false =>
        simp only [fine, Bool.false_eq_true, if_false, Logged.pure_outcome, Except.ok.injEq, Prod.mk.injEq] at returned
        rw [← returned.2, first] at healthy
        cases healthy
      | true =>
        simp only [fine, if_true, Logged.pure_outcome, Except.ok.injEq, Prod.mk.injEq] at returned ⊢
        simp [returned.2, healthy]

variable {deed : Deed}

theorem recover_quiet {online : Online} (done : deed ∈ (recover outcomes online).log) : ¬Updating deed := by
  rintro ⟨mode, result, rfl⟩
  unfold recover at done
  cases first : online.ok with
  | true => simp [first] at done
  | false =>
    simp only [first, Bool.false_eq_true, if_false] at done
    cases recovered : outcomes.recovery with
    | error error => simp [recovered] at done
    | ok result =>
      simp only [recovered, Logged.lift_ok_bind, Logged.note_bind] at done
      cases fine : result.ok <;> simp [fine] at done

theorem appendRestartWarning_ok (result : Result) (warning : String) :
    (appendRestartWarning result warning).ok = result.ok := by
  unfold appendRestartWarning
  split <;> rfl

theorem explainStart_ok (result : Result) (started : CommandResult) (online : Online)
    (failure : Option String) : (explainStart result started online failure).ok = result.ok := by
  unfold explainStart
  split
  · exact appendRestartWarning_ok result _
  · split
    · rfl
    · split <;> rfl

variable {steam : SteamCheck} {result : Result} {failure : Option String} {stopped updated : CommandResult}

theorem runRestartCommand_bind {α : Type} (phase : Phase) (next : CommandResult → Maintaining α) :
    runRestartCommand outcomes steam phase >>= next = ⟨(next (commandResult phase (outcomes.command phase))).outcome,
        .command phase steam.enabled steam.mode (commandResult phase (outcomes.command phase)) ::
          (next (commandResult phase (outcomes.command phase))).log⟩ := rfl

theorem quiet_cons {log : List Deed} (first : ¬Updating deed)
    (rest : ∀ deed ∈ log, ¬Updating deed) : ∀ other ∈ deed :: log, ¬Updating other := by
  intro other member
  cases member with
  | head => exact first
  | tail _ member => exact rest other member

variable {run : Maintaining Result}

/-- The start is run whatever comes of it; where the result is good, the farm is up. -/
theorem startFarm_spec (runs : run = startFarm outcomes steam result failure stopped updated) :
    Started run.log ∧ (∀ deed ∈ run.log, ¬Updating deed) ∧
      ∀ result, run.outcome = .ok result → result.ok = true → BroughtUp run.log := by
  simp only [startFarm, runRestartCommand_bind, Logged.note_bind] at runs
  generalize steamed : (if failure.isSome = true then (⟨false, some "none"⟩ : SteamCheck) else steam)
    = check at runs
  generalize began : commandResult .start (outcomes.command .start) = started at runs
  have phases : ∀ deed, deed = .command .start check.enabled check.mode started ∨
      deed = .awaitedOnline outcomes.online.ok → ¬Updating deed := by
    rintro _ (rfl | rfl) ⟨_, _, same⟩ <;> cases same
  have quiet : ∀ deed ∈ Deed.command .start check.enabled check.mode started ::
      .awaitedOnline outcomes.online.ok :: (recover outcomes outcomes.online).log,
      ¬Updating deed :=
    quiet_cons (phases _ (.inl rfl)) (quiet_cons (phases _ (.inr rfl)) fun _ => recover_quiet)
  cases recovers : (recover outcomes outcomes.online).outcome with
  | error error =>
    rw [(Logged.bind_error recovers).1, (Logged.bind_error recovers).2] at runs
    subst runs
    exact ⟨⟨_, _, _, mem_cons_self⟩, quiet, fun _ returned => nomatch returned⟩
  | ok found =>
    obtain ⟨recovery, online⟩ := found
    rw [(Logged.bind_ok recovers).1, (Logged.bind_ok recovers).2] at runs
    simp only [Logged.pure_log, append_nil, Logged.pure_outcome] at runs
    subst runs
    refine ⟨⟨_, _, _, mem_cons_self⟩, quiet, fun result returned good => ?_⟩
    have fine : (started.ok = true ∨ started.returncode = some 141) ∧ online.ok = true := by
      simp only [Except.ok.injEq] at returned
      rw [← returned, explainStart_ok] at good
      simp only [Bool.and_eq_true, Bool.or_eq_true, decide_eq_true_eq] at good
      exact ⟨good.1.1.imp_right And.left, good.1.2⟩
    refine ⟨⟨_, _, _, mem_cons_self, fine.1⟩, ?_⟩
    rw [List.getLast?_cons_cons]
    exact recover_online recovers fine.2

/-- A reboot is accepted where the job's state is written and the request goes through. -/
theorem requestReboot_spec {outputs : List (Option String)}
    (runs : run = requestReboot outcomes job steam result outputs) :
    (RebootAccepted run.log ↔ (∃ done, outcomes.awaitingReboot = .ok done) ∧ Completes outcomes .reboot) ∧
      ¬Started run.log ∧ (∀ deed ∈ run.log, ¬Updating deed) ∧
      ∀ result, run.outcome = .ok result → result.ok = true → RebootAccepted run.log := by
  simp only [requestReboot, setRestartJobStatus] at runs
  cases written : outcomes.awaitingReboot with
  | error error =>
    rw [written] at runs
    subst runs
    refine ⟨⟨?_, ?_⟩, ?_, ?_, ?_⟩
    · rintro ⟨_, _, _, member, _⟩
      cases member
    · rintro ⟨⟨_, same⟩, _⟩
      cases same
    · rintro ⟨_, _, _, member⟩
      cases member
    · intro deed member
      cases member
    · intro result returned
      cases returned
  | ok done =>
    simp only [written, Logged.lift_ok_bind, Logged.note_bind, runRestartCommand_bind] at runs
    generalize began : commandResult .reboot (outcomes.command .reboot) = rebooted at runs
    cases accepted : rebooted.ok with
    | true =>
      simp only [accepted, if_true, Logged.pure_outcome, Logged.pure_log] at runs
      have asked : RebootAccepted run.log := by
        subst runs
        exact ⟨_, _, _, mem_cons_of_mem _ mem_cons_self, accepted⟩
      refine ⟨⟨fun _ => ⟨⟨done, rfl⟩, by rw [Completes, began, accepted]⟩, fun _ => asked⟩, ?_, ?_, fun _ _ _ => asked⟩
      · subst runs
        rintro ⟨_, _, _, member⟩
        simp at member
      · subst runs
        rintro deed member ⟨_, _, rfl⟩
        simp at member
    | false =>
      simp only [accepted, Bool.false_eq_true, if_false] at runs
      have logged : (∀ deed ∈ run.log, deed = .status job.id "awaiting_reboot" ∨
          deed = .command .reboot steam.enabled steam.mode rebooted ∨
          deed = .status job.id "executing") ∧
          ∀ result, run.outcome = .ok result → result.ok = false := by
        cases back : outcomes.executing with
        | error error =>
          simp only [back, Logged.lift_error_bind] at runs
          subst runs
          refine ⟨fun deed member => ?_, fun result returned => nomatch returned⟩
          rcases mem_cons.mp member with rfl | member
          · exact .inl rfl
          · exact .inr (.inl (mem_singleton.mp member))
        | ok done =>
          simp only [back, Logged.lift_ok_bind, Logged.note_bind] at runs
          subst runs
          refine ⟨fun deed member => ?_, fun result returned => ?_⟩
          · simpa using member
          · simp only [Logged.pure_outcome, Except.ok.injEq] at returned
            subst returned
            rfl
      refine ⟨⟨?_, fun ⟨_, good⟩ => ?_⟩, ?_, ?_, ?_⟩
      · rintro ⟨_, _, other, member, good⟩
        rcases logged.1 _ member with same | same | same <;> cases same
        rw [accepted] at good
        cases good
      · rw [Completes, began, accepted] at good
        cases good
      · rintro ⟨_, _, _, member⟩
        rcases logged.1 _ member with same | same | same <;> cases same
      · rintro deed member ⟨_, _, rfl⟩
        rcases logged.1 _ member with same | same | same <;> cases same
      · intro result returned good
        rw [logged.2 result returned] at good
        cases good

def Preparing (deed : Deed) : Prop :=
  ∀ phase check mode result, deed = .command phase check mode result → phase ≠ .start ∧ phase ≠ .reboot

section Behind

variable {front rest : List Deed} (prepared : ∀ deed ∈ front, Preparing deed)
include prepared

theorem started_behind : Started (front ++ rest) ↔ Started rest := by
  constructor
  · rintro ⟨check, mode, result, member⟩
    rcases mem_append.mp member with member | member
    · exact absurd rfl (prepared _ member _ _ _ _ rfl).1
    · exact ⟨check, mode, result, member⟩
  · rintro ⟨check, mode, result, member⟩
    exact ⟨check, mode, result, mem_append_right _ member⟩

theorem rebootAccepted_behind : RebootAccepted (front ++ rest) ↔ RebootAccepted rest := by
  constructor
  · rintro ⟨check, mode, result, member, good⟩
    rcases mem_append.mp member with member | member
    · exact absurd rfl (prepared _ member _ _ _ _ rfl).2
    · exact ⟨check, mode, result, member, good⟩
  · rintro ⟨check, mode, result, member, good⟩
    exact ⟨check, mode, result, mem_append_right _ member, good⟩

end Behind

theorem BroughtUp.behind {rest : List Deed} (up : BroughtUp rest) (front : List Deed) : BroughtUp (front ++ rest) := by
  obtain ⟨⟨check, mode, result, member, good⟩, last⟩ := up
  refine ⟨⟨check, mode, result, mem_append_right _ member, good⟩, ?_⟩
  rw [List.getLast?_append, last]
  rfl

/-- The backup never raises; where it finds no failure, an update that is due has a verified set. -/
theorem backUp_spec (settings : Settings) (outcomes : Outcomes) (job : RestartJob)
    (steam : SteamCheck) (result : Result) :
    ∃ kept failure, (backUp settings outcomes job steam result).outcome = .ok (kept, failure) ∧
      kept.action = result.action ∧
      (∀ deed ∈ (backUp settings outcomes job steam result).log, ∃ verified, deed = .backedUp verified) ∧
      (failure = none → steam.enabled = true → Deed.backedUp true ∈ (backUp settings outcomes job steam result).log) ∧
      (failure = none ↔
        if job.backup.getD true = true ∧ settings.maintenanceBackupEnabled = true then
          (∃ path, outcomes.backup = .ok path) ∧ outcomes.verification = .ok true
        else steam.enabled = false) := by
  unfold backUp
  by_cases wanted : job.backup.getD true = true ∧ settings.maintenanceBackupEnabled = true
  · simp only [wanted.1, wanted.2, Bool.and_self, if_true, and_self]
    cases outcomes.backup with
    | error error => exact ⟨_, _, rfl, rfl, by simp, by simp, by simp⟩
    | ok path =>
      cases outcomes.verification with
      | error error => exact ⟨_, _, rfl, rfl, by simp, by simp, by simp⟩
      | ok verified => cases verified <;> exact ⟨_, _, rfl, rfl, by simp, by simp, by simp⟩
  · have unwanted : (job.backup.getD true && settings.maintenanceBackupEnabled) = false := by
      rw [← Bool.not_eq_true, Bool.and_eq_true]
      exact wanted
    rw [unwanted, if_neg (by simp), if_neg wanted]
    cases enabled : steam.enabled
    · exact ⟨_, _, rfl, rfl, by simp, by simp, by simp⟩
    · exact ⟨_, _, rfl, rfl, by simp, by simp, by simp⟩

theorem update_spec (outcomes : Outcomes) (steam : SteamCheck) (result : Result) (failure : Option String) :
    ∃ kept ran after, (update outcomes steam result failure).outcome = .ok (kept, ran, after) ∧
      kept.action = result.action ∧
      (failure = none ∧ ran = commandResult .update (outcomes.command .update) ∧
          (update outcomes steam result failure).log = [.command .update steam.enabled steam.mode ran] ∨
        failure ≠ none ∧ ran.ok = true ∧ (update outcomes steam result failure).log = []) := by
  cases failure with
  | none => exact ⟨_, _, _, rfl, rfl, .inl ⟨rfl, rfl, rfl⟩⟩
  | some failure =>
    refine ⟨_, _, _, rfl, ?_, .inr ⟨nofun, rfl, rfl⟩⟩
    unfold appendRestartWarning
    split <;> rfl

def HandsOver (outcomes : Outcomes) : Prop :=
  (∃ done, outcomes.awaitingReboot = .ok done) ∧ Completes outcomes .reboot

def RebootDue (settings : Settings) (job : RestartJob) (updated : CommandResult) (failure : Option String) : Prop :=
  failure = none ∧ updated.ok = true ∧ settings.rebootAfterSteamUpdate = true ∧
    job.target = "all" ∧ steamUpdateWasApplied updated = true

theorem resume_spec (restarts : job.getAction ≠ "shutdown")
    (runs : run = resume settings outcomes job steam stopped updated result failure) :
    (Started run.log ∨ RebootAccepted run.log ↔ ¬(RebootDue settings job updated failure ∧ ¬HandsOver outcomes)) ∧
      (∀ deed ∈ run.log, ¬Updating deed) ∧
      ∀ result, run.outcome = .ok result → result.ok = true → BroughtUp run.log ∨ RebootAccepted run.log := by
  have starts : ∀ {steam result failure}, run = startFarm outcomes steam result failure stopped updated →
      (Started run.log ∨ RebootAccepted run.log ↔ True) ∧ (∀ deed ∈ run.log, ¬Updating deed) ∧
        ∀ result, run.outcome = .ok result → result.ok = true → BroughtUp run.log ∨ RebootAccepted run.log := by
    intro steam result failure same
    obtain ⟨started, quiet, up⟩ := startFarm_spec same
    exact ⟨iff_of_true (.inl started) trivial, quiet, fun result returned good => .inl (up result returned good)⟩
  unfold resume at runs
  cases fine : updated.ok with
  | false =>
    have due : ¬(RebootDue settings job updated failure ∧ ¬HandsOver outcomes) := by
      rintro ⟨⟨-, good, -⟩, -⟩
      rw [fine] at good
      cases good
    simp only [fine, Bool.false_eq_true, if_false, restarts, Option.isNone_some, Bool.false_and]
      at runs
    simp only [due, not_false_eq_true]
    exact starts runs
  | true =>
    simp only [fine, if_true, restarts, if_false] at runs
    split at runs
    · rename_i reboots
      simp only [Bool.and_eq_true, Option.isNone_iff_eq_none, decide_eq_true_eq] at reboots
      have due : RebootDue settings job updated failure :=
        ⟨reboots.1.1.1, fine, reboots.1.1.2, reboots.1.2, reboots.2⟩
      obtain ⟨accepted, unstarted, quiet, up⟩ := requestReboot_spec runs
      refine ⟨?_, quiet, fun result returned good => .inr (up result returned good)⟩
      rw [or_iff_right unstarted, accepted, ← HandsOver]
      simp [due]
    · rename_i stays
      have due : ¬(RebootDue settings job updated failure ∧ ¬HandsOver outcomes) := by
        rintro ⟨⟨none, -, reboots, whole, applied⟩, -⟩
        simp [none, reboots, whole, applied] at stays
      simp only [due, not_false_eq_true]
      exact starts runs

theorem preparing_backup (backed : ∃ verified, deed = .backedUp verified) : Preparing deed := by
  obtain ⟨verified, rfl⟩ := backed
  exact fun _ _ _ _ same => nomatch same

theorem preparing_command {phase : Phase} {check : Bool} {mode : Option String}
    {result : CommandResult} (first : phase ≠ .start) (second : phase ≠ .reboot) :
    Preparing (.command phase check mode result) := by
  intro other _ _ _ same
  cases same
  exact ⟨first, second⟩

theorem append_cons_cases {α : Type} {front rest earlier later : List α} {item : α}
    (same : front ++ rest = earlier ++ item :: later) :
    item ∈ front ∨ ∃ between, earlier = front ++ between ∧ item ∈ rest := by
  rcases append_eq_append_iff.mp same with ⟨between, split, behind⟩ | ⟨between, split, behind⟩
  · exact .inr ⟨between, split, behind ▸ mem_append_right _ mem_cons_self⟩
  · cases between with
    | nil =>
      refine .inr ⟨[], by simpa using split.symm, ?_⟩
      rw [nil_append] at behind
      exact behind ▸ mem_cons_self
    | cons head between =>
      rw [cons_append, List.cons.injEq] at behind
      exact .inl (split ▸ mem_append_right _ (behind.1 ▸ mem_cons_self))

theorem maintain_spec (restarts : job.getAction ≠ "shutdown")
    (runs : run = maintain settings outcomes job steam stopped result) :
    (Started run.log ∨ RebootAccepted run.log ↔
      ¬(((if job.backup.getD true = true ∧ settings.maintenanceBackupEnabled = true then
          (∃ path, outcomes.backup = .ok path) ∧ outcomes.verification = .ok true
        else steam.enabled = false) ∧
        RebootDue settings job (commandResult .update (outcomes.command .update)) none) ∧
        ¬HandsOver outcomes)) ∧
      (∀ earlier deed later, run.log = earlier ++ deed :: later → Updating deed →
        steam.enabled = true ∧ Deed.backedUp true ∈ earlier) ∧
      ∀ result, run.outcome = .ok result → result.ok = true → BroughtUp run.log ∨ RebootAccepted run.log := by
  obtain ⟨kept, failure, backs, -, backed, verified, secured⟩ := backUp_spec settings outcomes job steam result
  obtain ⟨ready, ran, after, updates, -, log⟩ := update_spec outcomes steam kept failure
  let last : Result × CommandResult × SteamCheck → Maintaining Result := fun done =>
    resume settings outcomes job done.2.2 stopped done.2.1 done.1 failure
  have inner : (update outcomes steam kept failure >>= last).outcome = _ ∧ _ := Logged.bind_ok updates
  let middle : Result × Option String → Maintaining Result := fun backed =>
    update outcomes steam backed.1 backed.2 >>= fun done =>
      resume settings outcomes job done.2.2 stopped done.2.1 done.1 backed.2
  have outer : (backUp settings outcomes job steam result >>= middle).outcome = _ ∧ _ := Logged.bind_ok backs
  have outcome : run.outcome = (resume settings outcomes job after stopped ran ready failure).outcome :=
    runs ▸ outer.1.trans inner.1
  have logged : run.log = (backUp settings outcomes job steam result).log ++
      ((update outcomes steam kept failure).log ++
        (resume settings outcomes job after stopped ran ready failure).log) :=
    runs ▸ outer.2.trans (congrArg _ inner.2)
  obtain ⟨served, quiet, up⟩ := resume_spec restarts
    (Eq.refl (resume settings outcomes job after stopped ran ready failure))
  have updating : ∀ deed ∈ (update outcomes steam kept failure).log,
      failure = none ∧ deed = .command .update steam.enabled steam.mode ran := by
    intro deed member
    rcases log with ⟨none, -, log⟩ | ⟨-, -, log⟩
    · rw [log] at member
      exact ⟨none, mem_singleton.mp member⟩
    · rw [log] at member
      cases member
  have before : ∀ deed ∈ (backUp settings outcomes job steam result).log, Preparing deed :=
    fun deed member => preparing_backup (backed deed member)
  have during : ∀ deed ∈ (update outcomes steam kept failure).log, Preparing deed := by
    intro deed member
    rw [(updating deed member).2]
    exact preparing_command (by decide) (by decide)
  refine ⟨?_, ?_, ?_⟩
  · rw [logged, started_behind before, started_behind during, rebootAccepted_behind before,
      rebootAccepted_behind during, served]
    rcases log with ⟨none, same, -⟩ | ⟨failed, -, -⟩
    · rw [← secured, same]
      simp [none]
    · rw [← secured]
      simp [RebootDue, failed]
  · intro earlier deed later same updates
    rw [logged] at same
    rcases append_cons_cases same with member | ⟨between, rfl, member⟩
    · obtain ⟨verified, rfl⟩ := backed deed member
      obtain ⟨mode, result, same⟩ := updates
      cases same
    · rcases mem_append.mp member with member | member
      · obtain ⟨none, rfl⟩ := updating deed member
        obtain ⟨mode, result, same⟩ := updates
        have enabled : steam.enabled = true := by
          injection same
        exact ⟨enabled, mem_append_left _ (verified none enabled)⟩
      · exact absurd updates (quiet deed member)
  · intro result returned good
    rw [outcome] at returned
    rw [logged, rebootAccepted_behind before, rebootAccepted_behind during]
    exact (up result returned good).imp_left fun up => (up.behind _).behind _

def Reaches (settings : Settings) (outcomes : Outcomes) (job : RestartJob) : Prop :=
  outcomes.executable = true ∧
  (restartUpdatePreflight settings outcomes.readiness job).ok = true ∧
  (job.requireSoftDisconnect.getD true = true →
    ∃ disconnected, outcomes.disconnect = .ok disconnected ∧ disconnected.ok = true) ∧
  Completes outcomes .stop

theorem softDisconnect_spec (outcomes : Outcomes) (job : RestartJob) :
    (∀ deed ∈ (softDisconnect outcomes job).log, deed = .disconnected) ∧
    ((∃ disconnected, (softDisconnect outcomes job).outcome = .ok disconnected ∧ disconnected.ok = true) ↔
      (job.requireSoftDisconnect.getD true = true →
        ∃ disconnected, outcomes.disconnect = .ok disconnected ∧ disconnected.ok = true)) := by
  unfold softDisconnect
  cases job.requireSoftDisconnect.getD true with
  | false => simp
  | true => cases outcomes.disconnect <;> simp

def TurnedAway (run : Maintaining Result) : Prop :=
  ¬Stopped run.log ∧ (∀ deed ∈ run.log, ¬Updating deed) ∧ ∀ result, run.outcome = .ok result → result.ok = false

theorem turnedAway_of (quiet : ∀ deed ∈ run.log, deed = .disconnected)
    (refused : ∀ result, run.outcome = .ok result → result.ok = false) : TurnedAway run := by
  refine ⟨?_, ?_, refused⟩
  · rintro ⟨_, _, _, member, -⟩
    cases quiet _ member
  · rintro deed member ⟨_, _, rfl⟩
    cases quiet _ member

theorem locked_cases (restarts : job.getAction = "restart") (executes : job.execute = true)
    (runs : run = executeRestartLocked settings outcomes job) :
    (¬Reaches settings outcomes job ∧ TurnedAway run) ∨
    (Reaches settings outcomes job ∧ ∃ front stopped result, (∀ deed ∈ front, Preparing deed) ∧
      (∀ deed ∈ front, ¬Updating deed) ∧ Stopped front ∧
      run.log = front ++ (maintain settings outcomes job
        ⟨(restartUpdatePreflight settings outcomes.readiness job).checkSteamUpdate,
          (restartUpdatePreflight settings outcomes.readiness job).steamUpdateMode⟩
        stopped result).log ∧
      run.outcome = (maintain settings outcomes job
        ⟨(restartUpdatePreflight settings outcomes.readiness job).checkSteamUpdate,
          (restartUpdatePreflight settings outcomes.readiness job).steamUpdateMode⟩
        stopped result).outcome) := by
  have notShutdown : ¬("restart" : String) = "shutdown" := by decide
  simp only [executeRestartLocked, executes, restarts, Bool.not_true, Bool.false_eq_true, if_false,
    notShutdown, runRestartCommand_bind] at runs
  -- each of the four checks in turn: where one fails, nothing was stopped
  cases usable : outcomes.executable with
  | false =>
    simp only [usable, Bool.not_false, if_true] at runs
    subst runs
    refine .inl ⟨fun reached => ?_, turnedAway_of (by simp) fun result returned => ?_⟩
    · rw [Reaches, usable] at reached
      cases reached.1
    · simp only [Logged.pure_outcome, Except.ok.injEq] at returned
      rw [← returned]
  | true =>
    simp only [usable, Bool.not_true, Bool.false_eq_true, if_false] at runs
    generalize checked : restartUpdatePreflight settings outcomes.readiness job = preflight at runs ⊢
    cases allowed : preflight.ok with
    | false =>
      simp only [allowed, Bool.not_false, if_true] at runs
      subst runs
      refine .inl ⟨fun reached => ?_, turnedAway_of (by simp) fun result returned => ?_⟩
      · rw [Reaches, checked, allowed] at reached
        cases reached.2.1
      · simp only [Logged.pure_outcome, Except.ok.injEq] at returned
        rw [← returned]
    | true =>
      simp only [allowed, Bool.not_true, Bool.false_eq_true, if_false] at runs
      obtain ⟨quiet, connected⟩ := softDisconnect_spec outcomes job
      cases left : (softDisconnect outcomes job).outcome with
      | error error =>
        refine .inl ⟨fun reached => ?_, turnedAway_of ?_ fun result returned => ?_⟩
        · obtain ⟨_, same, -⟩ := connected.mpr reached.2.2.1
          rw [left] at same
          cases same
        · rw [runs, (Logged.bind_error left).2]
          exact quiet
        · rw [runs, (Logged.bind_error left).1] at returned
          cases returned
      | ok disconnected =>
        obtain ⟨ends, logs⟩ := Logged.bind_ok left
        rw [← runs] at ends logs
        cases fine : disconnected.ok with
        | false =>
          simp only [fine, Bool.not_false, if_true, Logged.pure_log, Logged.pure_outcome, append_nil] at ends logs
          refine .inl ⟨fun reached => ?_, turnedAway_of (logs ▸ quiet) fun result returned => ?_⟩
          · obtain ⟨_, same, good⟩ := connected.mpr reached.2.2.1
            rw [left, Except.ok.injEq] at same
            rw [← same, fine] at good
            cases good
          · rw [ends, Except.ok.injEq] at returned
            rw [← returned]
        | true =>
          simp only [fine, Bool.not_true, Bool.false_eq_true, if_false] at ends logs
          have parted := connected.mp ⟨disconnected, left, fine⟩
          have stops : ∀ deed ∈ (softDisconnect outcomes job).log ++
              [.command .stop preflight.checkSteamUpdate preflight.steamUpdateMode
                (commandResult .stop (outcomes.command .stop))],
              Preparing deed ∧ ¬Updating deed := by
            intro deed member
            rcases mem_append.mp member with member | member
            · rw [quiet deed member]
              exact ⟨fun _ _ _ _ same => (nomatch same), fun ⟨_, _, same⟩ => (nomatch same)⟩
            · rw [mem_singleton.mp member]
              exact ⟨preparing_command (by decide) (by decide), fun ⟨_, _, same⟩ => (nomatch same)⟩
          cases halted : (commandResult .stop (outcomes.command .stop)).ok with
          | false =>
            simp only [halted, Bool.not_false, if_true, Logged.pure_log, Logged.pure_outcome]
              at ends logs
            refine .inl ⟨fun reached => ?_, ?_, ?_, fun result returned => ?_⟩
            · have good := reached.2.2.2
              rw [Completes, halted] at good
              cases good
            · rintro ⟨_, _, other, member, good⟩
              rw [logs] at member
              rcases mem_append.mp member with member | member
              · cases quiet _ member
              · cases mem_singleton.mp member
                rw [halted] at good
                cases good
            · intro deed member
              rw [logs] at member
              exact (stops deed member).2
            · rw [ends, Except.ok.injEq] at returned
              rw [← returned]
          | true =>
            simp only [halted, Bool.not_true, Bool.false_eq_true, if_false] at ends logs
            refine .inr ⟨⟨usable, by rw [checked, allowed], parted, halted⟩, _, _, _,
              fun deed member => (stops deed member).1, fun deed member => (stops deed member).2,
              ⟨_, _, _, mem_append_right _ (mem_singleton_self _), halted⟩, ?_, ends⟩
            rw [logs, append_assoc]
            rfl

theorem workerResult_ok (good : (workerResult settings outcomes job).ok = true) :
    (executeRestart settings outcomes job).outcome = .ok (workerResult settings outcomes job) := by
  unfold workerResult at good ⊢
  cases ended : (executeRestart settings outcomes job).outcome with
  | ok result => rfl
  | error error =>
    rw [ended] at good
    cases good

def Serves (settings : Settings) (outcomes : Outcomes) (job : RestartJob) (run : Maintaining Result) : Prop :=
  (Stopped run.log → Started run.log ∨ RebootAccepted run.log) ∧
  Guarded settings outcomes.readiness job run.log ∧
  ∀ result, run.outcome = .ok result → result.ok = true → BroughtUp run.log ∨ RebootAccepted run.log

theorem keepsServing_iff : KeepsServing settings outcomes job ↔
      Serves settings outcomes job (executeRestart settings outcomes job) := by
  refine and_congr_right fun _ => and_congr_right fun _ => ⟨fun good result returned =>
    good result (.inl returned), ?_⟩
  rintro good result (returned | rfl) fine
  · exact good result returned fine
  · exact good _ (workerResult_ok fine) fine

theorem TurnedAway.serves (away : TurnedAway run) : Serves settings outcomes job run := by
  refine ⟨fun stopped => absurd stopped away.1, ?_, fun result returned good => ?_⟩
  · intro earlier deed later same updates
    exact absurd updates (away.2.1 deed (same ▸ mem_append_right _ mem_cons_self))
  · rw [away.2.2 result returned] at good
    cases good

theorem rebootLost_iff (acquired : outcomes.lock = .acquired) (reached : Reaches settings outcomes job) :
    RebootLost settings outcomes job ↔
      ((if job.backup.getD true = true ∧ settings.maintenanceBackupEnabled = true then
          (∃ path, outcomes.backup = .ok path) ∧ outcomes.verification = .ok true
        else (restartUpdatePreflight settings outcomes.readiness job).checkSteamUpdate = false) ∧
        RebootDue settings job (commandResult .update (outcomes.command .update)) none) ∧
        ¬HandsOver outcomes := by
  have unpermitted : (restartUpdatePreflight settings outcomes.readiness job).checkSteamUpdate = false
      ↔ ¬Permits settings outcomes.readiness job := by
    rw [← preflight_permits reached.2.1, Bool.not_eq_true]
  unfold RebootLost Halts Secured RebootDue Completes HandsOver
  rw [acquired, unpermitted]
  constructor
  · rintro ⟨reboots, whole, -, secured, updated, applied, lost⟩
    exact ⟨⟨secured, rfl, updated, reboots, whole, applied⟩, lost⟩
  · rintro ⟨⟨secured, -, updated, reboots, whole, applied⟩, lost⟩
    exact ⟨reboots, whole, ⟨trivial, reached.1, (preflight_ok whole).mp reached.2.1,
      reached.2.2.1, reached.2.2.2⟩, secured, updated, applied, lost⟩

/-- A restart keeps its promises unless the host's reboot is lost after an update: the farm is
started again or the host reboots, no update is acquired unpermitted or without a verified backup,
and a good result means that the farm is up or that the host reboots. -/
theorem keepsServing_iff_not_rebootLost (restarts : job.getAction = "restart") (executes : job.execute = true) :
    KeepsServing settings outcomes job ↔ ¬RebootLost settings outcomes job := by
  rw [keepsServing_iff]
  have away (locked : outcomes.lock ≠ .acquired) : ¬RebootLost settings outcomes job := by
    rintro ⟨-, -, ⟨acquired, -⟩, -⟩
    cases same : outcomes.lock <;> simp_all
  unfold executeRestart
  simp only [executes, Bool.not_true, Bool.false_eq_true, if_false]
  cases locked : outcomes.lock with
  | raised error =>
    refine iff_of_true (TurnedAway.serves (turnedAway_of (by simp) fun _ returned => ?_)) (away (by simp [locked]))
    cases returned
  | busy error =>
    refine iff_of_true (TurnedAway.serves (turnedAway_of (by simp) fun result returned => ?_)) (away (by simp [locked]))
    simp only [Logged.pure_outcome, Except.ok.injEq] at returned
    rw [← returned]
  | acquired =>
    rcases locked_cases restarts executes (Eq.refl (executeRestartLocked settings outcomes job)) with
      ⟨unreached, turned⟩ | ⟨reached, front, stopped, result, prepared, quiet, halted, log, ended⟩
    · refine iff_of_true turned.serves ?_
      rintro ⟨-, whole, halts, -⟩
      exact unreached ⟨halts.2.1, (preflight_ok whole).mpr halts.2.2.1, halts.2.2.2⟩
    · have goes : job.getAction ≠ "shutdown" := by
        rw [restarts]
        decide
      obtain ⟨served, guarded, up⟩ := maintain_spec goes (Eq.refl (maintain settings outcomes job
        ⟨(restartUpdatePreflight settings outcomes.readiness job).checkSteamUpdate,
          (restartUpdatePreflight settings outcomes.readiness job).steamUpdateMode⟩ stopped result))
      have stops : Stopped (executeRestartLocked settings outcomes job).log := by
        obtain ⟨check, mode, other, member, good⟩ := halted
        exact ⟨check, mode, other, log ▸ mem_append_left _ member, good⟩
      change Serves settings outcomes job (executeRestartLocked settings outcomes job) ↔ _
      rw [rebootLost_iff locked reached, ← served, ← started_behind prepared, ← rebootAccepted_behind prepared, ← log]
      refine ⟨fun serves => serves.1 stops, fun serves => ⟨fun _ => serves, ?_, ?_⟩⟩
      · intro earlier deed later same updates
        rw [log] at same
        rcases append_cons_cases same with member | ⟨between, rfl, -⟩
        · exact absurd updates (quiet deed member)
        · rw [append_assoc] at same
          obtain ⟨checked, backed⟩ := guarded between deed later (append_cancel_left same) updates
          exact ⟨(preflight_permits reached.2.1).mp checked, mem_append_right _ backed⟩
      · intro result returned good
        rw [ended] at returned
        rw [log]
        exact (up result returned good).imp (fun up => up.behind _)
          fun accepted => (rebootAccepted_behind prepared).mpr accepted

def lowered (text : String) : String := String.ofList (text.toList.map Char.toLower)

def rebooting : Settings where
  lower := lowered
  restartCommand := "/app/scripts/restart-target.sh"
  rebootAfterSteamUpdate := true

def certifiedCandidate : Readiness where
  candidate := some ⟨some "staged", true⟩
  failedChecks := []
  applyReady := true
  currentReceiptReady := true
  latest := some ("receipt", "sha256")

def nightly : RestartJob where
  id := "nightly"
  target := "all"
  updatePolicy := some "certified"
  execute := true

def refusedReboot : Outcomes where
  lock := .acquired
  executable := true
  readiness := .ok certifiedCandidate
  disconnect := .ok { ok := true }
  command
    | .update => .exited 0 "DUNE_STEAM_UPDATE_APPLIED=1" ""
    | .reboot => .exited 1 "" "no systemd"
    | _ => .exited 0 "" ""
  backup := .ok "maintenance/nightly"
  verification := .ok true
  awaitingReboot := .ok ()
  executing := .ok ()
  online := { ok := true }
  recovery := .ok { ok := true }
  onlineAfterRecovery := { ok := true }

theorem keepsServing_iff_not_rebootLost_nightly :
    KeepsServing rebooting refusedReboot nightly ↔ ¬RebootLost rebooting refusedReboot nightly :=
  keepsServing_iff_not_rebootLost (by decide) (by decide)

def Deed.phase? : Deed → Option (Phase × Bool)
  | .command phase _ _ result => some (phase, result.ok)
  | _ => none

theorem phase_of_command {log : List Deed} {phase : Phase} {good : Bool} : some (phase, good) ∈ log.map Deed.phase? ↔
      ∃ check mode result, Deed.command phase check mode result ∈ log ∧ result.ok = good := by
  rw [mem_map]
  constructor
  · rintro ⟨deed, member, same⟩
    cases deed <;> simp only [Deed.phase?, reduceCtorEq, Option.some.injEq, Prod.mk.injEq] at same
    obtain ⟨rfl, rfl⟩ := same
    exact ⟨_, _, _, member, rfl⟩
  · rintro ⟨check, mode, result, member, rfl⟩
    exact ⟨_, member, rfl⟩

theorem refusedReboot_phases : (executeRestart rebooting refusedReboot nightly).log.map Deed.phase? =
      [none, some (.stop, true), none, some (.update, true), none, some (.reboot, false), none] := by
  decide

/-- The farm is stopped, updated and left there. -/
theorem refused_reboot_leaves_stopped : ¬KeepsServing rebooting refusedReboot nightly := by
  have run {phase good} := @phase_of_command (executeRestart rebooting refusedReboot nightly).log phase good
  rw [refusedReboot_phases] at run
  rintro ⟨served, -⟩
  rcases served (run.mp (by decide)) with ⟨check, mode, result, started⟩ | accepted
  · have began := run.mpr ⟨check, mode, result, started, rfl⟩
    simp at began
  · exact absurd (run.mpr accepted) (by decide)

end Dash.Maintenance
