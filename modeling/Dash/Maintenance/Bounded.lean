import Dash.Maintenance.Receipts
import Dash.Maintenance.Results

/-! The times, texts and stages of receipts, within the bounds that a receipt has. -/

set_option autoImplicit false

namespace Dash.Maintenance.Receipts

open Dash.Python List

theorem roundEven_floor (value : ℚ) : ⌊value⌋ ≤ roundEven value ∧ roundEven value ≤ ⌊value⌋ + 1 := by
  unfold roundEven
  dsimp only
  split_ifs <;> constructor <;> omega

theorem roundEven_near (value : ℚ) : (roundEven value : ℚ) ≤ value + 1 / 2 ∧ value - 1 / 2 ≤ (roundEven value : ℚ) := by
  have low := Int.floor_le value
  have high := Int.lt_floor_add_one value
  unfold roundEven
  dsimp only
  split_ifs with below above
  · constructor <;> linarith
  · push_cast
    rcases above with more | odd
    · constructor <;> linarith
    · constructor <;> linarith
  · rw [not_or] at above
    constructor <;> linarith

def RoundsUp (value : ℚ) : Prop :=
  1 / 2 ≤ value - ⌊value⌋ ∧ (1 / 2 < value - ⌊value⌋ ∨ ⌊value⌋ % 2 ≠ 0)

theorem roundEven_up {value : ℚ} (up : RoundsUp value) : roundEven value = ⌊value⌋ + 1 := by
  unfold roundEven
  dsimp only
  rw [if_neg (not_lt.mpr up.1), if_pos up.2]

theorem roundEven_down {value : ℚ} (down : ¬RoundsUp value) : roundEven value = ⌊value⌋ := by
  unfold roundEven
  dsimp only
  split_ifs with below above
  · rfl
  · exact absurd ⟨not_lt.mp below, above⟩ down
  · rfl

theorem roundEven_mono {first second : ℚ} (before : first ≤ second) : roundEven first ≤ roundEven second := by
  have least := (roundEven_floor second).1
  rcases lt_or_eq_of_le (Int.floor_le_floor before) with apart | same
  · have most := (roundEven_floor first).2
    omega
  · by_cases up : RoundsUp first
    · -- With one floor, the greater rest is rounded up where the smaller one is.
      have also : RoundsUp second := by
        obtain ⟨half, more⟩ := up
        rw [same] at half more
        refine ⟨by linarith, ?_⟩
        rcases more with above | odd
        · exact .inl (by linarith)
        · exact .inr odd
      rw [roundEven_up up, roundEven_up also, same]
    · rw [roundEven_down up, same]
      exact least

theorem roundEven_int (value : Int) : roundEven (value : ℚ) = value := by
  unfold roundEven
  rw [Int.floor_intCast]
  norm_num

theorem roundEven_add_even (value : ℚ) (half : Int) :
    roundEven (value + ((2 * half : Int) : ℚ)) = roundEven value + 2 * half := by
  unfold roundEven
  rw [Int.floor_add_intCast]
  have rest : value + ((2 * half : Int) : ℚ) - ((⌊value⌋ + 2 * half : Int) : ℚ) = value - (⌊value⌋ : ℚ) := by
    push_cast
    ring
  have parity : (⌊value⌋ + 2 * half) % 2 = ⌊value⌋ % 2 := by omega
  dsimp only
  rw [rest, parity]
  split_ifs <;> omega

theorem iso_mono {first second : ℚ} (before : first ≤ second) : iso first ≤ iso second :=
  roundEven_mono (by linarith)

theorem iso_day (time : ℚ) : iso (time + 86400) = iso time + 86400000000 := by
  have shifted : (time + 86400) * 1000000 = time * 1000000 + ((2 * 43200000000 : Int) : ℚ) := by
    push_cast
    ring
  rw [iso, iso, shifted, roundEven_add_even]
  rfl

theorem epoch_mono {first second : Int} (before : first ≤ second) : epoch first ≤ epoch second := by
  have cast : (first : ℚ) ≤ (second : ℚ) := by exact_mod_cast before
  unfold epoch
  linarith

theorem interval_rounded {started completed : ℚ} (order : started ≤ completed) (day : completed ≤ started + 86400) :
    0 ≤ epoch (iso completed) - epoch (iso started) ∧ epoch (iso completed) - epoch (iso started) ≤ 86400 := by
  have first := epoch_mono (iso_mono order)
  have second := epoch_mono (iso_mono day)
  have shifted : epoch (iso (started + 86400)) = epoch (iso started) + 86400 := by
    rw [iso_day, epoch, epoch]
    push_cast
    ring
  constructor <;> linarith

theorem epoch_iso_near (time : ℚ) : epoch (iso time) ≤ time + 1 / 1000000 ∧ time - 1 / 1000000 ≤ epoch (iso time) := by
  have near := roundEven_near (time * 1000000)
  unfold epoch iso
  constructor <;> linarith

theorem duration_bounded {started completed : ℚ} (order : started ≤ completed) (day : completed ≤ started + 86400) :
    0 ≤ roundEven ((completed - started) * 1000) ∧ roundEven ((completed - started) * 1000) ≤ 86400000 := by
  constructor
  · have least := roundEven_mono (show ((0 : Int) : ℚ) ≤ (completed - started) * 1000 by
      push_cast
      linarith)
    rw [roundEven_int] at least
    exact least
  · have most := roundEven_mono (show (completed - started) * 1000 ≤ ((86400000 : Int) : ℚ) by
      push_cast
      linarith)
    rw [roundEven_int] at most
    exact most

theorem duration_near (started completed : ℚ) :
    |roundEven ((completed - started) * 1000) -
      roundEven ((epoch (iso completed) - epoch (iso started)) * 1000)| ≤ 2000 := by
  have first := roundEven_near ((completed - started) * 1000)
  have second := roundEven_near ((epoch (iso completed) - epoch (iso started)) * 1000)
  have ends := epoch_iso_near completed
  have starts := epoch_iso_near started
  have close : |((roundEven ((completed - started) * 1000) : Int) : ℚ) -
      (roundEven ((epoch (iso completed) - epoch (iso started)) * 1000) : Int)| ≤ 2000 := by
    rw [abs_le]
    constructor <;> linarith
  exact_mod_cast close

/-- What `bounded_text` accepts of a text that is required. -/
structure IsText (maximum : Nat) (value : String) : Prop where
  some_ : strip value ≠ ""
  short : (strip value).length ≤ maximum
  clean : hasControl (strip value) = false

theorem boundedText_eq {value text : String} {maximum : Nat} {required : Bool}
    (bounded : boundedText value maximum required = some text) :
    text = strip value ∧ (required = true → text ≠ "") ∧ text.length ≤ maximum ∧ hasControl text = false := by
  unfold boundedText at bounded
  dsimp only at bounded
  split at bounded
  · cases bounded
  · next needed =>
    split at bounded
    · cases bounded
    · next good =>
      cases bounded
      rw [not_or, Bool.not_eq_true] at good
      exact ⟨rfl, fun required empty => needed ⟨required, empty⟩, Nat.le_of_not_lt good.1, good.2⟩

theorem boundedText_of {value : String} {maximum : Nat} {required : Bool}
    (some_ : required = true → strip value ≠ "") (short : (strip value).length ≤ maximum)
    (clean : hasControl (strip value) = false) :
    boundedText value maximum required = some (strip value) := by
  unfold boundedText
  dsimp only
  rw [if_neg fun both => some_ both.1 both.2, if_neg]
  rw [not_or, Bool.not_eq_true]
  exact ⟨Nat.not_lt.mpr short, clean⟩

theorem isText_iff {value : String} {maximum : Nat} :
    IsText maximum value ↔ ∃ text, boundedText value maximum true = some text := by
  constructor
  · intro good
    exact ⟨_, boundedText_of (fun _ => good.some_) good.short good.clean⟩
  · rintro ⟨text, bounded⟩
    obtain ⟨rfl, some_, short, clean⟩ := boundedText_eq bounded
    exact ⟨some_ rfl, short, clean⟩

theorem boundedText_again {value text : String} {maximum : Nat} {required : Bool}
    (bounded : boundedText value maximum required = some text) :
    boundedText text maximum required = some text := by
  obtain ⟨rfl, some_, short, clean⟩ := boundedText_eq bounded
  have again := strip_strip value
  have whole : boundedText (strip value) maximum required = some (strip (strip value)) := by
    refine boundedText_of ?_ ?_ ?_
    · rw [again]
      exact some_
    · rw [again]
      exact short
    · rw [again]
      exact clean
  rw [again] at whole
  exact whole

/-- A text without spaces and control characters is kept as it is. -/
theorem boundedText_plain {text : String} {maximum : Nat} {required : Bool}
    (plain : ∀ char ∈ text.toList, isSpace char = false ∧ 32 ≤ char.toNat)
    (some_ : required = true → text ≠ "") (short : text.length ≤ maximum) :
    boundedText text maximum required = some text := by
  have stripped := strip_plain fun char member => (plain char member).1
  have clean : hasControl text = false := by
    rw [hasControl, any_eq_false]
    intro char member
    have least := (plain char member).2
    simpa using least
  have whole : boundedText text maximum required = some (strip text) := by
    refine boundedText_of ?_ ?_ ?_
    · rw [stripped]
      exact some_
    · rw [stripped]
      exact short
    · rw [stripped]
      exact clean
  rw [stripped] at whole
  exact whole

def noCandidate : Fields :=
  [("status", .text none), ("fingerprint", .text none), ("imageTag", .text none),
    ("currentImageTag", .text none), ("updateRequired", .flag false)]

theorem candidateOf_nil : candidateOf [] = some noCandidate := by decide

theorem candidateOf_none : candidateOf noCandidate = some noCandidate := by decide

theorem candidateOf_normalized {digest : Fields → String} {raw : RawCandidate} {fields : Fields}
    (normalizes : normalizeCandidate digest raw = some fields) : candidateOf fields = none := by
  unfold normalizeCandidate at normalizes
  dsimp only at normalizes
  split at normalizes
  · cases normalizes
  · split at normalizes
    · cases normalizes
    · split at normalizes
      · cases normalizes
      · cases normalizes
        unfold candidateOf
        rw [if_pos]
        exact ⟨cons_ne_nil _ _, by simp [sameKeys, candidateKeys]⟩

theorem readinessOf_none : readinessOf ⟨none, none⟩ = some ⟨none, none⟩ := by decide

variable {settings : Settings} {readiness : Except String Readiness} {job : RestartJob}

theorem certified_candidate (policy : String) (ready : Readiness) :
    (certified policy ready).candidate = ready.candidate ∧
      (ready.candidate = none → (certified policy ready).receiptId = none ∧
        (certified policy ready).receiptSha256 = none) := by
  unfold certified
  dsimp only
  split_ifs with current required ready_
  · exact ⟨rfl, fun _ => ⟨rfl, rfl⟩⟩
  · exact ⟨rfl, fun _ => ⟨rfl, rfl⟩⟩
  · exact ⟨rfl, fun _ => ⟨rfl, rfl⟩⟩
  · refine ⟨rfl, fun none_ => ?_⟩
    rw [none_] at required
    exact absurd rfl required

theorem preflight_candidate : (∀ candidate, (restartUpdatePreflight settings readiness job).candidate = some candidate →
      policyOf settings job = "certified" ∧ settings.updateReadinessEnabled = true ∧
        ∃ ready, readiness = .ok ready ∧ ready.candidate = some candidate) ∧
    ((restartUpdatePreflight settings readiness job).candidate = none →
      (restartUpdatePreflight settings readiness job).receiptId = none ∧
        (restartUpdatePreflight settings readiness job).receiptSha256 = none) := by
  unfold restartUpdatePreflight
  dsimp only
  split_ifs with unknown targeted current automatic required disabled
  iterate 6 exact ⟨fun _ same => (nomatch same), fun _ => ⟨rfl, rfl⟩⟩
  · have certain : policyOf settings job = "certified" := by
      by_contra other
      exact unknown ⟨current, other, automatic⟩
    have enabled : settings.updateReadinessEnabled = true := by simpa using disabled
    split
    · exact ⟨fun _ same => (nomatch same), fun _ => ⟨rfl, rfl⟩⟩
    · next ready =>
      have told := certified_candidate (policyOf settings job) ready
      rw [told.1]
      exact ⟨fun candidate same => ⟨certain, enabled, ready, rfl, same⟩, told.2⟩

/-- The policies of a preflight are among those that are known. -/
theorem preflight_policies : (restartUpdatePreflight settings readiness job).policy = policyOf settings job ∧
      ∀ policy, (restartUpdatePreflight settings readiness job).effectivePolicy = some policy →
        policy = "current" ∨ policy = "certified" := by
  have certain : ∀ ready, (certified (policyOf settings job) ready).policy = policyOf settings job ∧
      ∀ policy, (certified (policyOf settings job) ready).effectivePolicy = some policy →
        policy = "current" ∨ policy = "certified" := by
    intro ready
    unfold certified
    dsimp only
    split_ifs
    all_goals
      refine ⟨rfl, ?_⟩
      rintro _ ⟨⟩
    · exact .inl rfl
    · exact .inl rfl
    · exact .inl rfl
    · exact .inr rfl
  unfold restartUpdatePreflight
  dsimp only
  split_ifs
  iterate 5 exact ⟨rfl, fun _ same => nomatch same⟩
  · refine ⟨rfl, ?_⟩
    rintro _ ⟨⟩
    exact .inl rfl
  · split
    · refine ⟨rfl, ?_⟩
      rintro _ ⟨⟩
      exact .inl rfl
    · exact certain _

def stageWith (value : Option Ran) (required : Bool) : Stage :=
  match value with
  | none => ⟨required, false, !required, 0, none⟩
  | some ran => ⟨required, true, ran.ok, ran.durationMs, ran.returncode⟩

structure Ran.Bounded (ran : Ran) : Prop where
  duration : 0 ≤ ran.durationMs ∧ ran.durationMs ≤ 86400000
  returncode : ∀ code, ran.returncode = some code → -255 ≤ code ∧ code ≤ 255

theorem normalizeStage_with {value : Option Ran} {required : Bool} (bounded : ∀ ran, value = some ran → ran.Bounded) :
    normalizeStage (stageWith value required) = some (stageWith value required) := by
  cases value with
  | none => cases required <;> rfl
  | some ran =>
    obtain ⟨duration, returncode⟩ := bounded ran rfl
    have code : (ran.returncode.any fun code => decide (code < -255 ∨ 255 < code)) = false := by
      cases some_ : ran.returncode with
      | none => rfl
      | some code =>
        have range := returncode code some_
        rw [Option.any_some, decide_eq_false_iff_not]
        omega
    have short : ¬(ran.durationMs < 0 ∨ 86400000 < ran.durationMs) := by omega
    simp only [normalizeStage, stageWith, Bool.true_eq_false, false_and, if_false, short, code, Bool.false_eq_true]

theorem stageFromResult_with {value : Option Ran} {required : Bool} (bounded : ∀ ran, value = some ran → ran.Bounded) :
    stageFromResult value required = some (stageWith value required) := by
  cases value with
  | none => rfl
  | some ran => exact @normalizeStage_with (some ran) required bounded

theorem mapM_isSome {α β : Type} {step : α → Option β} {items : List α} :
    (∃ results, items.mapM step = some results) ↔ ∀ item ∈ items, ∃ result, step item = some result := by
  induction items with
  | nil => exact ⟨fun _ => nofun, fun _ => ⟨[], rfl⟩⟩
  | cons item rest whole =>
    rw [mapM_cons, forall_mem_cons, ← whole]
    constructor
    · rintro ⟨results, same⟩
      obtain ⟨first, found, after⟩ := Option.bind_eq_some_iff.mp same
      obtain ⟨others, rests, -⟩ := Option.bind_eq_some_iff.mp after
      exact ⟨⟨first, found⟩, others, rests⟩
    · rintro ⟨⟨first, found⟩, others, rests⟩
      exact ⟨first :: others, by rw [found, rests]; rfl⟩

/-- What is known of an execution of a job that was scheduled and is due. -/
structure Executed (settings : Settings) (scheduled : Scheduled) (measured : Measured)
    (started completed : ℚ) : Prop where
  scheduled_ : ∃ request, scheduleRestart settings request scheduled.job.id = some scheduled
  id_ : isJob scheduled.job.id = true
  lower : ∀ text ∈ ["restart", "shutdown", "current", "certified", "automatic"],
    settings.lower text = text
  order : started ≤ completed
  day : completed ≤ started + 86400
  due : scheduled.runAt ≤ started
  /-- No stage lasts longer than the execution. -/
  lasted : ∀ name, 0 ≤ measured.durations name ∧
    measured.durations name ≤ roundEven ((completed - started) * 1000)
  /-- The return codes are those that processes have. -/
  codes : ∀ phase code stdout stderr, measured.outcomes.command phase = .exited code stdout stderr →
    -255 ≤ code ∧ code ≤ 255
  recovered : ∀ code, measured.recoveryReturncode = some code → -255 ≤ code ∧ code ≤ 255
  /-- The backup's set is named by the time and the job. -/
  path : ∀ path, measured.outcomes.backup = .ok path → ∃ stamp : String,
    stamp.toList.all Char.isAlphanum = true ∧ stamp.length ≤ 64 ∧
      path = "maintenance/" ++ stamp ++ "-" ++ clip 24 scheduled.job.id
  /-- The candidate is one that readiness evaluated. -/
  evaluated : ∀ ready, measured.outcomes.readiness = .ok ready → ∃ digest raw,
    normalizeCandidate digest raw = some measured.candidate ∧
      ready.candidate = some ⟨some (textOf (get measured.candidate "status")),
        truth (get measured.candidate "updateRequired")⟩

/-- The inputs of `record` for which a receipt is built. -/
structure Recordable (scheduled : Scheduled) (result : Result) : Prop where
  principal : scheduled.principalId = "" ∨ IsText 128 scheduled.principalId
  candidate : ∀ preflight, result.updatePreflight = some preflight → preflight.candidate = none
  warnings : ∀ warning ∈ result.warnings.take 32, IsText 1000 warning

section

variable {scheduled : Scheduled} {measured : Measured} {started completed : ℚ} {result : Result}

theorem ran_bounded (executed : Executed settings scheduled measured started completed)
    (sound : Sound settings measured.outcomes scheduled.job result) (name : StageName) {ran : Ran}
    (ran_ : ranOf scheduled.job measured result name = some ran) : ran.Bounded := by
  have limit := (duration_bounded executed.order executed.day).2
  have duration : ∀ name, 0 ≤ measured.durations name ∧ measured.durations name ≤ 86400000 :=
    fun name => ⟨(executed.lasted name).1, le_trans (executed.lasted name).2 limit⟩
  have zero : (0 : Int) ≤ 0 ∧ (0 : Int) ≤ 86400000 := by decide
  have code : ∀ part, Answered measured.outcomes part → ∀ code, part.returncode = some code →
      -255 ≤ code ∧ code ≤ 255 := by
    rintro part (⟨phase, rfl⟩ | none_) code same
    · cases ran : measured.outcomes.command phase with
      | raised error =>
        rw [ran] at same
        cases same
      | exited returncode stdout stderr =>
        rw [ran] at same
        cases same
        exact executed.codes phase _ stdout stderr ran
    · rw [none_] at same
      cases same
  cases name with
  | preflight =>
    obtain ⟨part, -, rfl⟩ := Option.map_eq_some_iff.mp ran_
    exact ⟨duration _, nofun⟩
  | disconnect =>
    obtain ⟨part, -, rfl⟩ := Option.map_eq_some_iff.mp ran_
    refine ⟨?_, nofun⟩
    split
    · exact duration _
    · exact zero
  | stop =>
    obtain ⟨part, there, rfl⟩ := Option.map_eq_some_iff.mp ran_
    exact ⟨duration _, code part (sound.stop part there)⟩
  | backup =>
    obtain ⟨part, -, rfl⟩ := Option.map_eq_some_iff.mp ran_
    exact ⟨duration _, nofun⟩
  | update =>
    obtain ⟨part, there, rfl⟩ := Option.map_eq_some_iff.mp ran_
    refine ⟨?_, code part (sound.update part there)⟩
    split
    · exact zero
    · exact duration _
  | start =>
    obtain ⟨part, there, rfl⟩ := Option.map_eq_some_iff.mp ran_
    exact ⟨duration _, code part (sound.start part there)⟩
  | online =>
    obtain ⟨part, -, rfl⟩ := Option.map_eq_some_iff.mp ran_
    exact ⟨duration _, nofun⟩
  | recovery =>
    obtain ⟨part, -, rfl⟩ := Option.map_eq_some_iff.mp ran_
    refine ⟨?_, ?_⟩
    · split
      · exact zero
      · exact duration _
    · split
      · exact nofun
      · exact executed.recovered
  | reboot =>
    obtain ⟨part, there, rfl⟩ := Option.map_eq_some_iff.mp ran_
    exact ⟨duration _, code part (sound.reboot part there)⟩

end

end Dash.Maintenance.Receipts
