import Dash.Foundation.Table
import Dash.Python.Plain

/-! The maintenance planner: its policy, its observations of the population, the samples of the candidate
windows, and the status. Values are exact rationals, and a time zone is a fixed offset.
-/

set_option autoImplicit false

namespace Dash.Planner

open Dash.Python Dash.Foundation

inductive Failure where
  | zeroDivision
  | raised (why : Exception)
  deriving DecidableEq

structure Platform extends Runtime Rat where
  /-- `float(text)`; `none` raises. -/
  floatOfText : String → Option Rat
  /-- The seconds a time zone is ahead of UTC; `none` for a zone that is not known. -/
  zoneInfo : String → Option Int
  /-- `_iso(epoch)` -/
  iso : Rat → String

structure Policy where
  timezone : String
  (zone lookbackDays retentionDays horizonDays bucketSeconds slotMinutes durationMinutes : Int)
  (minimumNoticeMinutes minimumSampleDays weekdayWeightingMinimumDays recommendationCount : Int)
  (eligibleStartMinute eligibleEndMinute defaultMinute : Int)
  minimumWindowCoverage : Rat
  deriving DecidableEq

def DEFAULT_POLICY : List (String × Value Rat) :=
  [("schemaVersion", .int 1), ("timezone", .str "America/Regina"), ("lookbackDays", .int 28),
    ("retentionDays", .int 90), ("horizonDays", .int 7), ("bucketSeconds", .int 300),
    ("slotMinutes", .int 30), ("durationMinutes", .int 30), ("eligibleLocalStart", .str "02:00"),
    ("eligibleLocalEnd", .str "09:00"), ("defaultLocalTime", .str "06:00"), ("minimumNoticeMinutes", .int 30),
    ("minimumWindowCoverage", .float (4 / 5)), ("minimumSampleDays", .int 2),
    ("weekdayWeightingMinimumDays", .int 2), ("recommendationCount", .int 8)]

/-- `policy[key]` of the policy laid over the defaults. -/
def settingOf (raw : Value Rat) (key : String) : Value Rat :=
  getOr raw key (((DEFAULT_POLICY.find? fun entry => entry.1 = key).map Prod.snd).getD .none)

def twoDigits (value : Int) : String :=
  if 0 ≤ value ∧ value < 10 then "0" ++ toString value else toString value

def splitColon : List Char → List (List Char)
  | [] => [[]]
  | ':' :: rest => [] :: splitColon rest
  | char :: rest =>
    match splitColon rest with
    | [] => [[char]]
    | part :: others => (char :: part) :: others

/-- `value == 1` -/
def equalsOne : Value Rat → Bool
  | .int value => value = 1
  | .bool value => value
  | .float value => value = 1
  | _ => false

namespace Platform

variable (rt : Platform)

def integer (value : Value Rat) (name : String) (minimum maximum : Int) : Result Int :=
  match rt.int value with
  | .error why =>
    if why.type = .typeError ∨ why.type = .valueError then
      valueError ("maintenance planner " ++ name ++ " must be an integer")
    else .error why
  | .ok value =>
    if minimum ≤ value ∧ value ≤ maximum then .ok value
    else valueError ("maintenance planner " ++ name ++ " must be between " ++ toString minimum ++ " and " ++
      toString maximum)

def clock (value : Value Rat) (name : String) : Result Int :=
  let text := strip (rt.str (rt.orElse value (.str "")))
  match (splitColon text.toList).map fun part => rt.intOfText (String.ofList part) with
  | [some hour, some minute] =>
    if 0 ≤ hour ∧ hour ≤ 23 ∧ 0 ≤ minute ∧ minute ≤ 59 ∧
        text = twoDigits hour ++ ":" ++ twoDigits minute then
      .ok (hour * 60 + minute)
    else valueError ("maintenance planner " ++ name ++ " must be HH:MM")
  | _ => valueError ("maintenance planner " ++ name ++ " must be HH:MM")

/-- `float(value)` -/
def float : Value Rat → Result Rat
  | .float value => .ok value
  | .int value => .ok (value : Rat)
  | .bool value => .ok (if value then 1 else 0)
  | .str text =>
    match rt.floatOfText text with
    | some value => .ok value
    | none => valueError ("could not convert string to float: " ++ rt.quoted text)
  | _ => typeError "float() argument must be a string or a real number"

def unknownKeys (raw : Value Rat) : List String :=
  match raw with
  | .dict entries => (entries.filterMap fun entry =>
      match entry.1 with
      | .str key => if key ∈ DEFAULT_POLICY.map Prod.fst then none else some key
      | _ => none).insertionSort (· ≤ ·)
  | _ => []

/-- `load_policy`, of the text of the file. -/
def loadPolicy (text : String) : Result Policy := do
  let raw ← rt.toRuntime.loads text
  if !raw.isDict || !equalsOne (raw.get "schemaVersion") then
    valueError "maintenance planner policy schemaVersion must be 1" else
  if unknownKeys raw ≠ [] then
    valueError ("maintenance planner policy has unknown keys: " ++
      rt.repr (.list ((unknownKeys raw).map Value.str))) else
  let setting := settingOf raw
  let timezone := rt.str (setting "timezone")
  match rt.zoneInfo timezone with
  | none => valueError "maintenance planner timezone is unknown"
  | some zone => do
    let lookbackDays ← rt.integer (setting "lookbackDays") "lookbackDays" 7 365
    let retentionDays ← rt.integer (setting "retentionDays") "retentionDays" 30 730
    let horizonDays ← rt.integer (setting "horizonDays") "horizonDays" 1 30
    let bucketSeconds ← rt.integer (setting "bucketSeconds") "bucketSeconds" 60 3600
    let slotMinutes ← rt.integer (setting "slotMinutes") "slotMinutes" 5 180
    let durationMinutes ← rt.integer (setting "durationMinutes") "durationMinutes" 5 360
    let minimumNoticeMinutes ← rt.integer (setting "minimumNoticeMinutes") "minimumNoticeMinutes" 1 10080
    let minimumSampleDays ← rt.integer (setting "minimumSampleDays") "minimumSampleDays" 1 60
    let weekdayWeightingMinimumDays ←
      rt.integer (setting "weekdayWeightingMinimumDays") "weekdayWeightingMinimumDays" 1 20
    let recommendationCount ← rt.integer (setting "recommendationCount") "recommendationCount" 1 50
    if 86400 % bucketSeconds ≠ 0 then
      valueError "maintenance planner bucketSeconds must divide one day" else
    if durationMinutes % (bucketSeconds / 60) ≠ 0 then
      valueError "maintenance planner durationMinutes must align to bucketSeconds" else
    let eligibleStartMinute ← rt.clock (setting "eligibleLocalStart") "eligibleLocalStart"
    let eligibleEndMinute ← rt.clock (setting "eligibleLocalEnd") "eligibleLocalEnd"
    let defaultMinute ← rt.clock (setting "defaultLocalTime") "defaultLocalTime"
    if eligibleEndMinute ≤ eligibleStartMinute then
      valueError "maintenance planner eligible window must not cross midnight" else
    if eligibleEndMinute < eligibleStartMinute + durationMinutes then
      valueError "maintenance planner eligible window is shorter than durationMinutes" else
    if ¬ (eligibleStartMinute ≤ defaultMinute ∧ defaultMinute ≤ eligibleEndMinute - durationMinutes) then
      valueError "maintenance planner defaultLocalTime must fit inside the eligible window" else
    let coverage ← rt.float (setting "minimumWindowCoverage")
    if ¬ (1 / 2 ≤ coverage ∧ coverage ≤ 1) then
      valueError "maintenance planner minimumWindowCoverage must be between 0.5 and 1.0" else
    .ok
      { timezone := timezone
        zone := zone
        lookbackDays := lookbackDays
        retentionDays := retentionDays
        horizonDays := horizonDays
        bucketSeconds := bucketSeconds
        slotMinutes := slotMinutes
        durationMinutes := durationMinutes
        minimumNoticeMinutes := minimumNoticeMinutes
        minimumSampleDays := minimumSampleDays
        weekdayWeightingMinimumDays := weekdayWeightingMinimumDays
        recommendationCount := recommendationCount
        eligibleStartMinute := eligibleStartMinute
        eligibleEndMinute := eligibleEndMinute
        defaultMinute := defaultMinute
        minimumWindowCoverage := coverage }

end Platform

/-- A row of the observations; its bucket is the primary key. -/
structure Observation where
  (bucketStart samples playerSum playerMax mapSum lastObservedAt : Int)

structure Local where
  (day minute : Int)
  deriving DecidableEq

/-- `weekday()`: the first of January 1970 was a Thursday. -/
def weekday (day : Int) : Int := (day + 3) % 7

structure Sample where
  (date weekday : Int)
  mean : Rat
  peak : Int
  occupied : Bool
  coverage : Rat

inductive Scope where
  | sameWeekday | allDays
  deriving DecidableEq

structure Score where
  (startAt endAt : String)
  localStart : Local
  durationMinutes : Int
  (expectedConcurrentPlayers expectedPlayerMinutes p95PeakPlayers occupiedProbability : Rat)
  sampleDays : Nat
  meanCoverage : Rat
  evidenceScope : Scope
  riskScore : Rat
  measured : Bool
  deriving DecidableEq

structure Status where
  (ok measuredPresence : Bool)
  (confidence generatedAt timezone : String)
  observationBuckets : Nat
  (firstObservationAt lastObservationAt : Option String)
  minimumSampleDays : Int
  recommendation : Option Score
  recommendations : List Score
  baseline : Option Score
  (expectedPlayerMinutesSaved expectedImpactReduction : Option Rat)
  deriving DecidableEq

abbrev Outcome (α : Type) : Type := Except Failure α

def divide (first second : Rat) : Outcome Rat := if second = 0 then .error .zeroDivision else .ok (first / second)

/-- `on conflict(bucket_start) do update` -/
def Observation.add (players maps epoch : Int) (row : Observation) : Observation :=
  { row with
    samples := row.samples + 1
    playerSum := row.playerSum + players
    playerMax := max row.playerMax players
    mapSum := row.mapSum + maps
    lastObservedAt := max row.lastObservedAt epoch }

def observe (bucket players maps epoch : Int) (rows : List Observation) : List Observation :=
  if bucket ∈ rows.map Observation.bucketStart then
    update Observation.bucketStart bucket (Observation.add players maps epoch) rows
  else rows ++ [⟨bucket, 1, players, players, maps, epoch⟩]

namespace Platform

variable (rt : Platform)

/-- `record`; a call that raises changes nothing. -/
def record (policy : Policy) (playerCount mapCount : Value Rat) (epoch : Int) (rows : List Observation) :
    Result (List Observation) := do
  let players ← rt.integer playerCount "player count" 0 100000
  let maps ← rt.integer mapCount "map count" 0 10000
  let bucket := epoch - epoch % policy.bucketSeconds
  let cutoff := epoch - policy.retentionDays * 86400
  .ok ((observe bucket players maps epoch rows).filter fun row => !decide (row.bucketStart < cutoff))

structure Reading where
  (playerCount mapCount : Value Rat)
  epoch : Int

/-- The table after these calls of `record`. -/
def recorded (policy : Policy) (readings : List Reading) : List Observation :=
  readings.foldl (fun rows reading =>
    match rt.record policy reading.playerCount reading.mapCount reading.epoch rows with
    | .ok after => after
    | .error _ => rows) []

end Platform

/-- `_rows` -/
def rowsSince (cutoff : Rat) (table : List Observation) : List Observation :=
  (table.filter fun row => decide (truncated cutoff ≤ row.bucketStart)).insertionSort
    fun first second => first.bucketStart ≤ second.bucketStart

def localOf (policy : Policy) (seconds : Int) : Local where
  day := (seconds + policy.zone) / 86400
  minute := (seconds + policy.zone) % 86400 / 60

def minutes (policy : Policy) : List Int :=
  let latest := policy.eligibleEndMinute - policy.durationMinutes
  (List.range ((latest - policy.eligibleStartMinute) / policy.slotMinutes + 1).toNat).map
    fun step => policy.eligibleStartMinute + step * policy.slotMinutes

def epochOf (policy : Policy) (start : Local) : Int := start.day * 86400 + start.minute * 60 - policy.zone

/-- `_candidate_windows`, by their local times. -/
def candidateWindows (policy : Policy) (now : Rat) : List Local :=
  let earliest := now + policy.minimumNoticeMinutes * 60
  let startDate := (earliest + policy.zone).floor / 86400
  (List.range (policy.horizonDays + 1).toNat).flatMap fun offset =>
    ((minutes policy).map fun minute => (⟨startDate + offset, minute⟩ : Local)).filter
      fun start => decide (earliest ≤ epochOf policy start)

def inside (policy : Policy) (startMinute : Int) (row : Observation) : Bool :=
  decide (startMinute ≤ (localOf policy row.bucketStart).minute) &&
    decide ((localOf policy row.bucketStart).minute < startMinute + policy.durationMinutes)

def dayOf (policy : Policy) (row : Observation) : Int := (localOf policy row.bucketStart).day

def expectedBuckets (policy : Policy) : Int := policy.durationMinutes * 60 / policy.bucketSeconds

def minimumBuckets (policy : Policy) : Int := (expectedBuckets policy * policy.minimumWindowCoverage).ceil

/-- `unique_buckets.values()`: of rows of one bucket, the last. -/
def uniqueBuckets (entries : List Observation) : List Observation :=
  upsertAll Observation.bucketStart entries []

def sampleOf (policy : Policy) (day : Int) (entries : List Observation) : Outcome (Option Sample) := do
  let unique := uniqueBuckets entries
  if (unique.length : Int) < minimumBuckets policy then .ok none
  else
    let averages ← unique.mapM fun row => divide row.playerSum row.samples
    let mean ← divide averages.sum averages.length
    let share ← divide unique.length (expectedBuckets policy)
    .ok (some
      { date := day
        weekday := weekday day
        mean := mean
        peak := (unique.map Observation.playerMax).foldl max 0
        occupied := unique.any fun row => decide (0 < row.playerMax)
        coverage := min 1 share })

def allSamples (policy : Policy) (startMinute : Int) (rows : List Observation) : Outcome (List Sample) := do
  let within := rows.filter (inside policy startMinute)
  let days := (within.map (dayOf policy)).eraseDups
  let samples ← days.mapM fun day => sampleOf policy day (within.filter fun row => dayOf policy row = day)
  .ok samples.reduceOption

def daySamples (policy : Policy) (rows : List Observation) (candidate : Local) : Outcome (List Sample × Scope) := do
  let samples ← allSamples policy candidate.minute rows
  let same := samples.filter fun sample => sample.weekday = weekday candidate.day
  .ok (if policy.weekdayWeightingMinimumDays ≤ same.length then (same, .sameWeekday) else (samples, .allDays))

def percentile (values : List Rat) (share : Rat) : Rat :=
  let ordered := values.insertionSort (· ≤ ·)
  ordered.getD (max 0 (min (ordered.length - 1) ((share * ordered.length).ceil - 1)) : Int).toNat 0

def perSample (value : Rat) (samples : List Sample) : Outcome Rat :=
  if samples = [] then .ok 0 else divide value samples.length

namespace Platform

variable (rt : Platform)

def score (policy : Policy) (rows : List Observation) (candidate : Local) : Outcome Score := do
  let (samples, scope) ← daySamples policy rows candidate
  let meanPlayers ← perSample (samples.map Sample.mean).sum samples
  let p95Peak := percentile (samples.map fun sample => (sample.peak : Rat)) (95 / 100)
  let occupied ← perSample (samples.countP Sample.occupied) samples
  let playerMinutes := meanPlayers * policy.durationMinutes
  let risk := playerMinutes + p95Peak * 2 + occupied * 10
  let coverage ← perSample (samples.map Sample.coverage).sum samples
  let epoch := epochOf policy candidate
  .ok
    { startAt := rt.iso epoch
      endAt := rt.iso (epoch + policy.durationMinutes * 60)
      localStart := candidate
      durationMinutes := policy.durationMinutes
      expectedConcurrentPlayers := roundTo 3 meanPlayers
      expectedPlayerMinutes := roundTo 3 playerMinutes
      p95PeakPlayers := roundTo 3 p95Peak
      occupiedProbability := roundTo 4 occupied
      sampleDays := samples.length
      meanCoverage := roundTo 4 coverage
      evidenceScope := scope
      riskScore := roundTo 4 risk
      measured := decide (policy.minimumSampleDays ≤ samples.length) }

def comparison (best baseline : Option Score) (measured : Bool) : Outcome (Option Rat × Option Rat) :=
  match best, baseline with
  | some best, some baseline =>
    if measured then do
      let saved := max 0 (baseline.expectedPlayerMinutes - best.expectedPlayerMinutes)
      let reduction ← if baseline.expectedPlayerMinutes ≤ 0 then .ok 0
        else divide saved baseline.expectedPlayerMinutes
      .ok (some (roundTo 3 saved), some (roundTo 4 reduction))
    else .ok (none, none)
  | _, _ => .ok (none, none)

def status (policy : Policy) (table : List Observation) (now : Rat) : Outcome Status := do
  let rows := rowsSince (now - policy.lookbackDays * 86400) table
  let scored ← (candidateWindows policy now).mapM (rt.score policy rows)
  let measured := (scored.filter Score.measured).insertionSort fun first second =>
    first.riskScore < second.riskScore ∨ (first.riskScore = second.riskScore ∧ first.startAt ≤ second.startAt)
  let fallback := (scored.find? fun row => row.localStart.minute = policy.defaultMinute).or scored.head?
  let recommendations := if measured = [] then fallback.toList
    else measured.take policy.recommendationCount.toNat
  let best := recommendations.head?
  let (saved, reduction) ← comparison best fallback (measured ≠ [])
  .ok
    { ok := best.isSome
      measuredPresence := measured ≠ []
      confidence := if measured = [] then "low-learning"
        else if best.any (fun row => decide (4 ≤ row.sampleDays)) then "high" else "moderate"
      generatedAt := rt.iso now
      timezone := policy.timezone
      observationBuckets := rows.length
      firstObservationAt := rows.head?.map fun row => rt.iso row.bucketStart
      lastObservationAt := rows.getLast?.map fun row => rt.iso row.lastObservedAt
      minimumSampleDays := policy.minimumSampleDays
      recommendation := best
      recommendations := recommendations
      baseline := fallback
      expectedPlayerMinutesSaved := saved
      expectedImpactReduction := reduction }

end Platform

end Dash.Planner
