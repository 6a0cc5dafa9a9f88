import Dash.Foundation.Transaction
import Dash.Python.Value

/-! Validation of arguments, rewards and the community configuration. -/

set_option autoImplicit false

namespace Dash.Community

open Dash.Python

/-- The interpreter, its floats, `hashlib.sha256` of UTF-8 text, and how SQLite writes
a real number in a text column; NaN becomes null. -/
structure Platform (F : Type) extends Runtime F where
  floats : FloatOps F
  sha256 : String → String
  realText : F → Option String

def MAX_LEDGER_AMOUNT : Int := 1000000000

def MAX_PURCHASE_QUANTITY : Int := 100

def MAX_REWARDS : Nat := 100

def ZERO_HASH : String := String.ofList (List.replicate 64 '0')

structure Reward where
  templateId : String
  (count qualityLevel : Int)
  deriving DecidableEq

structure TrackReward where
  id : String
  xp : Int
  deriving DecidableEq

structure EngagementReward where
  credits : Int
  items : List Reward
  track : Option TrackReward
  deriving DecidableEq

structure Tier where
  mark : Int
  reward : EngagementReward
  deriving DecidableEq

/-- The rows of a section, their marks increasing from above `floor`. -/
def Ladder (floor : Int) : Type :=
  { rows : List Tier // rows.Pairwise (fun first second => first.mark < second.mark) ∧
      ∀ row ∈ rows, floor < row.mark }

structure HourlyPolicy where
  enabled : Bool
  (intervalSeconds maxRewardsPerSession : Int)
  tiers : Ladder 0

structure DailyPolicy where
  (enabled repeatLast : Bool)
  tiers : Ladder 0

structure WeeklyPolicy where
  enabled : Bool
  thresholds : Ladder 0

structure EngagementPolicy (F : Type) where
  enabled : Bool
  maxObservationGapSeconds : Int
  (minimumMovementDistance coordinatePrecision : F)
  movementGraceSeconds : Int
  hourly : HourlyPolicy
  daily : DailyPolicy
  weekly : WeeklyPolicy

variable {F : Type}

def Reward.toValue (reward : Reward) : Value F :=
  .object [("type", .str "item"), ("templateId", .str reward.templateId),
    ("count", .int reward.count), ("qualityLevel", .int reward.qualityLevel)]

def rewardsValue (rewards : List Reward) : Value F := .list (rewards.map Reward.toValue)

def EngagementReward.toValue (reward : EngagementReward) : Value F :=
  .object [("credits", .int reward.credits), ("items", rewardsValue reward.items), ("track", match reward.track with
      | some track => .object [("id", .str track.id), ("xp", .int track.xp)]
      | none => .none)]

namespace Platform

variable (rt : Platform F)

def canonical (value : Value F) : Result String := rt.dumps true value

def positiveInt (value : Value F) (field : String) (maximum : Int) : Result Int :=
  match rt.int value with
  | .ok parsed =>
    if parsed ≤ 0 ∨ maximum < parsed then
      valueError (field ++ " must be between 1 and " ++ toString maximum)
    else .ok parsed
  | .error why =>
    if why.type = .typeError ∨ why.type = .valueError then
      valueError (field ++ " must be an integer")
    else .error why

theorem positiveInt_ok {value : Value F} {field : String} {maximum number : Int}
    (accepted : rt.positiveInt value field maximum = .ok number) :
    0 < number ∧ number ≤ maximum := by
  unfold positiveInt at accepted
  split at accepted
  · split at accepted
    · cases accepted
    · cases accepted
      omega
  · split at accepted <;> cases accepted

def identifier (value : Value F) (field : String) (maximum : Nat) : Result String :=
  let text := strip (rt.str (rt.orElse value (.str "")))
  if text = "" ∨ maximum < text.length ∨ hasControl text = true then
    valueError (field ++ " must be 1-" ++ toString maximum ++ " printable characters")
  else .ok text

theorem identifier_ok {value : Value F} {field : String} {maximum : Nat} {name : String}
    (accepted : rt.identifier value field maximum = .ok name) :
    name = strip (rt.str (rt.orElse value (.str ""))) ∧ name ≠ "" := by
  unfold identifier at accepted
  simp only at accepted
  split at accepted
  · cases accepted
  · rename_i plain
    cases accepted
    exact ⟨rfl, fun empty => plain (.inl empty)⟩

theorem identifier_str {text field : String} {maximum : Nat} {name : String}
    (accepted : rt.identifier (.str text) field maximum = .ok name) : name = strip text := by
  rw [(rt.identifier_ok accepted).1]
  by_cases empty : text = "" <;> simp [Runtime.orElse, Runtime.truthy, Runtime.str, empty]

def rewardRow (row : Value F) : Result Reward :=
  if row.isDict then do
    let kind := rt.lower (strip (rt.str (rt.orElse (row.get "type") (.str "item"))))
    if kind ≠ "item" then valueError "only item delivery is currently supported" else
    let templateId ← rt.identifier (getOr row "templateId" (row.get "template_id")) "templateId" 256
    let count ← rt.positiveInt (getOr row "count" (getOr row "stackSize" (.int 1))) "count" 1000000
    let quality ← rt.int (getOr row "qualityLevel" (getOr row "quality_level" (.int 0)))
    if quality < 0 ∨ 100 < quality then valueError "qualityLevel must be between 0 and 100" else
    .ok ⟨templateId, count, quality⟩
  else valueError "each reward must be an object"

def rewardRows : List (Value F) → Result (List Reward)
  | [] => .ok []
  | row :: rest => do
    let first ← rt.rewardRow row
    let others ← rewardRows rest
    .ok (first :: others)

def rewards (value : Value F) : Result (List Reward) :=
  match value with
  | .list rows =>
    if rows = [] ∨ MAX_REWARDS < rows.length then
      valueError ("rewards must contain 1-" ++ toString MAX_REWARDS ++ " entries")
    else rt.rewardRows rows
  | _ => valueError ("rewards must contain 1-" ++ toString MAX_REWARDS ++ " entries")

def amount (value : Value F) (name : String) : Result Int :=
  rt.int (rt.orElse (getOr value name (.int 0)) (.int 0))

def itemRewards (items : Value F) : Result (List Reward) :=
  if rt.truthy items then rt.rewards items else .ok []

def trackReward (track : Value F) : Result (Option TrackReward) := do
  if !track.isDict then valueError "engagement reward track must be an object" else
  let trackId := strip (rt.str (rt.orElse (track.get "id") (.str "")))
  let trackXp ← rt.amount track "xp"
  if trackXp < 0 ∨ MAX_LEDGER_AMOUNT < trackXp then
    valueError "engagement reward track XP is outside the supported range"
  else if (trackId ≠ "") ≠ (trackXp ≠ 0) then
    valueError "engagement reward track requires both id and positive xp"
  else if trackId = "" then .ok none
  else
    let trackId ← rt.identifier (.str trackId) "engagement reward track id" 64
    .ok (some ⟨trackId, trackXp⟩)

def engagementReward (value : Value F) : Result EngagementReward := do
  if !value.isDict then valueError "engagement reward must be an object" else
  let credits ← rt.amount value "credits"
  if credits < 0 ∨ MAX_LEDGER_AMOUNT < credits then
    valueError "engagement reward credits are outside the supported range"
  else
    let items ← rt.itemRewards (rt.orElse (value.get "items") (.list []))
    let track ← rt.trackReward (rt.orElse (value.get "track") (.dict []))
    if credits = 0 ∧ items = [] ∧ track = none then
      valueError "engagement reward must grant credits, track XP, or items"
    else .ok ⟨credits, items, track⟩

/-- What a `for` loop over the value visits. -/
def iterate : Value F → Result (List (Value F))
  | .list items => .ok items
  | .str text => .ok (text.toList.map fun char => .str (String.singleton char))
  | .dict entries => .ok (entries.map fun entry =>
      match entry.1 with
      | .none => .none
      | .bool value => .bool value
      | .int value => .int value
      | .float value => .float value
      | .str value => .str value)
  | _ => typeError "object is not iterable"

structure Section where
  (rows key field : String)
  maximum : Int

def hourlySection : Section := ⟨"hourly reward tiers", "fromHour", "hourly fromHour", 1000⟩

def dailySection : Section := ⟨"daily reward tiers", "day", "daily day", 10000⟩

def weeklySection : Section :=
  ⟨"weekly reward thresholds", "activeSeconds", "weekly activeSeconds", 604800⟩

def readTiers (kind : Section) : (previous : Int) → List (Value F) → Result (Ladder previous)
  | _, [] => .ok ⟨[], .nil, fun _ member => absurd member List.not_mem_nil⟩
  | previous, row :: rest =>
    if !row.isDict then valueError (kind.rows ++ " must be objects")
    else do
      let mark ← rt.positiveInt (row.get kind.key) kind.field kind.maximum
      if rising : previous < mark then
        let reward ← rt.engagementReward (row.get "reward")
        let others ← readTiers kind mark rest
        .ok ⟨⟨mark, reward⟩ :: others.val,
          .cons (fun tier member => others.property.2 tier member) others.property.1,
          fun tier member => by
            rcases List.mem_cons.mp member with same | later
            · exact same ▸ rising
            · exact rising.trans (others.property.2 tier later)⟩
      else valueError (kind.rows ++ " must have increasing " ++ kind.key ++ " values")

def sectionOf (raw : Value F) (name : String) : Result (Value F) :=
  let value := rt.orElse (raw.get name) (.dict [])
  if value.isDict then .ok value
  else valueError ("engagementRewards." ++ name ++ " must be an object")

def flag (value : Value F) (name : String) (other : Bool) : Bool :=
  rt.truthy (getOr value name (.bool other))

/-- `max(low, min(int(value.get(name, other)), high))` -/
def boundedInt (value : Value F) (name : String) (other low high : Int) : Result Int := do
  let parsed ← rt.int (getOr value name (.int other))
  .ok (max low (min parsed high))

/-- `float(value)` -/
def float (value : Value F) : Result F :=
  match value with
  | .float value => .ok value
  | .int value => .ok (rt.floats.ofInt value)
  | .bool value => .ok (rt.floats.ofInt (if value then 1 else 0))
  | .str text =>
    match rt.floats.ofText text with
    | some value => .ok value
    | none => valueError ("could not convert string to float: " ++ rt.quoted text)
  | _ => typeError "float() argument must be a string or a real number"

def boundedFloat (value : Value F) (name : String) (other low high : Int) : Result F := do
  let parsed ← rt.float (getOr value name (.float (rt.floats.ofInt other)))
  .ok (rt.floats.max (rt.floats.ofInt low) (rt.floats.min parsed (rt.floats.ofInt high)))

def tiersOf (kind : Section) (value : Value F) (name : String) : Result (Ladder 0) := do
  let rows ← iterate (rt.orElse (value.get name) (.list []))
  rt.readTiers kind 0 rows

def hourlyPolicy (raw : Value F) : Result HourlyPolicy := do
  let hourly ← rt.sectionOf raw "hourly"
  let tiers ← rt.tiersOf hourlySection hourly "tiers"
  let interval ← rt.positiveInt (getOr hourly "intervalSeconds" (.int 3600)) "hourly intervalSeconds" 86400
  let most ← rt.boundedInt hourly "maxRewardsPerSession" 8 0 1000
  .ok ⟨rt.flag hourly "enabled" false, interval, most, tiers⟩

def dailyPolicy (raw : Value F) : Result DailyPolicy := do
  let daily ← rt.sectionOf raw "daily"
  let tiers ← rt.tiersOf dailySection daily "tiers"
  .ok ⟨rt.flag daily "enabled" false, rt.flag daily "repeatLast" false, tiers⟩

def weeklyPolicy (raw : Value F) : Result WeeklyPolicy := do
  let weekly ← rt.sectionOf raw "weekly"
  let thresholds ← rt.tiersOf weeklySection weekly "thresholds"
  .ok ⟨rt.flag weekly "enabled" false, thresholds⟩

def engagementConfig (config : Value F) : Result (EngagementPolicy F) := do
  let raw := rt.orElse (config.get "engagementRewards") (.dict [])
  if !raw.isDict then valueError "engagementRewards must be an object" else
  let gap ← rt.boundedInt raw "maxObservationGapSeconds" 120 1 3600
  let distance ← rt.boundedFloat raw "minimumMovementDistance" 100 0 1000000
  let precision ← rt.boundedFloat raw "coordinatePrecision" 10 1 100000
  let grace ← rt.boundedInt raw "movementGraceSeconds" 120 0 3600
  let hourly ← rt.hourlyPolicy raw
  let daily ← rt.dailyPolicy raw
  let weekly ← rt.weeklyPolicy raw
  if hourly.enabled ∧ hourly.tiers.val = [] then
    valueError "enabled hourly engagement rewards require tiers"
  else if daily.enabled ∧ daily.tiers.val = [] then
    valueError "enabled daily engagement rewards require tiers"
  else if weekly.enabled ∧ weekly.thresholds.val = [] then
    valueError "enabled weekly engagement rewards require thresholds"
  else .ok ⟨rt.flag raw "enabled" false, gap, distance, precision, grace, hourly, daily, weekly⟩

def defaultConfig : Value F :=
  .object [("version", .int 1), ("enabled", .bool false),
    ("currency", .object [("name", .str "Community Credits"), ("symbol", .str "CC")]),
    ("offers", .list []), ("tracks", .list [])]

/-- `value.get(name, [])` when it is a list. -/
def listOf (value : Value F) (name : String) : Option (List (Value F)) :=
  match getOr value name (.list []) with
  | .list items => some items
  | _ => none

def configuredTracks (tracks : List (Value F)) : List String :=
  (tracks.filter fun row => row.isDict && rt.flag row "enabled" true).map
    fun row => strip (rt.str (rt.orElse (row.get "id") (.str "")))

def engagementTracks (policy : EngagementPolicy F) : List String :=
  (policy.hourly.tiers.val ++ policy.daily.tiers.val ++ policy.weekly.thresholds.val).filterMap
    fun row => row.reward.track.map TrackReward.id

/-- The configuration with its offers and tracks; `none` is a missing file. -/
def loadConfig (file : Option String) : Result (Value F × List (Value F) × List (Value F)) :=
  match file with
  | none => .ok (defaultConfig, [], [])
  | some text => do
    let value ← rt.loads text
    if !value.isDict then valueError "community rewards config must be a version 1 object" else
    let version ← rt.int (getOr value "version" (.int 0))
    if version ≠ 1 then valueError "community rewards config must be a version 1 object" else
    match listOf value "offers", listOf value "tracks" with
    | some offers, some tracks => do
      let engagement ← rt.engagementConfig value
      let missing := (engagementTracks engagement).filter
        fun track => track ∉ rt.configuredTracks tracks
      if missing ≠ [] then
        valueError ("engagement rewards reference unavailable tracks: " ++
          join ", " (missing.dedup.insertionSort (· ≤ ·)))
      else .ok (value, offers, tracks)
    | _, _ => valueError "offers and tracks must be arrays"

end Platform

end Dash.Community
