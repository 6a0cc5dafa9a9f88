import Dash.Community.Grants
import Dash.Python.Plain

/-! Engagement: movement-proven activity and the daily, weekly and hourly rewards; and the operations of the
store, with a platform without float arithmetic to run them on concrete calls.

One observation first decides how far it advances the checkpoint (`advance`), then records the day, the
week and the session it was active in, each of which may grant rewards.
-/

set_option autoImplicit false

namespace Dash.Community

open Dash.Python Dash.Foundation

variable {F : Type}

/-! The primary and unique keys of the tables. -/

def EngagementDay.key (row : EngagementDay) : Int × Int := (row.duneAccountId, row.day)

def EngagementWeek.key (row : EngagementWeek) : Int × Int × Int := (row.duneAccountId, row.week)

def EngagementClaim.key (row : EngagementClaim) : Int × RewardKind × Period × Int :=
  (row.duneAccountId, row.kind, row.periodKey, row.tier)

def Db.engagement? (db : Db F) (account : Int) : Option (EngagementCheckpoint F) :=
  db.engagementCheckpoints.find? fun row => row.duneAccountId = account

def Db.appendEngagement (db : Db F) (row : EngagementCheckpoint F) : Db F :=
  { db with engagementCheckpoints := db.engagementCheckpoints ++ [row] }

def Db.setEngagement (db : Db F) (row : EngagementCheckpoint F) : Db F :=
  { db with
    engagementCheckpoints := update EngagementCheckpoint.duneAccountId row.duneAccountId
      (fun _ => row) db.engagementCheckpoints }

def Db.day? (db : Db F) (account date : Int) : Option EngagementDay :=
  db.engagementDays.find? fun row => row.key = (account, date)

def Db.streak (db : Db F) (account date : Int) : Int :=
  ((db.day? account date).map EngagementDay.streak).getD 0

def Db.appendDay (db : Db F) (row : EngagementDay) : Db F :=
  { db with engagementDays := db.engagementDays ++ [row] }

def Db.extendDay (db : Db F) (account date seconds observed : Int) : Db F :=
  { db with
    engagementDays := update EngagementDay.key (account, date)
      (fun row => { row with
        activeSeconds := row.activeSeconds + seconds, lastActivityAt := observed })
      db.engagementDays }

def Db.week? (db : Db F) (account : Int) (week : Int × Int) : Option EngagementWeek :=
  db.engagementWeeks.find? fun row => row.key = (account, week)

def Db.weekSeconds (db : Db F) (account : Int) (week : Int × Int) : Int :=
  ((db.week? account week).map EngagementWeek.activeSeconds).getD 0

def Db.appendWeek (db : Db F) (row : EngagementWeek) : Db F :=
  { db with engagementWeeks := db.engagementWeeks ++ [row] }

def Db.setWeek (db : Db F) (account : Int) (week : Int × Int) (seconds observed : Int) : Db F :=
  { db with
    engagementWeeks := update EngagementWeek.key (account, week)
      (fun row => { row with activeSeconds := seconds, lastActivityAt := observed })
      db.engagementWeeks }

def Db.claim? (db : Db F) (account : Int) (kind : RewardKind) (period : Period) (tier : Int) :
    Option EngagementClaim :=
  db.engagementClaims.find? fun row => row.key = (account, kind, period, tier)

def Db.appendClaim (db : Db F) (row : EngagementClaim) : Db F :=
  { db with engagementClaims := db.engagementClaims ++ [row] }

def tierFor (rows : List Tier) (value : Int) : Option Tier :=
  (rows.takeWhile fun row => row.mark ≤ value).getLast?

def unknownLocation : Location F := ⟨none, none, none, none, none⟩

structure Advance (F : Type) where
  moved : Bool
  distance : Option F
  lastMovementAt : Option Int
  active : Bool
  activeSeconds : Int
  sessionStarted : Option Int
  (sessionSeconds rewardedHours : Int)

namespace Platform

variable (rt : Platform F)

def coordinate (value : Value F) (precision : F) : Result (Option F) :=
  if value.isBlank then .ok none
  else do
    let parsed ← rt.float value
    let steps ← rt.floats.round (rt.floats.div parsed precision)
    .ok (some (rt.floats.mul (rt.floats.ofInt steps) precision))

def partitionId (value : Value F) : Result (Option Int) :=
  if value.isBlank then .ok none else (rt.int value).map some

def location (value : Value F) (precision : F) : Result (Location F) :=
  if !value.isDict then .ok unknownLocation
  else do
    let map := strip (rt.str (rt.orElse (value.get "map") (.str "")))
    let partitionId ← rt.partitionId (getOr value "partitionId" (value.get "partition_id"))
    let x ← rt.coordinate (value.get "x") precision
    let y ← rt.coordinate (value.get "y") precision
    let z ← rt.coordinate (value.get "z") precision
    .ok ⟨if map = "" then none else some map, partitionId, x, y, z⟩

def movementProven (previous current : Location F) (minimumDistance : F) : Result (Bool × Option F) :=
  match previous.map, current.map with
  | some before, some after =>
    if before ≠ after ∨ previous.partitionId ≠ current.partitionId then .ok (true, none)
    else
      match previous.x, current.x, previous.y, current.y, previous.z, current.z with
      | some x₀, some x₁, some y₀, some y₁, some z₀, some z₁ => do
        let x ← rt.floats.square (rt.floats.sub x₁ x₀)
        let y ← rt.floats.square (rt.floats.sub y₁ y₀)
        let z ← rt.floats.square (rt.floats.sub z₁ z₀)
        let distance := rt.floats.root (rt.floats.sum [x, y, z])
        .ok (rt.floats.lessEq minimumDistance distance, some distance)
      | _, _, _, _, _, _ => .ok (false, none)
  | _, _ => .ok (false, none)

/-- What a later observation makes of the stored checkpoint. -/
def advance (policy : EngagementPolicy F) (row : EngagementCheckpoint F) (online : Bool)
    (observed : Int) (current : Location F) : Result (Advance F) := do
  let (moved, distance) ← rt.movementProven row.location current policy.minimumMovementDistance
  let lastMovementAt := if moved then some observed else row.lastMovementAt
  let elapsedRaw := observed - row.observedAt
  let elapsed := max 0 (min elapsedRaw policy.maxObservationGapSeconds)
  let continuous := online && row.wasOnline && decide (elapsedRaw ≤ policy.maxObservationGapSeconds)
  let recent := lastMovementAt.any fun at_ =>
    decide (at_ ≠ 0) && decide (observed - at_ ≤ policy.movementGraceSeconds)
  let active := continuous && recent
  let activeSeconds := if active then elapsed else 0
  .ok {
    moved := moved
    distance := distance
    lastMovementAt := lastMovementAt
    active := active
    activeSeconds := activeSeconds
    sessionStarted :=
      if continuous then row.sessionStartedAt else if online then some observed else none
    sessionSeconds := (if continuous then row.sessionActiveSeconds else 0) + activeSeconds
    rewardedHours := if continuous then row.rewardedHours else 0 }

def creditReward (account : Int) (kind : RewardKind) (period : Period) (tier credits : Int)
    (source : String) : Action F (Option LedgerEntry) :=
  if credits = 0 then pure none else do
    let entry ← rt.appendLedger account credits (.str ("engagement-" ++ kind.text)) (.str source)
      (.object [("periodKey", .str period.text), ("tier", .int tier)])
    pure (some entry)

def progressReward (account : Int) (track : Option TrackReward) (source : String) : Action F (Value F) :=
  match track with
  | some track => rt.addTrackXp account (.str track.id) (.int track.xp) (.str source)
  | none => pure .none

def deliverReward (account : Int) (kind : RewardKind) (items : List Reward) (source : String) :
    Action F (Option String) :=
  if items = [] then pure none else do
    let deliveryId := (← Action.uuid4).text
    let itemsJson ← Transaction.lift (rt.canonical (rewardsValue items))
    let created ← Action.now
    let updated ← Action.now
    insertDelivery (.fresh deliveryId (.engagement kind) source account itemsJson created updated)
    pure (some deliveryId)

/-- The part of `_grant_engagement_reward` after no claim was found. -/
def recordReward (account : Int) (kind : RewardKind) (period : Period) (tier : Int)
    (reward : EngagementReward) : Action F (Value F) := do
  let source := "engagement:" ++ (kind.text ++ ":" ++ toString account ++ ":" ++ period.text ++
    ":" ++ toString tier)
  let entry ← rt.creditReward account kind period tier reward.credits source
  let track ← rt.progressReward account reward.track source
  let deliveryId ← rt.deliverReward account kind reward.items source
  let claimId := (← Action.uuid4).text
  let rewardJson ← Transaction.lift (rt.canonical reward.toValue)
  let now ← Action.now
  let ids ← Action.select fun db => db.engagementClaims.map EngagementClaim.id
  Action.unique (claimId ∉ ids) "engagement_claims.id"
  Action.execute fun db => db.appendClaim
    ⟨claimId, account, kind, period, tier, rewardJson, deliveryId, entry.map LedgerEntry.id, now⟩
  pure (.object [("id", .str claimId), ("kind", .str kind.text), ("periodKey", .str period.text),
    ("tier", .int tier), ("credits", .int reward.credits),
    ("balance", match entry with
      | some entry => .int entry.balance
      | none => .none),
    ("track", track), ("deliveryId", .ofOption deliveryId), ("idempotent", .bool false)])

def grantEngagementReward (account : Int) (kind : RewardKind) (period : Period) (tier : Int)
    (reward : EngagementReward) : Action F (Value F) := do
  let existing ← Action.select fun db => db.claim? account kind period tier
  match existing with
  | some row =>
    pure (.object [("kind", .str kind.text), ("periodKey", .str period.text), ("tier", .int tier),
      ("idempotent", .bool true), ("deliveryId", .ofOption row.deliveryId),
      ("ledgerId", .ofOption row.ledgerId)])
  | none => rt.recordReward account kind period tier reward

def dailyTier (daily : DailyPolicy) (streak : Int) : Option Tier :=
  if daily.enabled then
    (tierFor daily.tiers.val streak).filter fun row => daily.repeatLast || row.mark = streak
  else none

def recordDay (policy : EngagementPolicy F) (account date observed seconds : Int) : Action F (List (Value F)) := do
  let found ← Action.select fun db => db.day? account date
  match found with
  | some _ => do
    Action.execute fun db => db.extendDay account date seconds observed
    pure []
  | none => do
    let yesterday ← Transaction.lift (Calendar.dayBefore date)
    let prior ← Action.select fun db => db.streak account yesterday
    let streak := prior + 1
    Action.execute fun db => db.appendDay ⟨account, date, seconds, streak, observed, observed⟩
    Transaction.each (fun row => rt.grantEngagementReward account .daily (.day date) row.mark
      row.reward) (dailyTier policy.daily streak).toList

def crossed (weekly : WeeklyPolicy) (previous current : Int) : List Tier :=
  if weekly.enabled then
    weekly.thresholds.val.filter fun row => previous < row.mark && row.mark ≤ current
  else []

def recordWeek (policy : EngagementPolicy F) (account : Int) (week : Int × Int)
    (observed seconds : Int) : Action F (List (Value F)) := do
  let found ← Action.select fun db => db.week? account week
  let previous ← Action.select fun db => db.weekSeconds account week
  let current := previous + seconds
  Action.execute fun db =>
    if found.isSome then db.setWeek account week current observed
    else db.appendWeek ⟨account, week, current, observed, observed⟩
  Transaction.each (fun row => rt.grantEngagementReward account .weekly (.week week) row.mark
    row.reward) (crossed policy.weekly previous current)

def earnedHours (hourly : HourlyPolicy) (sessionSeconds : Int) : Int :=
  min (sessionSeconds / hourly.intervalSeconds) hourly.maxRewardsPerSession

def hoursBetween (rewarded earned : Int) : List Int :=
  (List.range (earned - rewarded).toNat).map fun index : Nat => rewarded + 1 + index

def dueHours (hourly : HourlyPolicy) (rewarded earned : Int) : List (Int × Tier) :=
  (hoursBetween rewarded earned).filterMap fun hour =>
    (tierFor hourly.tiers.val hour).map fun row => (hour, row)

def recordHours (policy : EngagementPolicy F) (account : Int) (step : Advance F) :
    Action F (Int × List (Value F)) :=
  if policy.hourly.enabled && decide (policy.hourly.maxRewardsPerSession ≠ 0) then do
    let earned := earnedHours policy.hourly step.sessionSeconds
    let rewards ← Transaction.each (fun due => rt.grantEngagementReward account .hourly
      (.session step.sessionStarted) due.1 due.2.reward)
      (dueHours policy.hourly step.rewardedHours earned)
    pure (max step.rewardedHours earned, rewards)
  else pure (step.rewardedHours, [])

def recordActivity (policy : EngagementPolicy F) (account observed : Int) (step : Advance F) :
    Action F (Int × List (Value F)) :=
  if policy.enabled && decide (step.activeSeconds ≠ 0) then do
    let date ← Transaction.lift (Calendar.dateOf observed)
    let daily ← rt.recordDay policy account date observed step.activeSeconds
    let weekly ← rt.recordWeek policy account (Calendar.isoWeek date) observed step.activeSeconds
    let (rewardedHours, hourly) ← rt.recordHours policy account step
    pure (rewardedHours, daily ++ weekly ++ hourly)
  else pure (step.rewardedHours, [])

def bindLocation (location : Location F) : Action F Unit :=
  Action.bind (location.partitionId.getD 0)

def nextCheckpoint (account observed : Int) (online : Bool) (current : Location F)
    (step : Advance F) (rewardedHours : Int) : EngagementCheckpoint F :=
  { duneAccountId := account
    observedAt := observed
    wasOnline := online
    location := current
    lastMovementAt := if online then step.lastMovementAt else none
    sessionStartedAt := if online then step.sessionStarted else none
    sessionActiveSeconds := if online then step.sessionSeconds else 0
    rewardedHours := if online then rewardedHours else 0 }

/-- The part of `observe_engagement` that follows a stored checkpoint. -/
def continueEngagement (policy : EngagementPolicy F) (account : Int)
    (row : EngagementCheckpoint F) (online : Bool) (observed : Int) (current : Location F) :
    Action F (Value F) := do
  let step ← Transaction.lift (rt.advance policy row online observed current)
  let (rewardedHours, rewards) ← rt.recordActivity policy account observed step
  Action.bind observed
  bindLocation current
  Action.execute fun db =>
    db.setEngagement (nextCheckpoint account observed online current step rewardedHours)
  pure (.object [("ok", .bool true), ("active", .bool step.active),
    ("activeSeconds", .int step.activeSeconds), ("moved", .bool step.moved),
    ("distance", match step.distance with
      | some distance => .float distance
      | none => .none),
    ("sessionActiveSeconds", .int (if online then step.sessionSeconds else 0)),
    ("rewards", .list rewards)])

/-- `observe_engagement` once its arguments are read. -/
def recordObservation (policy : EngagementPolicy F) (duneAccountId : Value F) (online : Bool)
    (observed : Int) (current : Location F) : Action F (Value F) := do
  let account ← rt.ensureAccount duneAccountId
  let found ← Action.select fun db => db.engagement? account
  match found with
  | none => do
    Action.bind observed
    bindLocation current
    Action.execute fun db => db.appendEngagement
      ⟨account, observed, online, current, none, if online then some observed else none, 0, 0⟩
    pure (.object [("ok", .bool true), ("active", .bool false), ("activeSeconds", .int 0),
      ("firstObservation", .bool true), ("rewards", .list [])])
  | some row =>
    if observed ≤ row.observedAt then
      pure (.object [("ok", .bool true), ("active", .bool false), ("activeSeconds", .int 0),
        ("replay", .bool true), ("rewards", .list [])])
    else rt.continueEngagement policy account row online observed current

def observeEngagement (duneAccountId online observedEpoch location policy : Value F) : Action F (Value F) := do
  let policy ← Transaction.lift
    (rt.engagementConfig (.object [("engagementRewards", rt.orElse policy (.dict []))]))
  let observed ← Transaction.lift (rt.int observedEpoch)
  let current ← Transaction.lift (rt.location location policy.coordinatePrecision)
  rt.recordObservation policy duneAccountId (rt.truthy online) observed current

end Platform

inductive Operation (F : Type) where
  | syncConfig (file : Option String)
  | credit (duneAccountId amount kind reference metadata : Value F)
  | createLinkCode (duneAccountId ttlSeconds : Value F)
  | redeemLinkCode (discordUserId code : Value F)
  | purchase (duneAccountId offerId quantity idempotencyKey : Value F)
  | claimDelivery (deliveryId : Value F)
  | completeDelivery (deliveryId claimToken receipt : Value F)
  | releaseDelivery (deliveryId claimToken reason : Value F)
  | failDelivery (deliveryId claimToken error definitive : Value F)
  | resolveReconciliation (deliveryId delivered receipt reason : Value F)
  | ingestWebhook (provider eventId duneAccountId amount payload : Value F)
  | observePlaytime (duneAccountId online observedEpoch intervalSeconds creditsPerInterval
      maxGapSeconds : Value F)
  | observeEngagement (duneAccountId online observedEpoch location policy : Value F)
  | addTrackProgress (duneAccountId trackId amount reference : Value F)
  | claimTrackLevel (duneAccountId trackId level : Value F)

/-- An operation with what the outside world supplies while it runs. -/
structure Call (F : Type) where
  operation : Operation F
  supply : Supply

namespace Platform

variable (rt : Platform F)

/-- The transaction of an operation; what it returns is left out. -/
def perform : Operation F → Action F Unit
  | .syncConfig file => do
    let _ ← rt.syncConfig file
  | .credit account amount kind reference metadata => do
    let _ ← rt.credit account amount kind reference metadata
  | .createLinkCode account ttl => do
    let _ ← rt.createLinkCode account ttl
  | .redeemLinkCode discordUser code => do
    let _ ← rt.redeemLinkCode discordUser code
  | .purchase account offer quantity key => do
    let _ ← rt.purchase account offer quantity key
  | .claimDelivery delivery => do
    let _ ← rt.claimDelivery delivery
  | .completeDelivery delivery token receipt => do
    let _ ← rt.completeDelivery delivery token receipt
  | .releaseDelivery delivery token reason => do
    let _ ← rt.releaseDelivery delivery token reason
  | .failDelivery delivery token error definitive => do
    let _ ← rt.failDelivery delivery token error definitive
  | .resolveReconciliation delivery delivered receipt reason => do
    let _ ← rt.resolveReconciliation delivery delivered receipt reason
  | .ingestWebhook provider event account amount payload => do
    let _ ← rt.ingestWebhook provider event account amount payload
  | .observePlaytime account online observed interval credits maxGap => do
    let _ ← rt.observePlaytime account online observed interval credits maxGap
  | .observeEngagement account online observed location policy => do
    let _ ← rt.observeEngagement account online observed location policy
  | .addTrackProgress account track amount reference => do
    let _ ← rt.addTrackProgress account track amount reference
  | .claimTrackLevel account track level => do
    let _ ← rt.claimTrackLevel account track level

/-- The database after a call: as the transaction left it, or unchanged if it raised. -/
def apply (db : Db F) (call : Call F) : Db F :=
  ((rt.perform call.operation).commit ⟨db, call.supply⟩).db

def run (db : Db F) (calls : List (Call F)) : Db F := calls.foldl rt.apply db

theorem run_induction (Holds : Db F → Prop) {db : Db F} {calls : List (Call F)} (before : Holds db)
    (preserved : ∀ call ∈ calls, ∀ db, Holds db → Holds (rt.apply db call)) :
    Holds (rt.run db calls) := by
  induction calls generalizing db with
  | nil => exact before
  | cons call rest ih =>
    apply ih (preserved call List.mem_cons_self db before)
    exact fun other member => preserved other (List.mem_cons_of_mem call member)

end Platform

def plain : Platform FloatText where
  toRuntime := plainRuntime
  floats := {
    ofInt := fun _ => .nan
    ofText := fun _ => none
    less := fun _ _ => false
    lessEq := fun _ _ => false
    sub := fun _ _ => .nan
    mul := fun _ _ => .nan
    div := fun _ _ => .nan
    sum := fun _ => .nan
    square := fun _ => .ok .nan
    root := fun _ => .nan
    round := fun _ => valueError "cannot convert float NaN to integer" }
  sha256 := id
  realText _ := none

theorem isUuid_repeated {char : Char} (shape : isUuidChar char = true) :
    isUuid (String.ofList (List.replicate 36 char)) = true := by
  simp [isUuid, shape]

def Uuid.repeated (char : Char) (shape : isUuidChar char = true) : Uuid :=
  ⟨String.ofList (List.replicate 36 char), isUuid_repeated shape⟩

def supplyOf (now : String) (ids : List Uuid) : Supply where
  now _ := now
  uuid4 index := ids.getD index (.repeated '0' (.refl true))
  secret := "secret"
  epoch := 0

def kitCatalog (version stock : String) : String :=
  "\x7b\"version\":1,\"offers\":[\x7b\"id\":\"kit\",\"version\":" ++ version ++
    ",\"price\":0,\"stock\":" ++ stock ++ ",\"rewards\":[\x7b\"templateId\":\"Water\"\x7d]\x7d]\x7d"

def freeOrder : List (Call FloatText) :=
  [⟨.syncConfig (some (kitCatalog "1" "5")), supplyOf "2024-01-01T00:00:00Z" []⟩,
    ⟨.purchase (.int 7) (.str "kit") (.int 2) (.str "order-1"),
      supplyOf "2024-01-01T00:00:01Z" [.repeated 'a' (.refl true), .repeated 'b' (.refl true)]⟩]

end Dash.Community
