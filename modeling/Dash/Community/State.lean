import Dash.Community.Config
import Dash.Foundation.Table
import Dash.Python.Calendar

/-! The tables of the community database and the session a transaction runs in.

A table is the list of its rows in rowid order. Columns that only hold one of a
few words are enumerations, and so are the sources of a delivery. A day is its
number since 1970-01-01.
-/

set_option autoImplicit false

namespace Dash.Community

open Dash.Python Dash.Foundation
open Foundation.Transaction (check_bind guard_ok raise_ok write_ok)

inductive PurchaseStatus where
  | queued | delivered | refunded
  deriving DecidableEq, Repr

inductive DeliveryStatus where
  | queued | retry | processing | reconciliation | delivered | failed
  deriving DecidableEq, Repr

inductive RewardKind where
  | daily | weekly | hourly
  deriving DecidableEq, Repr

inductive SourceType where
  | purchase
  | engagement (kind : RewardKind)
  | trackClaim
  deriving DecidableEq, Repr

inductive Period where
  | day (date : Int)
  | week (number : Int × Int)
  | session (startedAt : Option Int)
  deriving DecidableEq, Repr

def PurchaseStatus.text : PurchaseStatus → String
  | .queued => "queued"
  | .delivered => "delivered"
  | .refunded => "refunded"

def DeliveryStatus.text : DeliveryStatus → String
  | .queued => "queued"
  | .retry => "retry"
  | .processing => "processing"
  | .reconciliation => "reconciliation"
  | .delivered => "delivered"
  | .failed => "failed"

def RewardKind.text : RewardKind → String
  | .daily => "daily"
  | .weekly => "weekly"
  | .hourly => "hourly"

def SourceType.text : SourceType → String
  | .purchase => "purchase"
  | .engagement kind => "engagement-" ++ kind.text
  | .trackClaim => "track-claim"

/-- `period_key` -/
def Period.text : Period → String
  | .day date => Calendar.isoformat date
  | .week number => Calendar.isoWeekText number
  | .session (some startedAt) => toString startedAt
  | .session none => "None"

structure Account where
  duneAccountId : Int
  (discordUserId linkedAt : Option String)
  createdAt : String

structure LinkCode where
  codeHash : String
  duneAccountId : Int
  expiresAt : String
  usedAt : Option String
  createdAt : String

structure Wallet where
  (duneAccountId balance : Int)
  updatedAt : String

structure LedgerRow where
  id : String
  (duneAccountId delta balanceAfter : Int)
  (kind reference metadataJson previousHash entryHash createdAt : String)

structure Offer where
  id : String
  version : Int
  (name description kind : String)
  price : Int
  stock : Option Int
  enabled : Bool
  (rewardsJson updatedAt : String)

structure Purchase where
  id : String
  duneAccountId : Int
  offerId : String
  (offerVersion quantity total : Int)
  status : PurchaseStatus
  idempotencyKey : String
  error : Option String
  (createdAt updatedAt : String)

structure Delivery where
  id : String
  sourceType : SourceType
  sourceId : String
  duneAccountId : Int
  rewardsJson : String
  status : DeliveryStatus
  attempts : Int
  (claimToken claimedAt deliveredAt receiptJson error : Option String)
  (createdAt updatedAt : String)

structure WebhookReceipt where
  (provider eventId payloadSha256 : String)
  (duneAccountId amount : Int)
  (ledgerId createdAt : String)

structure PlaytimeCheckpoint where
  (duneAccountId observedAt : Int)
  wasOnline : Bool
  (remainderSeconds creditedIntervals : Int)

structure Location (F : Type) where
  map : Option String
  partitionId : Option Int
  (x y z : Option F)

structure EngagementCheckpoint (F : Type) where
  (duneAccountId observedAt : Int)
  wasOnline : Bool
  location : Location F
  (lastMovementAt sessionStartedAt : Option Int)
  (sessionActiveSeconds rewardedHours : Int)

structure EngagementDay where
  (duneAccountId day activeSeconds streak firstActivityAt lastActivityAt : Int)

structure EngagementWeek where
  duneAccountId : Int
  week : Int × Int
  (activeSeconds firstActivityAt lastActivityAt : Int)

structure EngagementClaim where
  id : String
  duneAccountId : Int
  kind : RewardKind
  periodKey : Period
  tier : Int
  rewardJson : String
  (deliveryId ledgerId : Option String)
  createdAt : String

structure Track where
  id : String
  version : Int
  name : String
  enabled : Bool
  (startsAt endsAt : Option String)
  (levelsJson updatedAt : String)

structure TrackProgress where
  duneAccountId : Int
  trackId : String
  (trackVersion xp : Int)
  updatedAt : String

structure TrackClaim where
  duneAccountId : Int
  trackId : String
  (trackVersion level : Int)
  (deliveryId claimedAt : String)

structure Db (F : Type) where
  metadata : List (String × String)
  accounts : List Account
  linkCodes : List LinkCode
  wallets : List Wallet
  ledger : List LedgerRow
  offers : List Offer
  purchases : List Purchase
  deliveries : List Delivery
  webhookReceipts : List WebhookReceipt
  playtimeCheckpoints : List PlaytimeCheckpoint
  engagementCheckpoints : List (EngagementCheckpoint F)
  engagementDays : List EngagementDay
  engagementWeeks : List EngagementWeek
  engagementClaims : List EngagementClaim
  tracks : List Track
  trackProgress : List TrackProgress
  trackClaims : List TrackClaim

/-- What `initialize` creates, before the first `sync_config`. -/
def Db.empty (F : Type) : Db F :=
  ⟨[("schema_version", "2")], [], [], [], [], [], [], [], [], [], [], [], [], [], [], [], []⟩

def isUuidChar (char : Char) : Bool :=
  (decide ('0'.toNat ≤ char.toNat) && decide (char.toNat ≤ '9'.toNat)) ||
    (decide ('a'.toNat ≤ char.toNat) && decide (char.toNat ≤ 'f'.toNat)) || char = '-'

def isUuid (text : String) : Bool :=
  decide (text.toList.length = 36) && text.toList.all isUuidChar

/-- What `str(uuid.uuid4())` can be. -/
structure Uuid where
  text : String
  shape : isUuid text = true

/-- The values a call draws from outside: `now()` and `uuid4()` in the order it asks
for them, one secret, and the wall clock in seconds. -/
structure Supply where
  now : Nat → String
  uuid4 : Nat → Uuid
  secret : String
  epoch : Int

structure Session (F : Type) where
  db : Db F
  supply : Supply

abbrev Action (F α : Type) : Type := Transaction (Session F) Exception α

variable {F : Type}

namespace Action

/-- `self.now()` -/
def now : Action F String := fun session =>
  .ok (session.supply.now 0, { session with supply.now := fun index => session.supply.now (index + 1) })

/-- `uuid.uuid4()` -/
def uuid4 : Action F Uuid := fun session =>
  .ok (session.supply.uuid4 0, { session with supply.uuid4 := fun index => session.supply.uuid4 (index + 1) })

/-- A fresh token of the `secrets` module. -/
def secret : Action F String := Transaction.read fun session => session.supply.secret

def epoch : Action F Int := Transaction.read fun session => session.supply.epoch

def select {α : Type} (query : Db F → α) : Action F α :=
  Transaction.read fun session => query session.db

def execute (statement : Db F → Db F) : Action F Unit :=
  Transaction.write fun session => { session with db := statement session.db }

def valueError {α : Type} (message : String) : Action F α :=
  Transaction.raise ⟨.valueError, message⟩

/-- A constraint of the schema; breaking it raises `sqlite3.IntegrityError`. -/
def constraint (holds : Bool) (message : String) : Action F Unit :=
  Transaction.check holds ⟨.integrityError, message⟩

def unique (fresh : Bool) (columns : String) : Action F Unit :=
  constraint fresh ("UNIQUE constraint failed: " ++ columns)

def bind (number : Int) : Action F Unit :=
  Transaction.check (decide (-9223372036854775808 ≤ number) && decide (number ≤ 9223372036854775807))
    ⟨.overflowError, "Python int too large to convert to SQLite INTEGER"⟩

/-- `references accounts(dune_account_id)` -/
def accountExists (account : Int) : Action F Unit := do
  let known ← select fun db => db.accounts.any fun row => row.duneAccountId = account
  constraint known "FOREIGN KEY constraint failed"

section Statements

variable {α β : Type} {session : Session F}

@[simp] theorem select_bind {query : Db F → α} {next : α → Action F β} :
    (select query >>= next) session = next (query session.db) session := rfl

@[simp] theorem execute_bind {statement : Db F → Db F} {next : Unit → Action F β} :
    (execute statement >>= next) session =
      next () { session with db := statement session.db } := rfl

@[simp] theorem now_bind {next : String → Action F α} : (now >>= next) session = next (session.supply.now 0)
      { session with supply.now := fun index => session.supply.now (index + 1) } := rfl

@[simp] theorem uuid4_bind {next : Uuid → Action F α} : (uuid4 >>= next) session = next (session.supply.uuid4 0)
      { session with supply.uuid4 := fun index => session.supply.uuid4 (index + 1) } := rfl

@[simp] theorem secret_bind {next : String → Action F α} :
    (secret >>= next) session = next session.supply.secret session := rfl

@[simp] theorem epoch_bind {next : Int → Action F α} :
    (epoch >>= next) session = next session.supply.epoch session := rfl

variable {result : α × Session F} {next : Unit → Action F α}

@[simp] theorem bind_bind {number : Int} : (bind number >>= next) session = .ok result ↔
      (decide (-9223372036854775808 ≤ number) && decide (number ≤ 9223372036854775807)) = true ∧
        next () session = .ok result :=
  check_bind

@[simp] theorem unique_bind {fresh : Bool} {columns : String} :
    (unique fresh columns >>= next) session = .ok result ↔ fresh = true ∧ next () session = .ok result :=
  check_bind

@[simp] theorem accountExists_bind {account : Int} : (accountExists account >>= next) session = .ok result ↔
      (session.db.accounts.any fun row => row.duneAccountId = account) = true ∧
        next () session = .ok result :=
  check_bind

theorem now_ok {result : String × Session F} (drawn : now session = .ok result) : result.2.db = session.db := by
  cases drawn
  rfl

theorem uuid4_ok {result : Uuid × Session F} (drawn : uuid4 session = .ok result) : result.2.db = session.db := by
  cases drawn
  rfl

@[simp] theorem execute_ok {statement : Db F → Db F} {result : Unit × Session F} :
    execute statement session = .ok result ↔ ((), { session with db := statement session.db }) = result :=
  write_ok

@[simp] theorem valueError_ok {message : String} : (valueError message : Action F α) session = .ok result ↔ False :=
  raise_ok

@[simp] theorem refuse_ok {condition : Prop} [Decidable condition] {message : String} {rest : Action F α} :
    (if condition then valueError message else rest) session = .ok result ↔
      ¬ condition ∧ rest session = .ok result :=
  guard_ok

end Statements

end Action

structure Level where
  (level xp : Int)
  rewards : List Reward

def Level.toValue (level : Level) : Value F :=
  .object [("level", .int level.level), ("xp", .int level.xp), ("rewards", rewardsValue level.rewards)]

def Db.offer? (db : Db F) (id : String) : Option Offer :=
  db.offers.find? fun row => row.id = id

def Offer.replacedBy (row offer : Offer) : Offer :=
  { offer with stock := if row.version = offer.version then row.stock else offer.stock }

def Db.upsertOffer (db : Db F) (offer : Offer) : Db F :=
  { db with
    offers :=
      if db.offers.any fun row => row.id = offer.id then
        update Offer.id offer.id (fun row => row.replacedBy offer) db.offers
      else db.offers ++ [offer] }

/-- `update offers set enabled=0 where id not in (...)` -/
def Db.disableOffers (db : Db F) (kept : List String) : Db F :=
  { db with
    offers := db.offers.map fun row =>
      if row.id ∈ kept then row else { row with enabled := false } }

def Db.upsertTrack (db : Db F) (track : Track) : Db F :=
  { db with
    tracks :=
      if db.tracks.any fun row => row.id = track.id && row.version = track.version then
        db.tracks.map fun row =>
          if row.id = track.id ∧ row.version = track.version then track else row
      else db.tracks ++ [track] }

namespace Platform

variable (rt : Platform F)

def readStock (value : Value F) : Result (Option Int) :=
  if value.isBlank then .ok none else (rt.int value).map some

def readOffer (raw : Value F) (now : String) : Result Offer := do
  if !raw.isDict then valueError "offer entries must be objects" else
  let offerId ← rt.identifier (raw.get "id") "offer id" 64
  let version ← rt.positiveInt (getOr raw "version" (.int 1)) "offer version" 1000000
  let price ← rt.int (getOr raw "price" (.int 0))
  if price < 0 ∨ MAX_LEDGER_AMOUNT < price then
    valueError "offer price is outside the supported range"
  else
    let stock ← rt.readStock (raw.get "stock")
    if stock.any fun stock => stock < 0 then valueError "offer stock cannot be negative" else
    let rewards ← rt.rewards (raw.get "rewards")
    let name ← rt.identifier (getOr raw "name" (.str offerId)) "offer name" 128
    let rewardsJson ← rt.canonical (rewardsValue rewards)
    .ok {
      id := offerId
      version := version
      name := name
      description := clip 1000 (rt.str (rt.orElse (raw.get "description") (.str "")))
      kind := clip 32 (rt.str (rt.orElse (raw.get "kind") (.str "item")))
      price := price
      stock := stock
      enabled := rt.flag raw "enabled" true
      rewardsJson := rewardsJson
      updatedAt := now }

def readOffers (now : String) : List (Value F) → Result (List Offer)
  | [] => .ok []
  | raw :: rest => do
    let offer ← rt.readOffer raw now
    let others ← readOffers now rest
    .ok (offer :: others)

/-- The levels of a track from `index` on, each above the XP of the one before. -/
def readLevels : (index previousXp : Int) → List (Value F) → Result (List Level)
  | _, _, [] => .ok []
  | index, previousXp, level :: rest => do
    if !level.isDict then valueError "track levels must be objects" else
    let xp ← rt.int (getOr level "xp" (.int 0))
    if xp ≤ previousXp then valueError "track level XP thresholds must increase" else
    let rewards ← rt.rewards (level.get "rewards")
    let others ← readLevels (index + 1) xp rest
    .ok (⟨index, xp, rewards⟩ :: others)

def trackLevels (value : Value F) : Result (List Level) :=
  match value with
  | .list (first :: rest) => rt.readLevels 1 (-1) (first :: rest)
  | _ => valueError "track levels must be a non-empty array"

def bindText (value : Value F) : Action F (Option String) :=
  match value with
  | .none => pure none
  | .bool value => pure (some (if value then "1" else "0"))
  | .int value => do
    Action.bind value
    pure (some (toString value))
  | .float value => pure (rt.realText value)
  | .str value => pure (some value)
  | _ => Transaction.raise ⟨.interfaceError, "type is not supported"⟩

def syncOffer (now : String) (raw : Value F) : Action F String := do
  let offer ← Transaction.lift (rt.readOffer raw now)
  Action.bind (offer.stock.getD 0)
  Action.execute fun db => db.upsertOffer offer
  pure offer.id

def syncTrack (now : String) (raw : Value F) : Action F (String × Int) := do
  if !raw.isDict then Action.valueError "track entries must be objects" else
  let trackId ← Transaction.lift (rt.identifier (raw.get "id") "track id" 64)
  let version ← Transaction.lift (rt.positiveInt (getOr raw "version" (.int 1)) "track version" 1000000)
  let levels ← Transaction.lift (rt.trackLevels (raw.get "levels"))
  let name ← Transaction.lift (rt.identifier (getOr raw "name" (.str trackId)) "track name" 128)
  let levelsJson ← Transaction.lift (rt.canonical (.list (levels.map Level.toValue)))
  let startsAt ← rt.bindText (raw.get "startsAt")
  let endsAt ← rt.bindText (raw.get "endsAt")
  Action.execute fun db => db.upsertTrack
    ⟨trackId, version, name, rt.flag raw "enabled" true, startsAt, endsAt, levelsJson, now⟩
  pure (trackId, version)

/-- The configuration is read before the transaction begins. -/
def syncConfig (file : Option String) : Action F (Value F) := do
  let (config, offers, tracks) ← Transaction.lift (rt.loadConfig file)
  let now ← Action.now
  let offerIds ← Transaction.each (rt.syncOffer now) offers
  let trackKeys ← Transaction.each (rt.syncTrack now) tracks
  Action.execute fun db => db.disableOffers offerIds
  pure (.object [("ok", .bool true), ("offers", .int offerIds.dedup.length),
    ("tracks", .int trackKeys.dedup.length), ("enabled", .bool (rt.flag config "enabled" false))])

end Platform

def Db.openAccount (db : Db F) (account : Int) (now : String) : Db F :=
  { db with
    accounts :=
      if db.accounts.any fun row => row.duneAccountId = account then db.accounts
      else db.accounts ++ [⟨account, none, none, now⟩]
    wallets :=
      if db.wallets.any fun row => row.duneAccountId = account then db.wallets
      else db.wallets ++ [⟨account, 0, now⟩] }

def Db.wallet? (db : Db F) (account : Int) : Option Wallet :=
  db.wallets.find? fun row => row.duneAccountId = account

def Db.balance (db : Db F) (account : Int) : Int :=
  ((db.wallet? account).map Wallet.balance).getD 0

def Db.setBalance (db : Db F) (account balance : Int) (now : String) : Db F :=
  { db with
    wallets := update Wallet.duneAccountId account
      (fun row => { row with balance := balance, updatedAt := now }) db.wallets }

def Db.appendLedgerRow (db : Db F) (row : LedgerRow) : Db F :=
  { db with ledger := db.ledger ++ [row] }

def headHash (rows : List LedgerRow) : String :=
  match rows.getLast? with
  | some row => row.entryHash
  | none => ZERO_HASH

structure LedgerEntry where
  id : String
  (balance delta : Int)
  entryHash : String

namespace Platform

variable (rt : Platform F)

def accountId (duneAccountId : Value F) : Result Int :=
  rt.positiveInt duneAccountId "duneAccountId" 9223372036854775807

def ensureAccount (duneAccountId : Value F) : Action F Int := do
  let account ← Transaction.lift (rt.accountId duneAccountId)
  let now ← Action.now
  Action.execute fun db => db.openAccount account now
  pure account

def material (id : String) (account delta balanceAfter : Int) (kind reference : String)
    (metadata : Value F) (previousHash createdAt : String) : Result String :=
  rt.canonical (.object [("id", .str id), ("account", .int account), ("delta", .int delta),
    ("balanceAfter", .int balanceAfter), ("kind", .str kind), ("reference", .str reference),
    ("metadata", metadata), ("previousHash", .str previousHash), ("createdAt", .str createdAt)])

def insertLedgerRow (row : LedgerRow) : Action F Unit := do
  let ids ← Action.select fun db => db.ledger.map LedgerRow.id
  Action.unique (row.id ∉ ids) "ledger.id"
  let references ← Action.select fun db => db.ledger.map LedgerRow.reference
  Action.unique (row.reference ∉ references) "ledger.reference"
  let hashes ← Action.select fun db => db.ledger.map LedgerRow.entryHash
  Action.unique (row.entryHash ∉ hashes) "ledger.entry_hash"
  Action.accountExists row.duneAccountId
  Action.execute fun db => db.appendLedgerRow row

def appendLedger (account delta : Int) (kind reference metadata : Value F) :
    Action F LedgerEntry := do
  Transaction.check (decide (delta ≠ 0) && decide ((delta.natAbs : Int) ≤ MAX_LEDGER_AMOUNT))
    ⟨.valueError, "ledger delta is outside the supported range"⟩
  let reference ← Transaction.lift (rt.identifier reference "reference" 256)
  let kind ← Transaction.lift (rt.identifier kind "kind" 64)
  let balance ← Action.select fun db => db.balance account
  let after := balance + delta
  Transaction.check (decide (0 ≤ after)) ⟨.valueError, "insufficient community credits"⟩
  let previousHash ← Action.select fun db => headHash db.ledger
  let entryId := (← Action.uuid4).text
  let createdAt ← Action.now
  let metadataJson ← Transaction.lift (rt.canonical (rt.orElse metadata (.dict [])))
  let metadata ← Transaction.lift (rt.loads metadataJson)
  let material ← Transaction.lift
    (rt.material entryId account delta after kind reference metadata previousHash createdAt)
  let entryHash := rt.sha256 material
  Action.bind after
  Action.execute fun db => db.setBalance account after createdAt
  insertLedgerRow ⟨entryId, account, delta, after, kind, reference, metadataJson, previousHash,
    entryHash, createdAt⟩
  pure ⟨entryId, after, delta, entryHash⟩

def credit (duneAccountId amount kind reference metadata : Value F) : Action F (Value F) := do
  let amount ← Transaction.lift (rt.positiveInt amount "amount" MAX_LEDGER_AMOUNT)
  let account ← rt.ensureAccount duneAccountId
  let existing ← Action.select fun db =>
    db.ledger.find? fun row => row.reference = rt.str reference
  match existing with
  | some row =>
    pure (.object [("id", .str row.id), ("balance_after", .int row.balanceAfter),
      ("delta", .int row.delta), ("entry_hash", .str row.entryHash),
      ("balance", .int row.balanceAfter), ("idempotent", .bool true)])
  | none => do
    let entry ← rt.appendLedger account amount kind reference metadata
    pure (.object [("id", .str entry.id), ("balance", .int entry.balance),
      ("delta", .int entry.delta), ("entryHash", .str entry.entryHash),
      ("idempotent", .bool false)])

structure VerifyReport where
  ok : Bool
  entries : Nat
  head : String
  errors : List String

/-- The loop of `verify_ledger`: the head it reaches and the entries that fail. -/
def verifyRows (previous : String) (balances : Int → Int) : List LedgerRow → Result (String × List String)
  | [] => .ok (previous, [])
  | row :: rest => do
    let metadata ← rt.loads row.metadataJson
    let material ← rt.material row.id row.duneAccountId row.delta row.balanceAfter row.kind
      row.reference metadata row.previousHash row.createdAt
    let expected := rt.sha256 material
    let (head, errors) ← verifyRows row.entryHash
      (Function.update balances row.duneAccountId row.balanceAfter) rest
    if row.previousHash ≠ previous ∨ row.entryHash ≠ expected ∨
        row.balanceAfter ≠ balances row.duneAccountId + row.delta then
      .ok (head, row.id :: errors)
    else .ok (head, errors)

def verifyLedger (db : Db F) : Result VerifyReport := do
  let (head, errors) ← rt.verifyRows ZERO_HASH (fun _ => 0) db.ledger
  .ok ⟨errors.isEmpty, db.ledger.length, head, errors.take 100⟩

end Platform

end Dash.Community
