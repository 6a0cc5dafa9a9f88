import Dash.Community.State

/-! Purchases, their deliveries and refunds; account links, webhooks, playtime and reward tracks.

The paths that share code are one definition: the check of a claim token is
`claimedDelivery`, and both refunds are `refund` with their own ledger kind.
-/

set_option autoImplicit false

namespace Dash.Community

open Dash.Python Dash.Foundation

variable {F : Type}

def Db.purchase? (db : Db F) (id : String) : Option Purchase :=
  db.purchases.find? fun row => row.id = id

def Db.delivery? (db : Db F) (id : String) : Option Delivery :=
  db.deliveries.find? fun row => row.id = id

def Db.appendPurchase (db : Db F) (row : Purchase) : Db F :=
  { db with purchases := db.purchases ++ [row] }

def Db.appendDelivery (db : Db F) (row : Delivery) : Db F :=
  { db with deliveries := db.deliveries ++ [row] }

def Db.setPurchase (db : Db F) (id : String) (change : Purchase → Purchase) : Db F :=
  { db with purchases := update Purchase.id id change db.purchases }

def Db.setDelivery (db : Db F) (id : String) (change : Delivery → Delivery) : Db F :=
  { db with deliveries := update Delivery.id id change db.deliveries }

def Db.addStock (db : Db F) (offerId : String) (quantity : Int) : Db F :=
  { db with
    offers := update Offer.id offerId
      (fun row => { row with stock := row.stock.map fun stock => stock + quantity }) db.offers }

def DeliveryStatus.claimable : DeliveryStatus → Bool
  | .queued => true
  | .retry => true
  | _ => false

/-- The first of the rows with the least `created_at`. -/
def oldest : List Delivery → Option Delivery
  | [] => none
  | row :: rest =>
    match oldest rest with
    | some other => if other.createdAt < row.createdAt then some other else some row
    | none => some row

def Purchase.fields (row : Purchase) : List (String × Value F) :=
  [("id", .str row.id), ("dune_account_id", .int row.duneAccountId),
    ("offer_id", .str row.offerId), ("offer_version", .int row.offerVersion),
    ("quantity", .int row.quantity), ("total", .int row.total),
    ("status", .str row.status.text), ("idempotency_key", .str row.idempotencyKey),
    ("error", .ofOption row.error), ("created_at", .str row.createdAt),
    ("updated_at", .str row.updatedAt)]

def Delivery.fields (row : Delivery) : List (String × Value F) :=
  [("id", .str row.id), ("source_type", .str row.sourceType.text),
    ("source_id", .str row.sourceId), ("dune_account_id", .int row.duneAccountId),
    ("status", .str row.status.text), ("attempts", .int row.attempts),
    ("claim_token", .ofOption row.claimToken), ("claimed_at", .ofOption row.claimedAt),
    ("delivered_at", .ofOption row.deliveredAt), ("receipt_json", .ofOption row.receiptJson),
    ("error", .ofOption row.error), ("created_at", .str row.createdAt),
    ("updated_at", .str row.updatedAt)]

/-- A new delivery, with the defaults of the columns an insert leaves out. -/
def Delivery.fresh (id : String) (sourceType : SourceType) (sourceId : String) (account : Int)
    (rewardsJson createdAt updatedAt : String) : Delivery :=
  { id := id
    sourceType := sourceType
    sourceId := sourceId
    duneAccountId := account
    rewardsJson := rewardsJson
    status := .queued
    attempts := 0
    claimToken := none
    claimedAt := none
    deliveredAt := none
    receiptJson := none
    error := none
    createdAt := createdAt
    updatedAt := updatedAt }

def insertDelivery (row : Delivery) : Action F Unit := do
  let ids ← Action.select fun db => db.deliveries.map Delivery.id
  Action.unique (row.id ∉ ids) "deliveries.id"
  let sources ← Action.select fun db => db.deliveries.map Delivery.sourceId
  Action.unique (row.sourceId ∉ sources) "deliveries.source_id"
  Action.accountExists row.duneAccountId
  Action.execute fun db => db.appendDelivery row

def insertPurchase (row : Purchase) : Action F Unit := do
  let ids ← Action.select fun db => db.purchases.map Purchase.id
  Action.unique (row.id ∉ ids) "purchases.id"
  let keys ← Action.select fun db =>
    db.purchases.map fun row => (row.duneAccountId, row.idempotencyKey)
  Action.unique ((row.duneAccountId, row.idempotencyKey) ∉ keys)
    "purchases.dune_account_id, purchases.idempotency_key"
  Action.accountExists row.duneAccountId
  Action.execute fun db => db.appendPurchase row

namespace Platform

variable (rt : Platform F)

def appendUnlessZero (account delta : Int) (kind reference metadata : Value F) : Action F Unit :=
  if delta = 0 then pure () else do
    let _ ← rt.appendLedger account delta kind reference metadata

/-- The part of `purchase` after its idempotency key was found to be new. -/
def placeOrder (account : Int) (offerId : Value F) (quantity : Int)
    (idempotencyKey now : String) : Action F (Value F) := do
  let found ← Action.select fun db => db.offer? (rt.str offerId)
  match found with
  | none => Action.valueError "offer is unavailable"
  | some offer => do
    if !offer.enabled then Action.valueError "offer is unavailable" else
    if offer.stock.any fun stock => stock < quantity then
      Action.valueError "offer is out of stock"
    else
    let purchaseId := (← Action.uuid4).text
    let deliveryId := (← Action.uuid4).text
    let total := offer.price * quantity
    let unit ← Transaction.lift (rt.loads offer.rewardsJson)
    let unit ← Transaction.lift (iterate unit)
    let rewards := (List.replicate quantity.toNat unit).flatten
    let purchase : Purchase := {
      id := purchaseId
      duneAccountId := account
      offerId := offer.id
      offerVersion := offer.version
      quantity := quantity
      total := total
      status := .queued
      idempotencyKey := idempotencyKey
      error := none
      createdAt := now
      updatedAt := now }
    insertPurchase purchase
    rt.appendUnlessZero account (-total) (.str "purchase") (.str ("purchase:" ++ purchaseId))
      (.object [("offerId", .str offer.id), ("quantity", .int quantity)])
    Action.execute fun db => db.addStock offer.id (-quantity)
    let rewardsJson ← Transaction.lift (rt.canonical (.list rewards))
    insertDelivery (.fresh deliveryId .purchase purchaseId account rewardsJson now now)
    pure (.object (purchase.fields ++ [("deliveryId", .str deliveryId), ("idempotent", .bool false)]))

def purchase (duneAccountId offerId quantity idempotencyKey : Value F) : Action F (Value F) := do
  let quantity ← Transaction.lift (rt.positiveInt quantity "quantity" MAX_PURCHASE_QUANTITY)
  let idempotencyKey ← Transaction.lift (rt.identifier idempotencyKey "idempotencyKey" 128)
  let now ← Action.now
  let account ← rt.ensureAccount duneAccountId
  let existing ← Action.select fun db => db.purchases.find? fun row =>
    row.duneAccountId = account && row.idempotencyKey = idempotencyKey
  match existing with
  | some row => pure (.object (row.fields ++ [("idempotent", .bool true)]))
  | none => rt.placeOrder account offerId quantity idempotencyKey now

def claimDelivery (deliveryId : Value F) : Action F (Value F) := do
  let found ← Action.select fun db =>
    if rt.truthy deliveryId then
      db.deliveries.find? fun row => row.id = rt.str deliveryId && row.status.claimable
    else oldest (db.deliveries.filter fun row => row.status.claimable)
  match found with
  | none => pure .none
  | some row => do
    let token ← Action.secret
    let now ← Action.now
    let claim := fun (row : Delivery) => { row with
      status := .processing
      attempts := row.attempts + 1
      claimToken := some token
      claimedAt := some now
      updatedAt := now }
    Action.execute fun db => db.setDelivery row.id claim
    let rewards ← Transaction.lift (rt.loads row.rewardsJson)
    pure (.object ((claim row).fields ++ [("rewards", rewards)]))

/-- `hmac.compare_digest` of two strings. -/
def compareDigest (first second : String) : Result Bool :=
  if (first ++ second).toList.all fun char => decide (char.toNat < 128) then
    .ok (decide (first = second))
  else typeError "comparing strings with non-ASCII characters is not supported"

def claimedDelivery (deliveryId claimToken : Value F) : Action F Delivery := do
  let found ← Action.select fun db => db.delivery? (rt.str deliveryId)
  match found with
  | none => Action.valueError "delivery claim is stale or invalid"
  | some row => do
    if row.status ≠ .processing then Action.valueError "delivery claim is stale or invalid" else
    let held ← Transaction.lift
      (compareDigest (row.claimToken.getD "") (rt.str (rt.orElse claimToken (.str ""))))
    if held then pure row else Action.valueError "delivery claim is stale or invalid"

def settlePurchase (row : Delivery) (change : Purchase → Purchase) : Action F Unit :=
  if row.sourceType = .purchase then
    Action.execute fun db => db.setPurchase row.sourceId change
  else pure ()

def completeDelivery (deliveryId claimToken receipt : Value F) : Action F (Value F) := do
  let row ← rt.claimedDelivery deliveryId claimToken
  let now ← Action.now
  let receiptJson ← Transaction.lift (rt.canonical (rt.orElse receipt (.dict [])))
  Action.execute fun db => db.setDelivery row.id fun row => { row with
    status := .delivered
    deliveredAt := some now
    receiptJson := some receiptJson
    claimToken := none
    error := none
    updatedAt := now }
  settlePurchase row fun row => { row with status := .delivered, updatedAt := now }
  pure (.object [("ok", .bool true), ("deliveryId", .str row.id), ("status", .str "delivered"),
    ("deliveredAt", .str now)])

def releaseDelivery (deliveryId claimToken reason : Value F) : Action F (Value F) := do
  let row ← rt.claimedDelivery deliveryId claimToken
  let now ← Action.now
  Action.execute fun db => db.setDelivery row.id fun row => { row with
    status := .retry
    error := some (clip 2000 (rt.str (rt.orElse reason (.str "retry requested"))))
    claimToken := none
    updatedAt := now }
  pure (.object [("ok", .bool true), ("deliveryId", .str row.id), ("status", .str "retry")])

/-- The refund of the purchase a failed delivery is for, unless it is closed already. -/
def refund (row : Delivery) (kind : String) (detail : String × Value F) (error now : String) :
    Action F Bool := do
  if row.sourceType ≠ .purchase then pure false else
  let found ← Action.select fun db => db.purchase? row.sourceId
  match found with
  | none => pure false
  | some purchase => do
    if purchase.status = .refunded ∨ purchase.status = .delivered then pure false else
    rt.appendUnlessZero purchase.duneAccountId purchase.total (.str kind)
      (.str ("refund:" ++ purchase.id)) (.object [("deliveryId", .str row.id), detail])
    Action.execute fun db => db.addStock purchase.offerId purchase.quantity
    Action.execute fun db => db.setPurchase purchase.id fun row =>
      { row with status := .refunded, error := some error, updatedAt := now }
    pure true

def resolveReconciliation (deliveryId delivered receipt reason : Value F) : Action F (Value F) := do
  let found ← Action.select fun db => db.deliveries.find? fun row =>
    row.id = rt.str deliveryId && decide (row.status = .reconciliation)
  match found with
  | none => Action.valueError "delivery is not awaiting reconciliation"
  | some row => do
    let now ← Action.now
    if rt.truthy delivered then do
      let receiptJson ← Transaction.lift
        (rt.canonical (rt.orElse receipt (.object [("reconciled", .bool true)])))
      Action.execute fun db => db.setDelivery row.id fun row => { row with
        status := .delivered
        deliveredAt := some now
        receiptJson := some receiptJson
        error := none
        updatedAt := now }
      settlePurchase row fun row =>
        { row with status := .delivered, error := none, updatedAt := now }
      pure (.object [("ok", .bool true), ("deliveryId", .str row.id),
        ("status", .str "delivered"), ("refunded", .bool false)])
    else do
      let reason := rt.str reason
      let refunded ← rt.refund row "reconciliation-refund" ("reason", .str (clip 1000 reason))
        (clip 2000 reason) now
      Action.execute fun db => db.setDelivery row.id fun row =>
        { row with status := .failed, error := some (clip 2000 reason), updatedAt := now }
      pure (.object [("ok", .bool true), ("deliveryId", .str row.id), ("status", .str "failed"),
        ("refunded", .bool refunded)])

def failDelivery (deliveryId claimToken error definitive : Value F) : Action F (Value F) := do
  let row ← rt.claimedDelivery deliveryId claimToken
  let error := clip 2000 (rt.str (rt.orElse error (.str "delivery failed")))
  let now ← Action.now
  if !rt.truthy definitive then do
    Action.execute fun db => db.setDelivery row.id fun row => { row with
      status := .reconciliation
      error := some error
      claimToken := none
      updatedAt := now }
    pure (.object [("ok", .bool false), ("deliveryId", .str row.id),
      ("status", .str "reconciliation"), ("refunded", .bool false)])
  else do
    let refunded ← rt.refund row "delivery-refund" ("error", .str error) error now
    Action.execute fun db => db.setDelivery row.id fun row => { row with
      status := .failed
      error := some error
      claimToken := none
      updatedAt := now }
    pure (.object [("ok", .bool false), ("deliveryId", .str row.id), ("status", .str "failed"),
      ("refunded", .bool refunded)])

end Platform

def Db.linkCode? (db : Db F) (codeHash : String) : Option LinkCode :=
  db.linkCodes.find? fun row => row.codeHash = codeHash

/-- `delete from link_codes where dune_account_id=? and used_at is null` -/
def Db.dropOpenLinkCodes (db : Db F) (account : Int) : Db F :=
  { db with
    linkCodes := db.linkCodes.filter fun row =>
      !(decide (row.duneAccountId = account) && row.usedAt.isNone) }

def Db.appendLinkCode (db : Db F) (row : LinkCode) : Db F :=
  { db with linkCodes := db.linkCodes ++ [row] }

def Db.useLinkCode (db : Db F) (codeHash now : String) : Db F :=
  { db with
    linkCodes := update LinkCode.codeHash codeHash (fun row => { row with usedAt := some now }) db.linkCodes }

def Db.linkAccount (db : Db F) (account : Int) (discordId now : String) : Db F :=
  { db with
    accounts := update Account.duneAccountId account
      (fun row => { row with discordUserId := some discordId, linkedAt := some now }) db.accounts }

def Db.playtime? (db : Db F) (account : Int) : Option PlaytimeCheckpoint :=
  db.playtimeCheckpoints.find? fun row => row.duneAccountId = account

def Db.appendPlaytime (db : Db F) (row : PlaytimeCheckpoint) : Db F :=
  { db with playtimeCheckpoints := db.playtimeCheckpoints ++ [row] }

def Db.setPlaytime (db : Db F) (account : Int) (change : PlaytimeCheckpoint → PlaytimeCheckpoint) : Db F :=
  { db with
    playtimeCheckpoints :=
      update PlaytimeCheckpoint.duneAccountId account change db.playtimeCheckpoints }

/-- What `observe_playtime` returns; the first observation only sets the checkpoint. -/
inductive PlaytimeResult where
  | firstObservation
  | accrued (credited intervals remainderSeconds : Int) (balance : Option Int)

def PlaytimeResult.intervals : PlaytimeResult → Int
  | .firstObservation => 0
  | .accrued _ intervals _ _ => intervals

def PlaytimeCheckpoint.elapsed (row : PlaytimeCheckpoint) (observed maxGap : Int) : Int :=
  if row.wasOnline then max 0 (min (observed - row.observedAt) maxGap) else 0

def newest : List Track → Option Track
  | [] => none
  | row :: rest =>
    match newest rest with
    | some other => if row.version < other.version then some other else some row
    | none => some row

def Db.enabledTrack? (db : Db F) (id : String) : Option Track :=
  newest (db.tracks.filter fun row => row.id = id && row.enabled)

def Db.progress? (db : Db F) (account : Int) (track : Track) : Option TrackProgress :=
  db.trackProgress.find? fun row => row.duneAccountId = account && row.trackId = track.id &&
    row.trackVersion = track.version

def Db.trackXp (db : Db F) (account : Int) (track : Track) : Int :=
  ((db.progress? account track).map TrackProgress.xp).getD 0

def Db.addProgress (db : Db F) (account : Int) (track : Track) (amount : Int) (now : String) : Db F :=
  { db with
    trackProgress :=
      if (db.progress? account track).isSome then
        db.trackProgress.map fun row =>
          if row.duneAccountId = account ∧ row.trackId = track.id ∧
              row.trackVersion = track.version then
            { row with xp := row.xp + amount, updatedAt := now }
          else row
      else db.trackProgress ++ [⟨account, track.id, track.version, amount, now⟩] }

def Db.appendMetadata (db : Db F) (key value : String) : Db F :=
  { db with metadata := db.metadata ++ [(key, value)] }

def Db.appendWebhook (db : Db F) (row : WebhookReceipt) : Db F :=
  { db with webhookReceipts := db.webhookReceipts ++ [row] }

def Db.appendTrackClaim (db : Db F) (row : TrackClaim) : Db F :=
  { db with trackClaims := db.trackClaims ++ [row] }

namespace Platform

variable (rt : Platform F)

def createLinkCode (duneAccountId ttlSeconds : Value F) : Action F (Value F) := do
  let ttl ← Transaction.lift (rt.int ttlSeconds)
  let ttl := max 60 (min ttl 86400)
  let secret ← Action.secret
  let code := rt.upper (clip 12 (String.ofList (secret.toList.filter fun char => char ≠ '-' && char ≠ '_')))
  let digest := rt.sha256 code
  let epoch ← Action.epoch
  let expires ← Transaction.lift (Calendar.utcText (epoch + ttl))
  let account ← rt.ensureAccount duneAccountId
  Action.execute fun db => db.dropOpenLinkCodes account
  let created ← Action.now
  let hashes ← Action.select fun db => db.linkCodes.map LinkCode.codeHash
  Action.unique (digest ∉ hashes) "link_codes.code_hash"
  Action.execute fun db => db.appendLinkCode ⟨digest, account, expires, none, created⟩
  pure (.object [("ok", .bool true), ("duneAccountId", .int account), ("code", .str code),
    ("expiresAt", .str expires)])

def redeemLinkCode (discordUserId code : Value F) : Action F (Value F) := do
  let discordId ← Transaction.lift (rt.identifier discordUserId "discordUserId" 64)
  let digest := rt.sha256 (rt.upper (strip (rt.str (rt.orElse code (.str "")))))
  let found ← Action.select fun db => db.linkCode? digest
  match found with
  | none => Action.valueError "link code is invalid or expired"
  | some row => do
    if row.usedAt.any fun usedAt => usedAt ≠ "" then
      Action.valueError "link code is invalid or expired"
    else
    let checked ← Action.now
    if row.expiresAt < checked then Action.valueError "link code is invalid or expired" else
    let conflict ← Action.select fun db =>
      db.accounts.find? fun account => account.discordUserId = some discordId
    if conflict.any fun account => account.duneAccountId ≠ row.duneAccountId then
      Action.valueError "Discord user is already linked to another account"
    else
    let now ← Action.now
    Action.execute fun db => db.linkAccount row.duneAccountId discordId now
    Action.execute fun db => db.useLinkCode digest now
    pure (.object [("ok", .bool true), ("discordUserId", .str discordId),
      ("duneAccountId", .int row.duneAccountId), ("linkedAt", .str now)])

/-- The part of `ingest_webhook` after the event was found to be new. -/
def recordWebhook (provider eventId : String) (duneAccountId : Value F) (amount : Int)
    (digest : String) : Action F (Value F) := do
  let account ← rt.ensureAccount duneAccountId
  let entry ← rt.appendLedger account amount (.str ("webhook-" ++ provider))
    (.str ("webhook:" ++ (provider ++ ":" ++ eventId))) (.object [("payloadSha256", .str digest)])
  let now ← Action.now
  Action.execute fun db =>
    db.appendWebhook ⟨provider, eventId, digest, account, amount, entry.id, now⟩
  pure (.object [("ok", .bool true), ("provider", .str provider), ("eventId", .str eventId),
    ("duneAccountId", .int account), ("amount", .int amount), ("ledgerId", .str entry.id),
    ("balance", .int entry.balance), ("idempotent", .bool false)])

def ingestWebhook (provider eventId duneAccountId amount payload : Value F) : Action F (Value F) := do
  let provider ← Transaction.lift (rt.identifier provider "provider" 32)
  let provider := rt.lower provider
  let eventId ← Transaction.lift (rt.identifier eventId "eventId" 128)
  let amount ← Transaction.lift (rt.positiveInt amount "amount" MAX_LEDGER_AMOUNT)
  let payload ← Transaction.lift (rt.canonical payload)
  let digest := rt.sha256 payload
  let existing ← Action.select fun db => db.webhookReceipts.find? fun row =>
    row.provider = provider && row.eventId = eventId
  match existing with
  | some row =>
    if row.payloadSha256 ≠ digest then
      Action.valueError "webhook event id was reused with a different payload"
    else pure (.object [("ok", .bool true), ("provider", .str row.provider),
      ("eventId", .str row.eventId), ("duneAccountId", .int row.duneAccountId),
      ("amount", .int row.amount), ("ledgerId", .str row.ledgerId), ("idempotent", .bool true)])
  | none => rt.recordWebhook provider eventId duneAccountId amount digest

/-- The part of `observe_playtime` that follows a stored checkpoint. -/
def accruePlaytime (account : Int) (row : PlaytimeCheckpoint) (online : Bool)
    (observed interval credits maxGap : Int) : Action F PlaytimeResult := do
  let total := row.remainderSeconds + row.elapsed observed maxGap
  let intervals := total / interval
  let remainder := total % interval
  let credited := intervals * credits
  Action.bind observed
  Action.execute fun db => db.setPlaytime account fun row => { row with
    observedAt := observed
    wasOnline := online
    remainderSeconds := remainder
    creditedIntervals := row.creditedIntervals + intervals }
  if credited = 0 then pure (.accrued credited intervals remainder none) else
  let entry ← rt.appendLedger account credited (.str "playtime")
    (.str ("playtime:" ++ (toString account ++ ":" ++ toString (row.creditedIntervals + intervals))))
    (.object [("seconds", .int (intervals * interval))])
  pure (.accrued credited intervals remainder (some entry.balance))

def observePlaytime (duneAccountId online observedEpoch intervalSeconds creditsPerInterval
    maxGapSeconds : Value F) : Action F PlaytimeResult := do
  let observed ← Transaction.lift (rt.int observedEpoch)
  let interval ← Transaction.lift (rt.positiveInt intervalSeconds "intervalSeconds" 86400)
  let credits ← Transaction.lift (rt.positiveInt creditsPerInterval "creditsPerInterval" 1000000)
  let maxGap ← Transaction.lift (rt.int maxGapSeconds)
  let maxGap := max interval (min maxGap 86400)
  let account ← rt.ensureAccount duneAccountId
  let found ← Action.select fun db => db.playtime? account
  match found with
  | none => do
    Action.bind observed
    Action.execute fun db => db.appendPlaytime ⟨account, observed, rt.truthy online, 0, 0⟩
    pure .firstObservation
  | some row => rt.accruePlaytime account row (rt.truthy online) observed interval credits maxGap

/-- `_add_track_progress` -/
def addTrackXp (account : Int) (trackId amount reference : Value F) : Action F (Value F) := do
  let amount ← Transaction.lift (rt.positiveInt amount "amount" MAX_LEDGER_AMOUNT)
  let found ← Action.select fun db => db.enabledTrack? (rt.str trackId)
  match found with
  | none => Action.valueError ("reward track " ++ rt.repr trackId ++ " is unavailable")
  | some track => do
    let reference ← Transaction.lift (rt.identifier reference "reference" 128)
    let marker := "track-progress:" ++ track.id ++ ":" ++ toString track.version ++ ":" ++ reference
    let marked ← Action.select fun db => db.metadata.any fun entry => entry.1 = marker
    if marked then do
      let xp ← Action.select fun db => db.trackXp account track
      pure (.object [("ok", .bool true), ("xp", .int xp), ("idempotent", .bool true)])
    else do
      let now ← Action.now
      Action.execute fun db => db.addProgress account track amount now
      Action.execute fun db => db.appendMetadata marker now
      let xp ← Action.select fun db => db.trackXp account track
      pure (.object [("ok", .bool true), ("trackId", .str track.id), ("version", .int track.version),
        ("xp", .int xp), ("idempotent", .bool false)])

def addTrackProgress (duneAccountId trackId amount reference : Value F) : Action F (Value F) := do
  let account ← rt.ensureAccount duneAccountId
  rt.addTrackXp account trackId amount reference

/-- The part of `claim_track_level` after the track was found. -/
def claimLevel (account : Int) (track : Track) (level : Int) (now : String) : Action F (Value F) := do
  let levels ← Transaction.lift (rt.loads track.levelsJson)
  let levels ← Transaction.lift (iterate levels)
  match levels[(level - 1).toNat]? with
  | none => Action.valueError "reward track level does not exist"
  | some row => do
    let xp ← Action.select fun db => db.trackXp account track
    let threshold ← Transaction.lift (rt.int (row.get "xp"))
    if xp < threshold then Action.valueError "reward track level is not unlocked" else
    let existing ← Action.select fun db => db.trackClaims.find? fun claim =>
      claim.duneAccountId = account && claim.trackId = track.id &&
        claim.trackVersion = track.version && claim.level = level
    match existing with
    | some claim =>
      pure (.object [("ok", .bool true), ("deliveryId", .str claim.deliveryId), ("idempotent", .bool true)])
    | none => do
      let deliveryId := (← Action.uuid4).text
      let source := toString account ++ ":" ++ track.id ++ ":" ++ toString track.version ++ ":" ++
        toString level
      let rewardsJson ← Transaction.lift (rt.canonical (row.get "rewards"))
      insertDelivery (.fresh deliveryId .trackClaim source account rewardsJson now now)
      Action.execute fun db =>
        db.appendTrackClaim ⟨account, track.id, track.version, level, deliveryId, now⟩
      pure (.object [("ok", .bool true), ("deliveryId", .str deliveryId), ("idempotent", .bool false)])

def claimTrackLevel (duneAccountId trackId level : Value F) : Action F (Value F) := do
  let level ← Transaction.lift (rt.positiveInt level "level" 10000)
  let now ← Action.now
  let account ← rt.ensureAccount duneAccountId
  let found ← Action.select fun db => db.enabledTrack? (rt.str trackId)
  match found with
  | none => Action.valueError "reward track is unavailable"
  | some track => rt.claimLevel account track level now

end Platform

end Dash.Community
