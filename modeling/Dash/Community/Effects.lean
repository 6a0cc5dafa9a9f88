import Dash.Community.Store

/-! What the operations can do to accounts, wallets, ledger, offers, purchases and
deliveries.

`Step` says it once: every operation but `sync_config` goes from the database it
finds to the one it leaves by such steps, and the invariants are derived from them.
-/

set_option autoImplicit false

namespace Dash.Community

open Dash.Python Dash.Foundation List
open Foundation.Transaction (bind_ok check_bind commit_error commit_ok lift_bind lift_ok pure_ok)

variable {F : Type}

def Platform.Sealed (rt : Platform F) (row : LedgerRow) : Prop :=
  ∃ metadata material, rt.loads row.metadataJson = .ok metadata ∧
    rt.material row.id row.duneAccountId row.delta row.balanceAfter row.kind row.reference
      metadata row.previousHash row.createdAt = .ok material ∧
    row.entryHash = rt.sha256 material

structure Platform.Posted (rt : Platform F) (db : Db F) (row : LedgerRow) : Prop where
  isSealed : rt.Sealed row
  follows : row.previousHash = headHash db.ledger
  after : row.balanceAfter = db.balance row.duneAccountId + row.delta
  solvent : 0 ≤ row.balanceAfter
  known : ∃ account ∈ db.accounts, account.duneAccountId = row.duneAccountId
  fresh : row.reference ∉ db.ledger.map LedgerRow.reference

def Db.post (db : Db F) (row : LedgerRow) : Db F :=
  (db.setBalance row.duneAccountId row.balanceAfter row.createdAt).appendLedgerRow row

def Db.postAll (db : Db F) (entry : Option LedgerRow) : Db F := entry.elim db db.post

def Platform.Entered (rt : Platform F) (db : Db F) (amount : Int) (reference : String)
    (entry : Option LedgerRow) : Prop :=
  match entry with
  | none => amount = 0
  | some row => rt.Posted db row ∧ row.delta = amount ∧ row.reference = reference

theorem Platform.Entered.congr {rt : Platform F} {db other : Db F} {amount : Int}
    {reference : String} {entry : Option LedgerRow} (accounts : other.accounts = db.accounts)
    (wallets : other.wallets = db.wallets) (ledger : other.ledger = db.ledger)
    (entered : rt.Entered other amount reference entry) : rt.Entered db amount reference entry := by
  cases entry with
  | none => exact entered
  | some row =>
    obtain ⟨⟨isSealed, follows, after, solvent, known, fresh⟩, delta, named⟩ := entered
    rw [Db.balance, Db.wallet?, wallets] at after
    exact ⟨⟨isSealed, ledger ▸ follows, after, solvent, accounts ▸ known, ledger ▸ fresh⟩, delta, named⟩

section PostAll

variable (db : Db F) (entry : Option LedgerRow)

@[simp] theorem postAll_offers : (db.postAll entry).offers = db.offers := by cases entry <;> rfl

@[simp] theorem postAll_purchases : (db.postAll entry).purchases = db.purchases := by
  cases entry <;> rfl

@[simp] theorem postAll_deliveries : (db.postAll entry).deliveries = db.deliveries := by
  cases entry <;> rfl

end PostAll

structure SameTrade (db other : Db F) : Prop where
  accounts : other.accounts.map Account.duneAccountId = db.accounts.map Account.duneAccountId
  wallets : other.wallets = db.wallets
  ledger : other.ledger = db.ledger
  offers : other.offers = db.offers
  purchases : other.purchases = db.purchases
  deliveries : other.deliveries = db.deliveries

structure Platform.Ordered (rt : Platform F) (db : Db F) (offer : Offer) (row : Purchase)
    (entry : Option LedgerRow) (delivery : Delivery) : Prop where
  offered : db.offer? offer.id = some offer
  offerId : row.offerId = offer.id
  offerVersion : row.offerVersion = offer.version
  inStock : ∀ stock ∈ offer.stock, row.quantity ≤ stock
  positive : 0 < row.quantity
  queued : row.status = .queued
  shape : isUuid row.id = true
  fresh : row.id ∉ db.purchases.map Purchase.id
  entered : rt.Entered db (-row.total) ("purchase:" ++ row.id) entry
  sourceType : delivery.sourceType = .purchase
  sourceId : delivery.sourceId = row.id
  waiting : delivery.status = .queued
  freshDelivery : delivery.id ∉ db.deliveries.map Delivery.id
  freshSource : delivery.sourceId ∉ db.deliveries.map Delivery.sourceId

def Db.order (db : Db F) (row : Purchase) (entry : Option LedgerRow) (delivery : Delivery) : Db F :=
  (((db.appendPurchase row).postAll entry).addStock row.offerId (-row.quantity)).appendDelivery delivery

def DeliveryChange (status : DeliveryStatus) (change : Delivery → Delivery) : Prop :=
  ∀ row, (change row).id = row.id ∧ (change row).sourceType = row.sourceType ∧
    (change row).sourceId = row.sourceId ∧ (change row).status = status

def PurchaseChange (status : PurchaseStatus) (change : Purchase → Purchase) : Prop :=
  ∀ row, change row = { row with
    status := status, error := (change row).error, updatedAt := (change row).updatedAt }

def Db.settle (db : Db F) (row : Delivery) (change : Purchase → Purchase) : Db F :=
  if row.sourceType = .purchase then db.setPurchase row.sourceId change else db

inductive DeliveryMove : DeliveryStatus → DeliveryStatus → Prop where
  | claim : DeliveryMove .queued .processing
  | reclaim : DeliveryMove .retry .processing
  | release : DeliveryMove .processing .retry
  | suspend : DeliveryMove .processing .reconciliation

def DeliveryStatus.open : DeliveryStatus → Bool
  | .processing => true
  | .reconciliation => true
  | _ => false

inductive Platform.Refunded (rt : Platform F) (db : Db F) (delivery : Delivery) : Db F → Prop where
  | otherSource (other : delivery.sourceType ≠ .purchase) : Refunded rt db delivery db
  | missing (none : db.purchase? delivery.sourceId = none) : Refunded rt db delivery db
  | closed (row : Purchase) (found : db.purchase? delivery.sourceId = some row)
      (settled : row.status ≠ .queued) : Refunded rt db delivery db
  | refund (row : Purchase) (entry : Option LedgerRow) (change : Purchase → Purchase)
      (source : delivery.sourceType = .purchase)
      (found : db.purchase? delivery.sourceId = some row) (pending : row.status = .queued)
      (entered : rt.Entered db row.total (strip ("refund:" ++ row.id)) entry)
      (changed : PurchaseChange .refunded change) :
      Refunded rt db delivery (((db.postAll entry).addStock row.offerId row.quantity).setPurchase row.id change)

inductive Platform.Step (rt : Platform F) (allowed : String → Prop) : Db F → Db F → Prop where
  | openAccount (db : Db F) (account : Int) (now : String) :
      Step rt allowed db (db.openAccount account now)
  | post (db : Db F) (row : LedgerRow) (posted : rt.Posted db row)
      (free : allowed row.reference) : Step rt allowed db (db.post row)
  | queue (db : Db F) (row : Delivery) (other : row.sourceType ≠ .purchase)
      (fresh : row.id ∉ db.deliveries.map Delivery.id)
      (freshSource : row.sourceId ∉ db.deliveries.map Delivery.sourceId) :
      Step rt allowed db (db.appendDelivery row)
  | side (db other : Db F) (same : SameTrade db other) : Step rt allowed db other
  | order (db : Db F) (offer : Offer) (row : Purchase) (entry : Option LedgerRow)
      (delivery : Delivery) (ordered : rt.Ordered db offer row entry delivery) :
      Step rt allowed db (db.order row entry delivery)
  | move (db : Db F) (row : Delivery) (status : DeliveryStatus) (change : Delivery → Delivery)
      (member : row ∈ db.deliveries) (moves : DeliveryMove row.status status)
      (changed : DeliveryChange status change) :
      Step rt allowed db (db.setDelivery row.id change)
  | deliver (db : Db F) (row : Delivery) (change : Delivery → Delivery)
      (settle : Purchase → Purchase) (member : row ∈ db.deliveries)
      (opened : row.status.open = true) (changed : DeliveryChange .delivered change)
      (settled : PurchaseChange .delivered settle) :
      Step rt allowed db ((db.setDelivery row.id change).settle row settle)

inductive Platform.Failed (rt : Platform F) (db : Db F) (id : String) : Db F → Prop where
  | fail (middle : Db F) (row : Delivery) (change : Delivery → Delivery)
      (member : row ∈ db.deliveries) (same : row.id = id) (opened : row.status.open = true)
      (refunded : rt.Refunded db row middle) (changed : DeliveryChange .failed change) :
      Failed rt db id (middle.setDelivery id change)

abbrev Platform.Steps (rt : Platform F) (allowed : String → Prop) : Session F → Session F → Prop :=
  fun first last => rt.Step allowed first.db last.db

theorem isUuidChar_plain {char : Char} (shape : isUuidChar char = true) : isSpace char = false := by
  by_cases dash : char = '-'
  · subst dash
    decide
  · have bounds : '0'.toNat = 48 ∧ '9'.toNat = 57 ∧ 'a'.toNat = 97 ∧ 'f'.toNat = 102 := by decide
    simp only [isUuidChar, Bool.or_eq_true, Bool.and_eq_true, decide_eq_true_eq, dash, or_false] at shape
    simp only [isSpace, Bool.or_eq_false_iff, Bool.and_eq_false_iff, decide_eq_false_iff_not]
    omega

theorem strip_reference {start id : String}
    (plain : start.toList.all (fun char => !isSpace char) = true) (shape : isUuid id = true) :
    strip (start ++ id) = start ++ id := by
  refine strip_plain fun char member => ?_
  rw [String.toList_append] at member
  rcases mem_append.mp member with inStart | inId
  · simpa using all_eq_true.mp plain char inStart
  · simp only [isUuid, Bool.and_eq_true] at shape
    exact isUuidChar_plain (all_eq_true.mp shape.2 char inId)

namespace Platform

variable (rt : Platform F) {session after : Session F}

variable {value : Unit}

theorem insertLedgerRow_ok {row : LedgerRow} (success : insertLedgerRow row session = .ok (value, after)) :
    row.reference ∉ session.db.ledger.map LedgerRow.reference ∧
      (∃ account ∈ session.db.accounts, account.duneAccountId = row.duneAccountId) ∧
      after.db = session.db.appendLedgerRow row := by
  simp only [insertLedgerRow, Action.select_bind, Action.unique_bind, Action.accountExists_bind,
    Action.execute_ok, decide_eq_true_eq, any_eq_true] at success
  obtain ⟨-, fresh, -, known, written⟩ := success
  cases written
  exact ⟨fresh, known, rfl⟩

structure Appended (rt : Platform F) (db : Db F) (account delta : Int) (kind reference : Value F)
    (row : LedgerRow) (entry : LedgerEntry) : Prop where
  kind : rt.identifier kind "kind" 64 = .ok row.kind
  reference : rt.identifier reference "reference" 256 = .ok row.reference
  owner : row.duneAccountId = account
  amount : row.delta = delta
  balance : row.balanceAfter = db.balance account + delta
  fits : row.balanceAfter ≤ 9223372036854775807
  entry : entry = ⟨row.id, row.balanceAfter, row.delta, row.entryHash⟩
  fresh : row.reference ∉ db.ledger.map LedgerRow.reference

theorem appendLedger_ok {account delta : Int} {kind reference metadata : Value F} {entry : LedgerEntry}
    (success : rt.appendLedger account delta kind reference metadata session = .ok (entry, after)) :
    ∃ row, rt.Posted session.db row ∧ rt.Appended session.db account delta kind reference row entry ∧
      after.db = session.db.post row := by
  simp only [appendLedger, check_bind, lift_bind, Action.select_bind,
    Action.uuid4_bind, Action.now_bind, Action.bind_bind, Action.execute_bind,
    decide_eq_true_eq] at success
  obtain ⟨-, text, named, kindText, kinded, solvent, metadataJson, written, loaded, read, material,
    encoded, bounded, rest⟩ := success
  simp only [bind_ok, pure_ok] at rest
  obtain ⟨_, _, inserted, same⟩ := rest
  obtain ⟨fresh, known, changed⟩ := insertLedgerRow_ok inserted
  obtain ⟨rfl, rfl⟩ := Prod.mk.inj same
  refine ⟨⟨_, account, delta, session.db.balance account + delta, kindText, text, metadataJson,
    headHash session.db.ledger, rt.sha256 material, session.supply.now 0⟩, ?_, ?_, changed⟩
  · exact {
      isSealed := ⟨loaded, material, read, encoded, rfl⟩
      follows := rfl
      after := rfl
      solvent := solvent
      known := known
      fresh := fresh }
  · exact {
      kind := kinded
      reference := named
      owner := rfl
      amount := rfl
      balance := rfl
      fits := of_decide_eq_true ((Bool.and_eq_true _ _).mp bounded).2
      entry := rfl
      fresh := fresh }

theorem ensureAccount_ok {duneAccountId : Value F} {account : Int}
    (success : rt.ensureAccount duneAccountId session = .ok (account, after)) :
    rt.accountId duneAccountId = .ok account ∧ ∃ now, after.db = session.db.openAccount account now := by
  simp only [ensureAccount, lift_bind, Action.now_bind, Action.execute_bind, pure_ok] at success
  obtain ⟨_, parsed, same⟩ := success
  cases same
  exact ⟨parsed, _, rfl⟩

theorem insertDelivery_ok {row : Delivery} (success : insertDelivery row session = .ok (value, after)) :
    row.id ∉ session.db.deliveries.map Delivery.id ∧ row.sourceId ∉ session.db.deliveries.map Delivery.sourceId ∧
      after.db = session.db.appendDelivery row := by
  simp only [insertDelivery, Action.select_bind, Action.unique_bind, Action.accountExists_bind,
    Action.execute_ok, decide_eq_true_eq] at success
  obtain ⟨fresh, freshSource, -, written⟩ := success
  cases written
  exact ⟨fresh, freshSource, rfl⟩

theorem insertPurchase_ok {row : Purchase} (success : insertPurchase row session = .ok (value, after)) :
    row.id ∉ session.db.purchases.map Purchase.id ∧ after.db = session.db.appendPurchase row := by
  simp only [insertPurchase, Action.select_bind, Action.unique_bind, Action.accountExists_bind,
    Action.execute_ok, decide_eq_true_eq] at success
  obtain ⟨fresh, -, -, written⟩ := success
  cases written
  exact ⟨fresh, rfl⟩

theorem appendUnlessZero_ok {account amount : Int} {kind metadata : Value F} {reference : String}
    (success : rt.appendUnlessZero account amount kind (.str reference) metadata session = .ok (value, after)) :
    ∃ entry, rt.Entered session.db amount (strip reference) entry ∧ after.db = session.db.postAll entry := by
  unfold appendUnlessZero at success
  by_cases zero : amount = 0
  · rw [if_pos zero] at success
    cases pure_ok.mp success
    exact ⟨none, zero, rfl⟩
  · rw [if_neg zero] at success
    simp only [bind_ok, pure_ok] at success
    obtain ⟨_, _, appended, same⟩ := success
    cases same
    obtain ⟨row, posted, written, changed⟩ := rt.appendLedger_ok appended
    exact ⟨some row, ⟨posted, written.amount, rt.identifier_str written.reference⟩, changed⟩

end Platform

def Reserved (reference : String) : Prop :=
  startsWith "purchase:" reference = true ∨ startsWith "refund:" reference = true

def apart (start : String) : Bool :=
  start.toList.all (fun char => !isSpace char) && start ≠ "" &&
    !startsWith start "purchase:" && !startsWith "purchase:" start &&
    !startsWith start "refund:" && !startsWith "refund:" start

theorem not_reserved {start rest : String} (distinct : apart start = true) : ¬ Reserved (strip (start ++ rest)) := by
  simp only [apart, Bool.and_eq_true, Bool.not_eq_true', decide_eq_true_eq] at distinct
  obtain ⟨⟨⟨⟨⟨plain, some⟩, one⟩, two⟩, three⟩, four⟩ := distinct
  have starts : startsWith start (strip (start ++ rest)) = true := startsWith_strip plain some
  rintro (reserved | reserved)
  · rcases startsWith_or starts reserved with before | before
    · exact absurd before (by simp [one])
    · exact absurd before (by simp [two])
  · rcases startsWith_or starts reserved with before | before
    · exact absurd before (by simp [three])
    · exact absurd before (by simp [four])

theorem SameTrade.refl (db : Db F) : SameTrade db db := ⟨rfl, rfl, rfl, rfl, rfl, rfl⟩

theorem SameTrade.trans {first second third : Db F} (before : SameTrade first second)
    (next : SameTrade second third) : SameTrade first third :=
  ⟨next.accounts.trans before.accounts, next.wallets.trans before.wallets,
    next.ledger.trans before.ledger, next.offers.trans before.offers,
    next.purchases.trans before.purchases, next.deliveries.trans before.deliveries⟩

/-- What a statement leaves alone that is not about accounts, trade or marks. -/
structure SameBooks (db other : Db F) : Prop where
  accounts : other.accounts.map Account.duneAccountId = db.accounts.map Account.duneAccountId := by rfl
  wallets : other.wallets = db.wallets := by rfl
  ledger : other.ledger = db.ledger := by rfl
  offers : other.offers = db.offers := by rfl
  purchases : other.purchases = db.purchases := by rfl
  deliveries : other.deliveries = db.deliveries := by rfl
  webhookReceipts : other.webhookReceipts = db.webhookReceipts := by rfl
  metadata : other.metadata = db.metadata := by rfl

/-- A single statement of an operation other than trade; one that `marks` adds metadata. -/
inductive Platform.Statement (rt : Platform F) (allowed : String → Prop) (marks : Bool) :
    Db F → Db F → Prop where
  | openAccount (db : Db F) (account : Int) (now : String) :
      Statement rt allowed marks db (db.openAccount account now)
  | post (db : Db F) (row : LedgerRow) (posted : rt.Posted db row) (free : allowed row.reference)
      (plain : strip row.reference = row.reference) : Statement rt allowed marks db (db.post row)
  | queue (db : Db F) (row : Delivery) (other : row.sourceType ≠ .purchase)
      (fresh : row.id ∉ db.deliveries.map Delivery.id)
      (freshSource : row.sourceId ∉ db.deliveries.map Delivery.sourceId) :
      Statement rt allowed marks db (db.appendDelivery row)
  | side (db other : Db F) (same : SameBooks db other) : Statement rt allowed marks db other
  | receive (db : Db F) (row : WebhookReceipt) :
      Statement rt allowed marks db (db.appendWebhook row)
  | mark (db : Db F) (key value : String) (marking : marks = true) :
      Statement rt allowed marks db (db.appendMetadata key value)

namespace Platform

open Transaction (Within)

variable (rt : Platform F) {allowed : String → Prop} {marks : Bool}

abbrev Statements (allowed : String → Prop) (marks : Bool) : Session F → Session F → Prop :=
  fun first last => rt.Statement allowed marks first.db last.db

theorem Statement.step {rt : Platform F} {db other : Db F}
    (statement : rt.Statement allowed marks db other) : rt.Step allowed db other := by
  cases statement with
  | openAccount account now => exact .openAccount _ _ _
  | post row posted free plain => exact .post _ _ posted free
  | queue row other fresh freshSource => exact .queue _ _ other fresh freshSource
  | side _ same =>
    exact .side _ _ ⟨same.accounts, same.wallets, same.ledger, same.offers, same.purchases, same.deliveries⟩
  | receive row => exact .side _ _ ⟨rfl, rfl, rfl, rfl, rfl, rfl⟩
  | mark key value marking => exact .side _ _ ⟨rfl, rfl, rfl, rfl, rfl, rfl⟩

theorem stepping {α : Type} {body : Action F α}
    (inside : Within (rt.Statements allowed true) body) : Within (rt.Steps allowed) body :=
  inside.mono fun _ _ => Statement.step

section Statements

theorem now_within : Within (rt.Statements allowed marks) Action.now := by
  intro session value after success
  exact .single (.side _ _ ((Action.now_ok success).symm ▸ ⟨rfl, rfl, rfl, rfl, rfl, rfl, rfl, rfl⟩))

theorem uuid4_within : Within (rt.Statements allowed marks) Action.uuid4 := by
  intro session value after success
  exact .single (.side _ _ ((Action.uuid4_ok success).symm ▸ ⟨rfl, rfl, rfl, rfl, rfl, rfl, rfl, rfl⟩))

theorem execute_within {statement : Db F → Db F} (moves : ∀ db, rt.Statement allowed marks db (statement db)) :
    Within (rt.Statements allowed marks) (Action.execute statement) :=
  .write fun session => moves session.db

theorem side_within {statement : Db F → Db F} (same : ∀ db, SameBooks db (statement db)) :
    Within (rt.Statements allowed marks) (Action.execute statement) :=
  rt.execute_within fun db => .side _ _ (same db)

theorem ensureAccount_within (duneAccountId : Value F) :
    Within (rt.Statements allowed marks) (rt.ensureAccount duneAccountId) := by
  exact .bind (.lift _) fun account => .bind rt.now_within fun now =>
    .bind (rt.execute_within fun db => .openAccount db account now) fun _ => .pure _

theorem appendLedger_within {account delta : Int} {kind reference metadata : Value F}
    (free : ∀ text, rt.identifier reference "reference" 256 = .ok text → allowed text) :
    Within (rt.Statements allowed marks) (rt.appendLedger account delta kind reference metadata) := by
  intro session entry after success
  obtain ⟨row, posted, written, changed⟩ := rt.appendLedger_ok success
  have plain : strip row.reference = row.reference := by
    rw [(rt.identifier_ok written.reference).1, strip_strip]
  refine .single ?_
  rw [Statements, changed]
  exact .post _ _ posted (free _ written.reference) plain

theorem insertDelivery_within {row : Delivery} (other : row.sourceType ≠ .purchase) :
    Within (rt.Statements allowed marks) (insertDelivery row) := by
  intro session value after success
  obtain ⟨fresh, freshSource, changed⟩ := insertDelivery_ok success
  refine .single ?_
  rw [Statements, changed]
  exact .queue _ _ other fresh freshSource

end Statements

section Operations

theorem credit_within {account amount kind reference metadata : Value F}
    (free : ∀ text, rt.identifier reference "reference" 256 = .ok text → allowed text) :
    Within (rt.Statements allowed marks) (rt.credit account amount kind reference metadata) := by
  refine .bind (.lift _) fun amount => .bind (rt.ensureAccount_within _) fun account =>
    .bind (.read _) fun existing => ?_
  cases existing with
  | some row => exact .pure _
  | none => exact .bind (rt.appendLedger_within free) fun entry => .pure _

theorem createLinkCode_within (account ttl : Value F) :
    Within (rt.Statements allowed marks) (rt.createLinkCode account ttl) := by
  exact .bind (.lift _) fun ttl => .bind (.read _) fun secret => .bind (.read _) fun epoch =>
    .bind (.lift _) fun expires => .bind (rt.ensureAccount_within _) fun account =>
    .bind (rt.side_within fun _ => ⟨rfl, rfl, rfl, rfl, rfl, rfl, rfl, rfl⟩) fun _ =>
    .bind rt.now_within fun created => .bind (.read _) fun hashes => .bind (.check _ _) fun _ =>
    .bind (rt.side_within fun _ => ⟨rfl, rfl, rfl, rfl, rfl, rfl, rfl, rfl⟩) fun _ => .pure _

theorem linkAccount_same (db : Db F) (account : Int) (discordId now : String) :
    SameBooks db (db.linkAccount account discordId now) :=
  { accounts := Table.update_keys fun _ => rfl }

theorem redeemLinkCode_within (discordUser code : Value F) :
    Within (rt.Statements allowed marks) (rt.redeemLinkCode discordUser code) := by
  refine .bind (.lift _) fun discordId => .bind (.read _) fun found => ?_
  cases found with
  | none => exact .raise _
  | some row =>
    exact .ite (fun _ => .raise _) fun _ => .bind rt.now_within fun checked =>
      .ite (fun _ => .raise _) fun _ => .bind (.read _) fun conflict =>
      .ite (fun _ => .raise _) fun _ => .bind rt.now_within fun now =>
      .bind (rt.side_within fun db => linkAccount_same db _ _ _) fun _ =>
      .bind (rt.side_within fun _ => ⟨rfl, rfl, rfl, rfl, rfl, rfl, rfl, rfl⟩) fun _ => .pure _

theorem addTrackXp_within (account : Int) (track amount reference : Value F) :
    Within (rt.Statements allowed true) (rt.addTrackXp account track amount reference) := by
  refine .bind (.lift _) fun amount => .bind (.read _) fun found => ?_
  cases found with
  | none => exact .raise _
  | some track =>
    exact .bind (.lift _) fun reference => .bind (.read _) fun marked =>
      .ite (fun _ => .bind (.read _) fun xp => .pure _) fun _ => .bind rt.now_within fun now =>
      .bind (rt.side_within fun _ => ⟨rfl, rfl, rfl, rfl, rfl, rfl, rfl, rfl⟩) fun _ =>
      .bind (rt.execute_within fun db => .mark db _ _ rfl) fun _ =>
      .bind (.read _) fun xp => .pure _

theorem addTrackProgress_within (account track amount reference : Value F) :
    Within (rt.Statements allowed true) (rt.addTrackProgress account track amount reference) :=
  .bind (rt.ensureAccount_within _) fun account => rt.addTrackXp_within account _ _ _

theorem claimTrackLevel_within (account track level : Value F) :
    Within (rt.Statements allowed marks) (rt.claimTrackLevel account track level) := by
  refine .bind (.lift _) fun level => .bind rt.now_within fun now =>
    .bind (rt.ensureAccount_within _) fun account => .bind (.read _) fun found => ?_
  cases found with
  | none => exact .raise _
  | some track =>
    refine .bind (.lift _) fun levels => .bind (.lift _) fun levels => ?_
    split
    · exact .raise _
    · refine .bind (.read _) fun xp => .bind (.lift _) fun threshold =>
        .ite (fun _ => .raise _) fun _ => .bind (.read _) fun existing => ?_
      cases existing with
      | some claim => exact .pure _
      | none =>
        exact .bind rt.uuid4_within fun id => .bind (.lift _) fun rewards =>
          .bind (rt.insertDelivery_within (by simp [Delivery.fresh])) fun _ =>
          .bind (rt.side_within fun _ => ⟨rfl, rfl, rfl, rfl, rfl, rfl, rfl, rfl⟩) fun _ => .pure _

variable (free : ∀ text, ¬ Reserved text → allowed text)
include free

theorem named_free {start rest : String} (distinct : apart start = true) (text : String)
    (named : rt.identifier (.str (start ++ rest)) "reference" 256 = .ok text) : allowed text := by
  rw [rt.identifier_str named]
  exact free _ (not_reserved distinct)

theorem ingestWebhook_within (provider event account amount payload : Value F) :
    Within (rt.Statements allowed marks) (rt.ingestWebhook provider event account amount payload) := by
  refine .bind (.lift _) fun provider => .bind (.lift _) fun eventId => .bind (.lift _) fun amount =>
    .bind (.lift _) fun payload => .bind (.read _) fun existing => ?_
  cases existing with
  | some row => exact .ite (fun _ => .raise _) fun _ => .pure _
  | none =>
    exact .bind (rt.ensureAccount_within _) fun account =>
      .bind (rt.appendLedger_within (rt.named_free free (by decide))) fun entry =>
      .bind rt.now_within fun now =>
      .bind (rt.execute_within fun db => .receive db _) fun _ => .pure _

theorem observePlaytime_within (account online observed interval credits maxGap : Value F) :
    Within (rt.Statements allowed marks) (rt.observePlaytime account online observed interval credits maxGap) := by
  refine .bind (.lift _) fun observed => .bind (.lift _) fun interval => .bind (.lift _) fun credits =>
    .bind (.lift _) fun maxGap => .bind (rt.ensureAccount_within _) fun account =>
    .bind (.read _) fun found => ?_
  cases found with
  | none =>
    exact .bind (.check _ _) fun _ =>
      .bind (rt.side_within fun _ => ⟨rfl, rfl, rfl, rfl, rfl, rfl, rfl, rfl⟩) fun _ => .pure _
  | some row =>
    exact .bind (.check _ _) fun _ =>
      .bind (rt.side_within fun _ => ⟨rfl, rfl, rfl, rfl, rfl, rfl, rfl, rfl⟩) fun _ =>
      .ite (fun _ => .pure _) fun _ =>
      .bind (rt.appendLedger_within (rt.named_free free (by decide))) fun entry => .pure _

theorem recordReward_within (account : Int) (kind : RewardKind) (period : Period) (tier : Int)
    (reward : EngagementReward) :
    Within (rt.Statements allowed true) (rt.recordReward account kind period tier reward) := by
  refine .bind ?_ fun entry => .bind ?_ fun track => .bind ?_ fun deliveryId => ?_
  · exact .ite (fun _ => .pure _) fun _ =>
      .bind (rt.appendLedger_within (rt.named_free free (by decide))) fun entry => .pure _
  · cases reward.track with
    | none => exact .pure _
    | some track => exact rt.addTrackXp_within _ _ _ _
  · exact .ite (fun _ => .pure _) fun _ => .bind rt.uuid4_within fun id =>
      .bind (.lift _) fun items => .bind rt.now_within fun created =>
      .bind rt.now_within fun updated =>
      .bind (rt.insertDelivery_within (by simp [Delivery.fresh])) fun _ => .pure _
  · exact .bind rt.uuid4_within fun claim => .bind (.lift _) fun rewardJson =>
      .bind rt.now_within fun now => .bind (.read _) fun ids => .bind (.check _ _) fun _ =>
      .bind (rt.side_within fun _ => ⟨rfl, rfl, rfl, rfl, rfl, rfl, rfl, rfl⟩) fun _ => .pure _

theorem grantEngagementReward_within (account : Int) (kind : RewardKind) (period : Period)
    (tier : Int) (reward : EngagementReward) :
    Within (rt.Statements allowed true) (rt.grantEngagementReward account kind period tier reward) := by
  refine .bind (.read _) fun existing => ?_
  cases existing with
  | some row => exact .pure _
  | none => exact rt.recordReward_within free _ _ _ _ _

theorem recordActivity_within (policy : EngagementPolicy F) (account observed : Int) (step : Advance F) :
    Within (rt.Statements allowed true) (rt.recordActivity policy account observed step) := by
  have grants {α : Type} (kind : RewardKind) (period : Period) (tier : α → Int)
      (reward : α → EngagementReward) (due : List α) :
      Within (rt.Statements allowed true) (Transaction.each (fun row =>
        rt.grantEngagementReward account kind period (tier row) (reward row)) due) :=
    .each (fun row => rt.grantEngagementReward_within free _ _ _ _ _) due
  refine .ite (fun _ => .bind (.lift _) fun date => .bind ?_ fun daily => .bind ?_ fun weekly =>
    .bind ?_ fun hourly => .pure _) fun _ => .pure _
  · refine .bind (.read _) fun found => ?_
    cases found with
    | some row =>
      exact .bind (rt.side_within fun _ => ⟨rfl, rfl, rfl, rfl, rfl, rfl, rfl, rfl⟩) fun _ => .pure _
    | none =>
      exact .bind (.lift _) fun yesterday => .bind (.read _) fun prior =>
        .bind (rt.side_within fun _ => ⟨rfl, rfl, rfl, rfl, rfl, rfl, rfl, rfl⟩) fun _ => grants _ _ _ _ _
  · refine .bind (.read _) fun found => .bind (.read _) fun previous =>
      .bind (rt.side_within fun db => ?_) fun _ => grants _ _ _ _ _
    split <;> exact ⟨rfl, rfl, rfl, rfl, rfl, rfl, rfl, rfl⟩
  · exact .ite (fun _ => .bind (grants _ _ _ _ _) fun rewards => .pure _) fun _ => .pure _

theorem observeEngagement_within (account online observed location policy : Value F) :
    Within (rt.Statements allowed true) (rt.observeEngagement account online observed location policy) := by
  refine .bind (.lift _) fun policy => .bind (.lift _) fun observed => .bind (.lift _) fun current =>
    .bind (rt.ensureAccount_within _) fun account => .bind (.read _) fun found => ?_
  cases found with
  | none =>
    exact .bind (.check _ _) fun _ => .bind (.check _ _) fun _ =>
      .bind (rt.side_within fun _ => ⟨rfl, rfl, rfl, rfl, rfl, rfl, rfl, rfl⟩) fun _ => .pure _
  | some row =>
    exact .ite (fun _ => .pure _) fun _ => .bind (.lift _) fun step =>
      .bind (rt.recordActivity_within free _ _ _ _) fun hours => .bind (.check _ _) fun _ =>
      .bind (.check _ _) fun _ =>
      .bind (rt.side_within fun _ => ⟨rfl, rfl, rfl, rfl, rfl, rfl, rfl, rfl⟩) fun _ => .pure _

end Operations

section Trade

variable {session after : Session F}

theorem placeOrder_within (account : Int) (offerId : Value F) (quantity : Int)
    (key now : String) (positive : 0 < quantity) :
    Within (rt.Steps allowed) (rt.placeOrder account offerId quantity key now) := by
  intro session value after success
  unfold placeOrder at success
  rw [Action.select_bind] at success
  cases found : session.db.offer? (rt.str offerId) with
  | none =>
    rw [found] at success
    exact (Action.valueError_ok.mp success).elim
  | some offer =>
    simp only [found, Action.refuse_ok, Action.uuid4_bind, lift_bind] at success
    obtain ⟨-, inStock, unit, -, items, -, rest⟩ := success
    simp only [bind_ok] at rest
    obtain ⟨_, first, inserted, rest⟩ := rest
    obtain ⟨_, second, entered, rest⟩ := rest
    obtain ⟨_, third, stocked, _, fourth, written, _, fifth, delivered, done⟩ := rest
    obtain ⟨fresh, firstDb⟩ := insertPurchase_ok inserted
    obtain ⟨entry, entered, secondDb⟩ := rt.appendUnlessZero_ok entered
    cases Action.execute_ok.mp stocked
    obtain ⟨-, rfl⟩ := lift_ok.mp written
    obtain ⟨freshDelivery, freshSource, fifthDb⟩ := insertDelivery_ok delivered
    cases pure_ok.mp done
    have named : strip ("purchase:" ++ (session.supply.uuid4 0).text) =
        "purchase:" ++ (session.supply.uuid4 0).text := strip_reference (by decide) (Uuid.shape _)
    rw [firstDb] at secondDb
    rw [firstDb, named] at entered
    have placed : rt.Entered session.db (-(offer.price * quantity))
        ("purchase:" ++ (session.supply.uuid4 0).text) entry :=
      Entered.congr (by rfl) (by rfl) (by rfl) entered
    simp only [secondDb] at freshDelivery freshSource fifthDb
    refine .single ?_
    rw [Steps, fifthDb]
    refine .order session.db offer _ entry _ {
      offered := ?_
      offerId := rfl
      offerVersion := rfl
      inStock := ?_
      positive := positive
      queued := rfl
      shape := Uuid.shape _
      fresh := fresh
      entered := placed
      sourceType := rfl
      sourceId := rfl
      waiting := rfl
      freshDelivery := by simpa [Db.addStock, Db.appendPurchase] using freshDelivery
      freshSource := by simpa [Db.addStock, Db.appendPurchase] using freshSource }
    · have same : offer.id = rt.str offerId := by simpa using List.find?_some found
      rw [same]
      exact found
    · intro stock limited
      rw [limited] at inStock
      simpa using inStock

theorem purchase_within (account offer quantity key : Value F) :
    Within (rt.Steps allowed) (rt.purchase account offer quantity key) := by
  refine .lift_bind fun quantity positive => .bind (.lift _) fun key =>
    .bind (rt.stepping rt.now_within) fun now =>
    .bind (rt.stepping (rt.ensureAccount_within _)) fun account =>
    .bind (.read _) fun existing => ?_
  cases existing with
  | some row => exact .pure _
  | none => exact rt.placeOrder_within _ _ _ _ _ (rt.positiveInt_ok positive).1

variable {row : Delivery}

theorem oldest_mem {rows : List Delivery} (first : oldest rows = some row) : row ∈ rows := by
  induction rows generalizing row with
  | nil => cases first
  | cons head rest ih =>
    rw [oldest] at first
    cases later : oldest rest with
    | none =>
      rw [later] at first
      cases first
      exact mem_cons_self
    | some other =>
      rw [later] at first
      simp only at first
      split at first
      · cases first
        exact mem_cons_of_mem _ (ih later)
      · cases first
        exact mem_cons_self

theorem claimable_move {status : DeliveryStatus} (claimable : status.claimable = true) :
    DeliveryMove status .processing := by
  cases status with
  | queued => exact .claim
  | retry => exact .reclaim
  | _ => cases claimable

theorem claimDelivery_within (delivery : Value F) : Within (rt.Steps allowed) (rt.claimDelivery delivery) := by
  intro session value after success
  unfold claimDelivery at success
  rw [Action.select_bind] at success
  cases found : (if rt.truthy delivery then
      session.db.deliveries.find? fun row => row.id = rt.str delivery && row.status.claimable
    else oldest (session.db.deliveries.filter fun row => row.status.claimable)) with
  | none =>
    rw [found] at success
    cases pure_ok.mp success
    exact .refl
  | some row =>
    rw [found] at success
    simp only [Action.secret_bind, Action.now_bind, Action.execute_bind, lift_bind, pure_ok] at success
    obtain ⟨rewards, -, same⟩ := success
    cases same
    have chosen : row ∈ session.db.deliveries ∧ row.status.claimable = true := by
      split at found
      · have holds := List.find?_some found
        simp only [Bool.and_eq_true] at holds
        exact ⟨List.mem_of_find?_eq_some found, holds.2⟩
      · exact mem_filter.mp (oldest_mem found)
    exact .single (.move _ row _ _ chosen.1 (claimable_move chosen.2) fun _ => ⟨rfl, rfl, rfl, rfl⟩)

theorem claimedDelivery_ok {deliveryId claimToken : Value F}
    (success : rt.claimedDelivery deliveryId claimToken session = .ok (row, after)) :
    session.db.delivery? (rt.str deliveryId) = some row ∧ row.status = .processing ∧ session = after := by
  unfold claimedDelivery at success
  rw [Action.select_bind] at success
  cases found : session.db.delivery? (rt.str deliveryId) with
  | none =>
    rw [found] at success
    exact (Action.valueError_ok.mp success).elim
  | some other =>
    simp only [found, Action.refuse_ok, lift_bind, ne_eq, not_not] at success
    obtain ⟨processing, held, -, rest⟩ := success
    split at rest
    · cases pure_ok.mp rest
      exact ⟨rfl, processing, rfl⟩
    · exact (Action.valueError_ok.mp rest).elim

theorem releaseDelivery_within (delivery token reason : Value F) :
    Within (rt.Steps allowed) (rt.releaseDelivery delivery token reason) := by
  intro session value after success
  simp only [releaseDelivery] at success
  obtain ⟨row, middle, claimed, rest⟩ := bind_ok.mp success
  obtain ⟨found, processing, rfl⟩ := rt.claimedDelivery_ok claimed
  simp only [Action.now_bind, Action.execute_bind, pure_ok] at rest
  cases rest
  exact .single (.move _ row _ _ (List.mem_of_find?_eq_some found) (processing ▸ .release)
    fun _ => ⟨rfl, rfl, rfl, rfl⟩)

theorem settlePurchase_ok {change : Purchase → Purchase} {value : Unit}
    (success : settlePurchase row change session = .ok (value, after)) :
    after.db = session.db.settle row change := by
  unfold settlePurchase at success
  unfold Db.settle
  by_cases source : row.sourceType = .purchase
  · rw [if_pos source] at success ⊢
    cases Action.execute_ok.mp success
    rfl
  · rw [if_neg source] at success ⊢
    cases pure_ok.mp success
    rfl

theorem completeDelivery_within (delivery token receipt : Value F) :
    Within (rt.Steps allowed) (rt.completeDelivery delivery token receipt) := by
  intro session value after success
  simp only [completeDelivery] at success
  obtain ⟨row, middle, claimed, rest⟩ := bind_ok.mp success
  obtain ⟨found, processing, rfl⟩ := rt.claimedDelivery_ok claimed
  simp only [Action.now_bind, lift_bind, Action.execute_bind] at rest
  obtain ⟨receiptJson, -, rest⟩ := rest
  obtain ⟨_, last, settled, same⟩ := bind_ok.mp rest
  cases pure_ok.mp same
  refine .single ?_
  rw [Steps, settlePurchase_ok settled]
  exact .deliver _ row _ _ (List.mem_of_find?_eq_some found) (by rw [processing]; rfl)
    (fun _ => ⟨rfl, rfl, rfl, rfl⟩) fun _ => rfl

theorem refund_ok {kind error now : String} {detail : String × Value F}
    {refunded : Bool} (success : rt.refund row kind detail error now session = .ok (refunded, after)) :
    rt.Refunded session.db row after.db := by
  unfold refund at success
  by_cases source : row.sourceType = .purchase
  · rw [if_neg (not_not.mpr source), Action.select_bind] at success
    cases found : session.db.purchase? row.sourceId with
    | none =>
      rw [found] at success
      cases pure_ok.mp success
      exact .missing found
    | some purchase =>
      rw [found] at success
      simp only at success
      by_cases settled : purchase.status = .refunded ∨ purchase.status = .delivered
      · rw [if_pos settled] at success
        cases pure_ok.mp success
        exact .closed purchase found (by rcases settled with s | s <;> simp [s])
      · rw [if_neg settled] at success
        obtain ⟨_, middle, entered, rest⟩ := bind_ok.mp success
        obtain ⟨entry, entered, middleDb⟩ := rt.appendUnlessZero_ok entered
        simp only [Action.execute_bind, pure_ok] at rest
        cases rest
        simp only [middleDb]
        refine .refund purchase entry _ source found ?_ entered fun _ => rfl
        cases status : purchase.status with
        | queued => rfl
        | delivered => exact absurd (.inr status) settled
        | refunded => exact absurd (.inl status) settled
  · rw [if_pos source] at success
    cases pure_ok.mp success
    exact .otherSource source

theorem failDelivery_ok {delivery token error definitive value : Value F}
    (success : rt.failDelivery delivery token error definitive session = .ok (value, after)) :
    (rt.truthy definitive = false ∧ rt.Step allowed session.db after.db) ∨
      (rt.truthy definitive = true ∧ rt.Failed session.db (rt.str delivery) after.db) := by
  simp only [failDelivery] at success
  obtain ⟨row, middle, claimed, rest⟩ := bind_ok.mp success
  obtain ⟨found, processing, rfl⟩ := rt.claimedDelivery_ok claimed
  have member := List.mem_of_find?_eq_some found
  have same : row.id = rt.str delivery := by simpa using List.find?_some found
  simp only [Action.now_bind] at rest
  cases final : rt.truthy definitive with
  | false =>
    simp only [final, Bool.not_false, if_true, Action.execute_bind, pure_ok] at rest
    cases rest
    exact .inl ⟨rfl, .move _ row _ _ member (processing ▸ .suspend) fun _ => ⟨rfl, rfl, rfl, rfl⟩⟩
  | true =>
    simp only [final, Bool.not_true, Bool.false_eq_true, if_false] at rest
    obtain ⟨refunded, last, closed, rest⟩ := bind_ok.mp rest
    have refunded := rt.refund_ok closed
    simp only [Action.execute_bind, pure_ok] at rest
    cases rest
    rw [same]
    exact .inr ⟨rfl, .fail last.db row _ member same (by rw [processing]; rfl) refunded fun _ => ⟨rfl, rfl, rfl, rfl⟩⟩

theorem resolveReconciliation_ok {delivery delivered receipt reason value : Value F}
    (success : rt.resolveReconciliation delivery delivered receipt reason session = .ok (value, after)) :
    (rt.truthy delivered = true ∧ rt.Step allowed session.db after.db) ∨
      (rt.truthy delivered = false ∧ rt.Failed session.db (rt.str delivery) after.db) := by
  unfold resolveReconciliation at success
  rw [Action.select_bind] at success
  cases found : session.db.deliveries.find? fun row =>
      row.id = rt.str delivery && decide (row.status = .reconciliation) with
  | none =>
    rw [found] at success
    exact (Action.valueError_ok.mp success).elim
  | some row =>
    rw [found] at success
    have member := List.mem_of_find?_eq_some found
    obtain ⟨same, waiting⟩ : row.id = rt.str delivery ∧ row.status = .reconciliation := by
      simpa using List.find?_some found
    have opened : row.status.open = true := by rw [waiting]; rfl
    simp only [Action.now_bind] at success
    cases outcome : rt.truthy delivered with
    | true =>
      simp only [outcome, if_true, lift_bind, Action.execute_bind] at success
      obtain ⟨receiptJson, -, rest⟩ := success
      obtain ⟨_, last, settled, done⟩ := bind_ok.mp rest
      cases pure_ok.mp done
      rw [settlePurchase_ok settled]
      exact .inl ⟨rfl, .deliver _ row _ _ member opened (fun _ => ⟨rfl, rfl, rfl, rfl⟩) fun _ => rfl⟩
    | false =>
      simp only [outcome, Bool.false_eq_true, if_false] at success
      obtain ⟨refunded, last, closed, rest⟩ := bind_ok.mp success
      have refunded := rt.refund_ok closed
      simp only [Action.execute_bind, pure_ok] at rest
      cases rest
      rw [same]
      exact .inr ⟨rfl, .fail last.db row _ member same opened refunded fun _ => ⟨rfl, rfl, rfl, rfl⟩⟩

end Trade

section Catalog

variable {session after : Session F}

theorem syncOffers_ok {now : String} {raws : List (Value F)} {ids : List String}
    (success : Transaction.each (rt.syncOffer now) raws session = .ok (ids, after)) :
    ∃ offers, rt.readOffers now raws = .ok offers ∧ ids = offers.map Offer.id ∧
      after.db = offers.foldl Db.upsertOffer session.db := by
  induction raws generalizing session ids with
  | nil =>
    cases pure_ok.mp success
    exact ⟨[], rfl, rfl, rfl⟩
  | cons raw rest ih =>
    rw [Transaction.each] at success
    obtain ⟨id, middle, first, success⟩ := bind_ok.mp success
    obtain ⟨others, last, remaining, same⟩ := bind_ok.mp success
    cases pure_ok.mp same
    simp only [syncOffer, lift_bind, Action.bind_bind, Action.execute_bind, pure_ok] at first
    obtain ⟨offer, read, -, same⟩ := first
    cases same
    obtain ⟨offers, readRest, rfl, changed⟩ := ih remaining
    refine ⟨offer :: offers, ?_, rfl, changed⟩
    rw [readOffers, read]
    simp only [bind, Except.bind, readRest]

abbrev Aside : Session F → Session F → Prop := fun first last => SameTrade first.db last.db

theorem bindText_within (value : Value F) : Within Aside (rt.bindText value) := by
  cases value with
  | int value => exact .bind (.check _ _) fun _ => .pure _
  | list items => exact .raise _
  | dict entries => exact .raise _
  | _ => exact .pure _

theorem syncTrack_within (now : String) (raw : Value F) : Within Aside (rt.syncTrack now raw) := by
  refine .ite (fun _ => .raise _) fun _ => .bind (.lift _) fun id => .bind (.lift _) fun version =>
    .bind (.lift _) fun levels => .bind (.lift _) fun name => .bind (.lift _) fun levelsJson =>
    .bind (rt.bindText_within _) fun startsAt => .bind (rt.bindText_within _) fun endsAt =>
    .bind (.write fun _ => ?_) fun _ => .pure _
  exact ⟨rfl, rfl, rfl, rfl, rfl, rfl⟩

theorem syncTracks_ok {now : String} {raws : List (Value F)} {keys : List (String × Int)}
    (success : Transaction.each (rt.syncTrack now) raws session = .ok (keys, after)) :
    SameTrade session.db after.db := by
  have path := Within.each (rt.syncTrack_within now) raws _ _ _ success
  clear success
  induction path with
  | refl => exact .refl _
  | tail _ edge ih => exact ih.trans edge

theorem upserted (db : Db F) (offers : List Offer) : offers.foldl Db.upsertOffer db =
      { db with offers := (offers.foldl Db.upsertOffer db).offers } := by
  induction offers generalizing db with
  | nil => rfl
  | cons offer rest ih =>
    rw [foldl_cons, ih]
    rfl

def Synced (db other : Db F) (offers : List Offer) : Prop :=
  SameTrade ((offers.foldl Db.upsertOffer db).disableOffers (offers.map Offer.id)) other

theorem syncConfig_ok {file : Option String} {value : Value F}
    (success : rt.syncConfig file session = .ok (value, after)) :
    ∃ config raws tracks offers, rt.loadConfig file = .ok (config, raws, tracks) ∧
      rt.readOffers (session.supply.now 0) raws = .ok offers ∧
      Synced session.db after.db offers := by
  simp only [syncConfig, lift_bind, Action.now_bind] at success
  obtain ⟨⟨config, raws, tracks⟩, loaded, rest⟩ := success
  obtain ⟨ids, second, offered, rest⟩ := bind_ok.mp rest
  obtain ⟨keys, third, tracked, rest⟩ := bind_ok.mp rest
  obtain ⟨offers, read, rfl, changed⟩ := rt.syncOffers_ok offered
  have aside := rt.syncTracks_ok tracked
  rw [changed] at aside
  simp only [Action.execute_bind, pure_ok] at rest
  cases rest
  refine ⟨config, raws, tracks, offers, loaded, read, aside.accounts, aside.wallets, aside.ledger,
    ?_, aside.purchases, aside.deliveries⟩
  rw [Db.disableOffers, aside.offers]
  rfl

end Catalog

def failure? : Operation F → Option String
  | .failDelivery delivery _ _ definitive =>
    if rt.truthy definitive then some (rt.str delivery) else none
  | .resolveReconciliation delivery delivered _ _ =>
    if rt.truthy delivered then none else some (rt.str delivery)
  | _ => none

def offersOf (supply : Supply) : Operation F → Option (List Offer)
  | .syncConfig file =>
    match rt.loadConfig file with
    | .ok (_, raws, _) => (rt.readOffers (supply.now 0) raws).toOption
    | .error _ => none
  | _ => none

inductive Effect (allowed : String → Prop) (call : Call F) (db : Db F) : Db F → Prop where
  | steps (other : Db F) (plain : rt.failure? call.operation = none)
      (silent : rt.offersOf call.supply call.operation = none)
      (path : Relation.ReflTransGen (rt.Step allowed) db other) : Effect allowed call db other
  | sync (other : Db F) (offers : List Offer) (plain : rt.failure? call.operation = none)
      (read : rt.offersOf call.supply call.operation = some offers)
      (synced : Synced db other offers) : Effect allowed call db other
  | fail (other : Db F) (id : String) (fails : rt.failure? call.operation = some id)
      (silent : rt.offersOf call.supply call.operation = none)
      (failed : rt.Failed db id other) : Effect allowed call db other

def Allows (allowed : String → Prop) : Operation F → Prop
  | .credit _ _ _ reference _ =>
    ∀ text, rt.identifier reference "reference" 256 = .ok text → allowed text
  | _ => True

theorem allows_all (operation : Operation F) : rt.Allows (fun _ => True) operation := by
  cases operation <;> simp [Allows]

theorem path {session after : Session F} {body : Action F Unit}
    (inside : Within (rt.Steps allowed) body) (success : body session = .ok ((), after)) :
    Relation.ReflTransGen (rt.Step allowed) session.db after.db := by
  have path := inside _ _ _ success
  clear success
  induction path with
  | refl => exact .refl
  | tail _ edge ih => exact ih.tail edge

theorem perform_ok {call : Call F} {db : Db F} {after : Session F}
    (free : ∀ text, ¬ Reserved text → allowed text) (allows : rt.Allows allowed call.operation)
    (success : rt.perform call.operation ⟨db, call.supply⟩ = .ok ((), after)) :
    rt.Effect allowed call db after.db := by
  obtain ⟨operation, supply⟩ := call
  have steps (plain : rt.failure? operation = none) (silent : rt.offersOf supply operation = none)
      (inside : Within (rt.Steps allowed) (rt.perform operation)) :
      rt.Effect allowed ⟨operation, supply⟩ db after.db :=
    .steps _ plain silent (rt.path inside success)
  cases operation with
  | syncConfig file =>
    obtain ⟨_, _, done, same⟩ := bind_ok.mp success
    cases pure_ok.mp same
    obtain ⟨config, raws, tracks, offers, loaded, read, synced⟩ := rt.syncConfig_ok done
    refine .sync _ offers rfl ?_ synced
    simp only [offersOf, loaded]
    rw [read]
    rfl
  | credit => exact steps rfl rfl (rt.stepping (.bind (rt.credit_within allows) fun _ => .pure _))
  | createLinkCode => exact steps rfl rfl (rt.stepping (.bind (rt.createLinkCode_within _ _) fun _ => .pure _))
  | redeemLinkCode => exact steps rfl rfl (rt.stepping (.bind (rt.redeemLinkCode_within _ _) fun _ => .pure _))
  | purchase => exact steps rfl rfl (.bind (rt.purchase_within _ _ _ _) fun _ => .pure _)
  | claimDelivery => exact steps rfl rfl (.bind (rt.claimDelivery_within _) fun _ => .pure _)
  | completeDelivery =>
    exact steps rfl rfl (.bind (rt.completeDelivery_within _ _ _) fun _ => .pure _)
  | releaseDelivery =>
    exact steps rfl rfl (.bind (rt.releaseDelivery_within _ _ _) fun _ => .pure _)
  | failDelivery delivery token error definitive =>
    obtain ⟨_, _, done, same⟩ := bind_ok.mp success
    cases pure_ok.mp same
    rcases rt.failDelivery_ok done with ⟨suspends, step⟩ | ⟨final, failed⟩
    · exact .steps _ (by simp [failure?, suspends]) rfl (.single step)
    · exact .fail _ _ (by simp [failure?, final]) rfl failed
  | resolveReconciliation delivery delivered receipt reason =>
    obtain ⟨_, _, done, same⟩ := bind_ok.mp success
    cases pure_ok.mp same
    rcases rt.resolveReconciliation_ok done with ⟨delivers, step⟩ | ⟨final, failed⟩
    · exact .steps _ (by simp [failure?, delivers]) rfl (.single step)
    · exact .fail _ _ (by simp [failure?, final]) rfl failed
  | ingestWebhook =>
    exact steps rfl rfl (rt.stepping (.bind (rt.ingestWebhook_within free _ _ _ _ _) fun _ => .pure _))
  | observePlaytime =>
    exact steps rfl rfl (rt.stepping (.bind (rt.observePlaytime_within free _ _ _ _ _ _) fun _ => .pure _))
  | observeEngagement =>
    exact steps rfl rfl (rt.stepping (.bind (rt.observeEngagement_within free _ _ _ _ _) fun _ => .pure _))
  | addTrackProgress =>
    exact steps rfl rfl (rt.stepping (.bind (rt.addTrackProgress_within _ _ _ _) fun _ => .pure _))
  | claimTrackLevel =>
    exact steps rfl rfl (rt.stepping (.bind (rt.claimTrackLevel_within _ _ _) fun _ => .pure _))

theorem apply_effect {call : Call F} {db : Db F} (free : ∀ text, ¬ Reserved text → allowed text)
    (allows : rt.Allows allowed call.operation) :
    rt.apply db call = db ∨ rt.Effect allowed call db (rt.apply db call) := by
  unfold apply
  cases outcome : rt.perform call.operation ⟨db, call.supply⟩ with
  | error why =>
    rw [commit_error outcome]
    exact .inl rfl
  | ok pair =>
    obtain ⟨value, after⟩ := pair
    rw [commit_ok outcome]
    exact .inr (rt.perform_ok free allows outcome)

end Platform

end Dash.Community
