import Dash.Community.Growth
import Dash.Python.Reencoding

/-! Replayed credits and webhook deliveries. -/

set_option autoImplicit false

namespace Dash.Community

open Dash.Python Dash.Foundation List
open Foundation.Transaction (bind_error bind_of_ok bind_ok check_bind check_true_bind commit_error
  lift_bind lift_value_bind pure_ok)

variable {F : Type}

/-- What `credit` returns for an entry it appended. -/
def LedgerRow.credited (row : LedgerRow) : Value F :=
  .object [("id", .str row.id), ("balance", .int row.balanceAfter), ("delta", .int row.delta),
    ("entryHash", .str row.entryHash), ("idempotent", .bool false)]

/-- What `credit` returns for an entry it found. -/
def LedgerRow.replayed (row : LedgerRow) : Value F :=
  .object [("id", .str row.id), ("balance_after", .int row.balanceAfter), ("delta", .int row.delta),
    ("entry_hash", .str row.entryHash), ("balance", .int row.balanceAfter),
    ("idempotent", .bool true)]

def Db.posted (db : Db F) (reference : String) : Option LedgerRow :=
  db.ledger.find? fun row => row.reference = reference

variable {row : LedgerRow}

theorem entry_mem {db : Db F} {reference : String}
    (found : db.posted reference = some row) : row ∈ db.ledger ∧ row.reference = reference :=
  ⟨List.mem_of_find?_eq_some found, by simpa using List.find?_some found⟩

theorem entry_post {db : Db F} (fresh : db.posted row.reference = none) :
    (db.post row).posted row.reference = some row := by
  have appended : (db.post row).ledger = db.ledger ++ [row] := rfl
  rw [Db.posted, appended, List.find?_append, ← Db.posted, fresh]
  simp

namespace Platform

variable {rt : Platform F} {session after : Session F}

section Credit

variable {duneAccountId amount kind reference metadata value : Value F}

theorem credit_ok (success : rt.credit duneAccountId amount kind reference metadata session = .ok (value, after)) :
    ∃ account gain now, rt.accountId duneAccountId = .ok account ∧
      rt.positiveInt amount "amount" MAX_LEDGER_AMOUNT = .ok gain ∧
      ((∃ row, session.db.posted (rt.str reference) = some row ∧ value = row.replayed ∧
          after.db = session.db.openAccount account now) ∨
        ∃ row, session.db.posted (rt.str reference) = none ∧
          rt.identifier reference "reference" 256 = .ok row.reference ∧ row.delta = gain ∧
          row.reference ∉ session.db.ledger.map LedgerRow.reference ∧ value = row.credited ∧
          after.db = (session.db.openAccount account now).post row) := by
  obtain ⟨gain, positive, success⟩ := lift_bind.mp success
  obtain ⟨account, middle, ensured, rest⟩ := bind_ok.mp success
  obtain ⟨parsed, now, opened⟩ := rt.ensureAccount_ok ensured
  have ledger : middle.db.ledger = session.db.ledger := by
    rw [opened]
    rfl
  refine ⟨account, gain, now, parsed, positive, ?_⟩
  rw [Action.select_bind] at rest
  cases found : session.db.posted (rt.str reference) with
  | some row =>
    have same : (middle.db.ledger.find? fun row => row.reference = rt.str reference) = some row :=
      ledger ▸ found
    rw [same] at rest
    obtain ⟨rfl, rfl⟩ := Prod.mk.inj (pure_ok.mp rest)
    exact .inl ⟨row, rfl, rfl, opened⟩
  | none =>
    have same : (middle.db.ledger.find? fun row => row.reference = rt.str reference) = none := ledger ▸ found
    rw [same] at rest
    obtain ⟨entry, last, appended, done⟩ := bind_ok.mp rest
    obtain ⟨rfl, rfl⟩ := Prod.mk.inj (pure_ok.mp done)
    obtain ⟨row, -, written, left⟩ := rt.appendLedger_ok appended
    have fresh := written.fresh
    rw [ledger] at fresh
    rw [opened] at left
    rw [written.entry]
    exact .inr ⟨row, rfl, written.reference, written.amount, fresh, rfl, left⟩

theorem credit_found {account gain : Int} {row : LedgerRow} (kind metadata : Value F) (db : Db F) (supply : Supply)
    (positive : rt.positiveInt amount "amount" MAX_LEDGER_AMOUNT = .ok gain)
    (parsed : rt.accountId duneAccountId = .ok account)
    (found : db.posted (rt.str reference) = some row) :
    ∃ last, rt.credit duneAccountId amount kind reference metadata ⟨db, supply⟩ =
        .ok (row.replayed, last) ∧ last.db = db.openAccount account (supply.now 0) := by
  refine ⟨⟨db.openAccount account (supply.now 0), { supply with now := fun index => supply.now (index + 1) }⟩, ?_, rfl⟩
  refine lift_bind.mpr ⟨gain, positive, bind_ok.mpr ⟨account, _, lift_bind.mpr ⟨account, parsed, rfl⟩, ?_⟩⟩
  rw [Action.select_bind]
  have same : ((db.openAccount account (supply.now 0)).ledger.find?
      fun row => row.reference = rt.str reference) = some row := found
  simp only [same]
  rfl

theorem identifier_strip {field text : String} {maximum : Nat}
    (named : rt.identifier reference field maximum = .ok text) : text = strip (rt.str reference) := by
  obtain ⟨same, nonempty⟩ := rt.identifier_ok named
  cases holds : rt.truthy reference with
  | true => simpa [Runtime.orElse, holds] using same
  | false =>
    refine absurd (same.trans ?_) nonempty
    simp only [Runtime.orElse, holds, Bool.false_eq_true, if_false]
    exact strip_empty

/-- What a credit that returned leaves: an entry under the stripped reference, the account
with its wallet, and the entry is the one found when the reference is stripped itself. -/
theorem credit_entry (plain : ∀ row ∈ session.db.ledger, strip row.reference = row.reference)
    (success : rt.credit duneAccountId amount kind reference metadata session = .ok (value, after)) :
    ∃ row ∈ after.db.ledger, (value = row.credited ∨ value = row.replayed) ∧ row.reference = strip (rt.str reference) ∧
      (strip (rt.str reference) = rt.str reference → after.db.posted (rt.str reference) = some row) := by
  obtain ⟨account, gain, now, -, -, found | appended⟩ := credit_ok success
  · obtain ⟨row, found, rfl, left⟩ := found
    obtain ⟨member, named⟩ := entry_mem found
    rw [left]
    refine ⟨row, member, .inr rfl, ?_, fun _ => found⟩
    rw [← named, plain row member]
  · obtain ⟨row, -, named, -, fresh, rfl, left⟩ := appended
    have stripped := identifier_strip named
    rw [left]
    refine ⟨row, mem_append_right _ mem_cons_self, .inl rfl, stripped, fun same => ?_⟩
    have missing : (session.db.openAccount account now).posted row.reference = none := by
      refine List.find?_eq_none.mpr fun other member => ?_
      simpa using fun clash : other.reference = row.reference =>
        fresh (clash ▸ mem_map_of_mem member)
    have found := entry_post missing
    rwa [stripped, same] at found

/-- A credit that returned read its arguments and left the account open. -/
theorem credit_opens (success : rt.credit duneAccountId amount kind reference metadata session = .ok (value, after)) :
    ∃ account gain, rt.accountId duneAccountId = .ok account ∧
      rt.positiveInt amount "amount" MAX_LEDGER_AMOUNT = .ok gain ∧
      account ∈ after.db.accounts.map Account.duneAccountId ∧
      account ∈ after.db.wallets.map Wallet.duneAccountId := by
  obtain ⟨account, gain, now, parsed, positive, found | appended⟩ := credit_ok success
  · obtain ⟨row, -, -, left⟩ := found
    rw [left]
    exact ⟨account, gain, parsed, positive, open_accounts.mpr (.inr rfl), open_wallets.mpr (.inr rfl)⟩
  · obtain ⟨row, -, named, -, -, -, left⟩ := appended
    have plain : strip row.reference = row.reference := by
      rw [identifier_strip named, strip_strip]
    have grows : Grows false (session.db.openAccount account now)
        ((session.db.openAccount account now).post row) := .post _ plain
    rw [left]
    exact ⟨account, gain, parsed, positive, grows.accounts (open_accounts.mpr (.inr rfl)),
      grows.wallets (open_wallets.mpr (.inr rfl))⟩

end Credit

section Credit

variable (rt)

/-- Replaying a credit returns its entry and changes nothing, at any later time, exactly
when the reference is given without surrounding white space. -/
theorem credit_replays_iff (calls : List (Call F)) (supply : Supply)
    (duneAccountId amount kind reference metadata : Value F) {value : Value F} {after : Session F}
    (success : rt.credit duneAccountId amount kind reference metadata
      ⟨rt.run (.empty F) calls, supply⟩ = .ok (value, after)) :
    ∃ row ∈ after.db.ledger, (value = row.credited ∨ value = row.replayed) ∧
      ∀ later again, (∃ last, rt.credit duneAccountId amount kind reference metadata
          ⟨rt.run after.db later, again⟩ = .ok (row.replayed, last) ∧
          last.db = rt.run after.db later) ↔
        strip (rt.str reference) = rt.str reference := by
  have plain : ∀ row ∈ (rt.run (.empty F) calls).ledger, strip row.reference = row.reference :=
    fun row member => rt.run_stripped member
  have opened : Grows true (rt.run (.empty F) calls) after.db :=
    grows_of_ok (rt.credit_grows duneAccountId amount kind reference metadata) success
  obtain ⟨row, member, returned, named, found⟩ := credit_entry plain success
  refine ⟨row, member, returned, fun later again => ?_⟩
  have grows := rt.run_grows after.db later
  constructor
  · rintro ⟨last, again, -⟩
    obtain ⟨_, _, _, -, -, found | appended⟩ := credit_ok again
    · obtain ⟨other, found, -, -⟩ := found
      obtain ⟨present, same⟩ := entry_mem found
      rw [← same]
      rcases (opened.trans grows).stripped other present with before | stripped
      · exact plain other before
      · exact stripped
    · obtain ⟨other, -, namedToo, -, fresh, -⟩ := appended
      refine absurd ?_ fresh
      rw [identifier_strip namedToo, ← named]
      exact mem_map_of_mem (grows.ledger.subset member)
  · intro unpadded
    obtain ⟨account, gain, parsed, positive, known, funded⟩ := credit_opens success
    obtain ⟨last, returned, left⟩ := credit_found kind metadata (rt.run after.db later)
      again positive parsed (grows.ledger.find?_eq_some (found unpadded))
    exact ⟨last, returned, left.trans (openAccount_again (grows.accounts known) (grows.wallets funded) _)⟩

end Credit

end Platform

/-- A delivered event as `ingest_webhook` reads it; the payload is its canonical text. -/
structure WebhookEvent where
  (provider eventId : String)
  (account amount : Int)
  payload : String
  deriving DecidableEq

def WebhookEvent.reference (event : WebhookEvent) : String :=
  "webhook:" ++ (event.provider ++ ":" ++ event.eventId)

def Db.receipt? (db : Db F) (provider eventId : String) : Option WebhookReceipt :=
  db.webhookReceipts.find? fun row => row.provider = provider && row.eventId = eventId

def WebhookReceipt.replayed (row : WebhookReceipt) : Value F :=
  .object [("ok", .bool true), ("provider", .str row.provider), ("eventId", .str row.eventId),
    ("duneAccountId", .int row.duneAccountId), ("amount", .int row.amount),
    ("ledgerId", .str row.ledgerId), ("idempotent", .bool true)]

def WebhookReceipt.credited (row : WebhookReceipt) (balance : Int) : Value F :=
  .object [("ok", .bool true), ("provider", .str row.provider), ("eventId", .str row.eventId),
    ("duneAccountId", .int row.duneAccountId), ("amount", .int row.amount),
    ("ledgerId", .str row.ledgerId), ("balance", .int balance), ("idempotent", .bool false)]

namespace Platform

variable (rt : Platform F)

def webhookEvent (provider eventId duneAccountId amount payload : Value F) :
    Result WebhookEvent := do
  let provider ← rt.identifier provider "provider" 32
  let eventId ← rt.identifier eventId "eventId" 128
  let amount ← rt.positiveInt amount "amount" MAX_LEDGER_AMOUNT
  let payload ← rt.canonical payload
  let account ← rt.accountId duneAccountId
  .ok ⟨rt.lower provider, eventId, account, amount, payload⟩

structure Creditable (db : Db F) (event : WebhookEvent) : Prop where
  kind : ∃ text, rt.identifier (.str ("webhook-" ++ event.provider)) "kind" 64 = .ok text
  reference : ∃ text, rt.identifier (.str event.reference) "reference" 256 = .ok text ∧
    text ∉ db.ledger.map LedgerRow.reference
  fits : db.balance event.account + event.amount ≤ 9223372036854775807

variable {rt} {session after : Session F} {provider eventId duneAccountId amount payload : Value F}
  {event : WebhookEvent}

theorem webhookEvent_ok (read : rt.webhookEvent provider eventId duneAccountId amount payload = .ok event) :
    ∃ name, rt.identifier provider "provider" 32 = .ok name ∧ event.provider = rt.lower name ∧
      rt.identifier eventId "eventId" 128 = .ok event.eventId ∧
      rt.positiveInt amount "amount" MAX_LEDGER_AMOUNT = .ok event.amount ∧
      rt.canonical payload = .ok event.payload ∧ rt.accountId duneAccountId = .ok event.account := by
  simp only [webhookEvent, result_bind] at read
  obtain ⟨name, named, id, identified, gain, positive, text, written, account, parsed, same⟩ := read
  cases Except.ok.inj same
  exact ⟨name, named, rfl, identified, positive, written, parsed⟩

theorem insertLedgerRow_run {row : LedgerRow} (freshId : row.id ∉ session.db.ledger.map LedgerRow.id)
    (fresh : row.reference ∉ session.db.ledger.map LedgerRow.reference)
    (freshHash : row.entryHash ∉ session.db.ledger.map LedgerRow.entryHash)
    (known : row.duneAccountId ∈ session.db.accounts.map Account.duneAccountId) :
    insertLedgerRow row session = .ok ((), { session with db := session.db.appendLedgerRow row }) := by
  have opened : (session.db.accounts.any fun other => other.duneAccountId = row.duneAccountId) = true := by
    simpa using known
  simp only [insertLedgerRow, Action.select_bind, Action.unique_bind, Action.accountExists_bind,
    Action.execute_ok, decide_eq_true_eq]
  exact ⟨freshId, fresh, freshHash, opened, trivial⟩

/-- An entry is appended when its arguments are read, the wallet has room for it and none of
its keys is taken. -/
theorem appendLedger_run {account delta : Int} {kind reference metadata loaded : Value F}
    {kindText text json material : String}
    (sized : delta ≠ 0 ∧ (delta.natAbs : Int) ≤ MAX_LEDGER_AMOUNT)
    (named : rt.identifier reference "reference" 256 = .ok text)
    (kinded : rt.identifier kind "kind" 64 = .ok kindText)
    (solvent : 0 ≤ session.db.balance account + delta)
    (fits : session.db.balance account + delta ≤ 9223372036854775807)
    (written : rt.canonical (rt.orElse metadata (.dict [])) = .ok json)
    (read : rt.loads json = .ok loaded)
    (encoded : rt.material (session.supply.uuid4 0).text account delta
      (session.db.balance account + delta) kindText text loaded (headHash session.db.ledger)
      (session.supply.now 0) = .ok material)
    (freshId : (session.supply.uuid4 0).text ∉ session.db.ledger.map LedgerRow.id)
    (fresh : text ∉ session.db.ledger.map LedgerRow.reference)
    (freshHash : rt.sha256 material ∉ session.db.ledger.map LedgerRow.entryHash)
    (known : account ∈ session.db.accounts.map Account.duneAccountId) :
    ∃ entry after, rt.appendLedger account delta kind reference metadata session = .ok (entry, after) := by
  unfold appendLedger
  rw [check_true_bind (by simpa using sized), named, kinded]
  simp only [lift_value_bind, Action.select_bind]
  rw [check_true_bind (by simpa using solvent)]
  simp only [Action.select_bind, Action.uuid4_bind, Action.now_bind]
  rw [written]
  simp only [lift_value_bind]
  rw [read]
  simp only [lift_value_bind]
  rw [encoded]
  simp only [lift_value_bind]
  have bounded : (decide (-9223372036854775808 ≤ session.db.balance account + delta) &&
      decide (session.db.balance account + delta ≤ 9223372036854775807)) = true := by
    simp only [Bool.and_eq_true, decide_eq_true_eq]
    omega
  rw [Action.bind, check_true_bind bounded]
  simp only [Action.execute_bind]
  rw [bind_of_ok (insertLedgerRow_run freshId fresh freshHash known)]
  exact ⟨_, _, rfl⟩

/-- The first delivery of an event: its entry, its receipt and what is returned. -/
structure Received (rt : Platform F) (db : Db F) (event : WebhookEvent) (row : LedgerRow)
    (receipt : WebhookReceipt) (value : Value F) (after : Db F) : Prop where
  account : row.duneAccountId = event.account
  delta : row.delta = event.amount
  balance : row.balanceAfter = db.balance event.account + event.amount
  provider : receipt.provider = event.provider
  eventId : receipt.eventId = event.eventId
  digest : receipt.payloadSha256 = rt.sha256 event.payload
  returned : value = receipt.credited row.balanceAfter
  left : ∃ now, after = ((db.openAccount event.account now).post row).appendWebhook receipt

theorem recordWebhook_ok {value : Value F} (parsed : rt.accountId duneAccountId = .ok event.account)
    (success : rt.recordWebhook event.provider event.eventId duneAccountId event.amount
      (rt.sha256 event.payload) session = .ok (value, after)) :
    (∃ row receipt, rt.Received session.db event row receipt value after.db) ∧ rt.Creditable session.db event := by
  obtain ⟨account, middle, ensured, rest⟩ := bind_ok.mp success
  obtain ⟨parsedToo, now, opened⟩ := rt.ensureAccount_ok ensured
  cases Except.ok.inj (parsed.symm.trans parsedToo)
  obtain ⟨entry, last, appended, rest⟩ := bind_ok.mp rest
  obtain ⟨row, -, written, left⟩ := rt.appendLedger_ok appended
  simp only [Action.now_bind, Action.execute_bind, pure_ok] at rest
  obtain ⟨rfl, rfl⟩ := Prod.mk.inj rest
  have balance := written.balance
  rw [opened, balance_open] at balance
  have fresh := written.fresh
  rw [opened] at fresh
  constructor
  · refine ⟨row, ⟨event.provider, event.eventId, rt.sha256 event.payload, event.account,
      event.amount, entry.id, last.supply.now 0⟩, written.owner, written.amount, balance, rfl, rfl,
      rfl, ?_, now, ?_⟩
    · rw [written.entry]
      rfl
    · simp only [left, opened]
  · exact ⟨⟨_, written.kind⟩, ⟨_, written.reference, fresh⟩, balance ▸ written.fits⟩

/-- The metadata and the hashed text of an entry for an event can be written. -/
theorem webhookMaterial_ok (digest id : String) (account delta after : Int)
    (kind reference previousHash createdAt : String) :
    ∃ json loaded material, rt.canonical (rt.orElse (.object [("payloadSha256", .str digest)]) (.dict [])) = .ok json ∧
      rt.loads json = .ok loaded ∧
      rt.material id account delta after kind reference loaded previousHash createdAt =
        .ok material := by
  have written : rt.canonical (.object [("payloadSha256", .str digest)]) = .ok _ := rfl
  have plain : Value.Plain (.object [("payloadSha256", .str digest)] : Value F) :=
    plain_texts [("payloadSha256", digest)] (by simp)
  obtain ⟨document, -, loaded, again⟩ := rt.dumps_loads plain written
  have members : ∀ field ∈ ([("id", .str id), ("account", .int account), ("delta", .int delta),
      ("balanceAfter", .int after), ("kind", .str kind), ("reference", .str reference),
      ("metadata", rt.ofDocument document), ("previousHash", .str previousHash),
      ("createdAt", .str createdAt)] : List (String × Value F)),
      ∃ written, rt.jsonable field.2 = .ok written := by
    simp [Runtime.jsonable, again]
  obtain ⟨fields, encoded⟩ := rt.jsonable_object members
  exact ⟨_, _, _, written, loaded, rt.dumps_ok.mpr ⟨fields, encoded, rfl⟩⟩

/-- No entry sealed under the next id has a hash that the ledger holds, and the id is new. -/
structure Fresh (rt : Platform F) (db : Db F) (supply : Supply) : Prop where
  id : (supply.uuid4 0).text ∉ db.ledger.map LedgerRow.id
  hash : ∀ row, rt.Sealed row → row.id = (supply.uuid4 0).text → row.entryHash ∉ db.ledger.map LedgerRow.entryHash

variable {db : Db F}

theorem recordWebhook_run {supply : Supply} (balanced : rt.Balanced db)
    (fresh : rt.Fresh db supply) (parsed : rt.accountId duneAccountId = .ok event.account)
    (positive : 0 < event.amount ∧ event.amount ≤ MAX_LEDGER_AMOUNT)
    (creditable : rt.Creditable db event) :
    ∃ value after, rt.recordWebhook event.provider event.eventId duneAccountId event.amount
      (rt.sha256 event.payload) ⟨db, supply⟩ = .ok (value, after) := by
  obtain ⟨⟨kind, kinded⟩, ⟨text, named, unused⟩, fits⟩ := creditable
  let opened : Session F := ⟨db.openAccount event.account (supply.now 0),
    { supply with now := fun index => supply.now (index + 1) }⟩
  have balance : opened.db.balance event.account = db.balance event.account := balance_open _ _ _ _
  obtain ⟨json, loaded, material, written, read, encoded⟩ := rt.webhookMaterial_ok
    (rt.sha256 event.payload) (supply.uuid4 0).text event.account event.amount
    (opened.db.balance event.account + event.amount) kind text (headHash db.ledger) (supply.now 1)
  have solvent := balanced.solvent event.account
  have sized : event.amount ≠ 0 ∧ (event.amount.natAbs : Int) ≤ MAX_LEDGER_AMOUNT := by omega
  have unseen := fresh.hash ⟨(supply.uuid4 0).text, event.account, event.amount,
    opened.db.balance event.account + event.amount, kind, text, json, headHash db.ledger,
    rt.sha256 material, supply.now 1⟩ ⟨loaded, material, read, encoded, rfl⟩ rfl
  obtain ⟨entry, after, appended⟩ : ∃ entry after, rt.appendLedger event.account event.amount
      (.str ("webhook-" ++ event.provider)) (.str event.reference)
      (.object [("payloadSha256", .str (rt.sha256 event.payload))]) opened = .ok (entry, after) :=
    appendLedger_run sized named kinded (by omega) (by omega) written read encoded fresh.id unused
      unseen (open_accounts.mpr (.inr rfl))
  have ensured : rt.ensureAccount duneAccountId ⟨db, supply⟩ = .ok (event.account, opened) :=
    lift_bind.mpr ⟨event.account, parsed, rfl⟩
  rw [WebhookEvent.reference] at appended
  rw [recordWebhook, bind_of_ok ensured, bind_of_ok appended]
  exact ⟨_, _, rfl⟩

/-- What `ingest_webhook` does with an event it has read. -/
theorem ingestWebhook_eq (session : Session F)
    (read : rt.webhookEvent provider eventId duneAccountId amount payload = .ok event) :
    rt.ingestWebhook provider eventId duneAccountId amount payload session =
      match session.db.receipt? event.provider event.eventId with
      | some row =>
        if row.payloadSha256 ≠ rt.sha256 event.payload then
          .error ⟨.valueError, "webhook event id was reused with a different payload"⟩
        else .ok (row.replayed, session)
      | none => rt.recordWebhook event.provider event.eventId duneAccountId event.amount
          (rt.sha256 event.payload) session := by
  obtain ⟨name, named, lowered, identified, positive, written, -⟩ := webhookEvent_ok read
  rw [lowered]
  unfold ingestWebhook
  rw [named, identified, positive, written]
  simp only [lift_value_bind, Action.select_bind]
  cases found : session.db.receipt? (rt.lower name) event.eventId with
  | none =>
    rw [Db.receipt?] at found
    simp only [found]
  | some row =>
    rw [Db.receipt?] at found
    simp only [found]
    split
    · rfl
    · rfl

/-- From now on the event is answered from its receipt, or refused with another payload. -/
def Reported (rt : Platform F) (db : Db F) (event : WebhookEvent) (receipt : WebhookReceipt) : Prop :=
  ∀ later again provider eventId duneAccountId amount payload other,
    rt.webhookEvent provider eventId duneAccountId amount payload = .ok other →
    other.provider = event.provider → other.eventId = event.eventId → (other.payload = event.payload →
        rt.ingestWebhook provider eventId duneAccountId amount payload ⟨rt.run db later, again⟩ =
          .ok (receipt.replayed, ⟨rt.run db later, again⟩)) ∧
      (rt.sha256 other.payload ≠ rt.sha256 event.payload →
        rt.ingestWebhook provider eventId duneAccountId amount payload ⟨rt.run db later, again⟩ =
          .error ⟨.valueError, "webhook event id was reused with a different payload"⟩ ∧
        rt.apply (rt.run db later)
          ⟨.ingestWebhook provider eventId duneAccountId amount payload, again⟩ = rt.run db later)

theorem answered {receipt : WebhookReceipt} (found : db.receipt? event.provider event.eventId = some receipt)
    (digest : receipt.payloadSha256 = rt.sha256 event.payload) : rt.Reported db event receipt := by
  intro later again provider eventId duneAccountId amount payload other read sameProvider sameId
  have kept : (rt.run db later).receipt? event.provider event.eventId = some receipt :=
    (rt.run_grows db later).receipts.find?_eq_some found
  have answer := ingestWebhook_eq ⟨rt.run db later, again⟩ read
  simp only [sameProvider, sameId, kept, digest] at answer
  constructor
  · intro same
    rw [same] at answer
    exact answer.trans (if_neg (not_not.mpr rfl))
  · intro distinct
    have refused := answer.trans (if_pos (Ne.symm distinct))
    have raised : rt.perform (.ingestWebhook provider eventId duneAccountId amount payload)
        ⟨rt.run db later, again⟩ = .error _ :=
      bind_error.mpr (.inl refused)
    exact ⟨refused, congrArg Session.db (commit_error raised)⟩

/-- The first delivery of an event is credited, and answered from its receipt ever after,
exactly when the ledger takes an entry for it. -/
theorem received_iff {supply : Supply} (balanced : rt.Balanced db)
    (read : rt.webhookEvent provider eventId duneAccountId amount payload = .ok event)
    (new : db.receipt? event.provider event.eventId = none) (fresh : rt.Fresh db supply) :
    (∃ value after row receipt, rt.ingestWebhook provider eventId duneAccountId amount payload ⟨db, supply⟩ =
        .ok (value, after) ∧
      rt.Received db event row receipt value after.db ∧ rt.Reported after.db event receipt) ↔
      rt.Creditable db event := by
  obtain ⟨name, -, -, -, positive, -, parsed⟩ := webhookEvent_ok read
  have first := ingestWebhook_eq ⟨db, supply⟩ read
  simp only [new] at first
  rw [first]
  constructor
  · rintro ⟨value, after, row, receipt, success, -, -⟩
    exact (recordWebhook_ok parsed success).2
  · intro creditable
    obtain ⟨value, after, success⟩ := recordWebhook_run balanced fresh parsed (rt.positiveInt_ok positive) creditable
    obtain ⟨⟨row, receipt, received⟩, -⟩ := recordWebhook_ok parsed success
    refine ⟨value, after, row, receipt, success, received, answered ?_ received.digest⟩
    obtain ⟨now, left⟩ := received.left
    have appended : after.db.webhookReceipts = db.webhookReceipts ++ [receipt] := by
      rw [left]
      rfl
    rw [Db.receipt?] at new
    rw [Db.receipt?, appended, List.find?_append, new]
    simp [received.provider, received.eventId]

/-- Replays of credits and of webhook events, from any database a run reaches. -/
theorem replays_iff (rt : Platform F) (calls : List (Call F)) (supply : Supply) :
    (∀ duneAccountId amount kind reference metadata value after,
      rt.credit duneAccountId amount kind reference metadata ⟨rt.run (.empty F) calls, supply⟩ = .ok (value, after) →
        ∃ row ∈ after.db.ledger, (value = row.credited ∨ value = row.replayed) ∧
          ∀ later again, (∃ last, rt.credit duneAccountId amount kind reference metadata
              ⟨rt.run after.db later, again⟩ = .ok (row.replayed, last) ∧
              last.db = rt.run after.db later) ↔
            strip (rt.str reference) = rt.str reference) ∧
    ∀ provider eventId duneAccountId amount payload event,
      rt.webhookEvent provider eventId duneAccountId amount payload = .ok event →
      (rt.run (.empty F) calls).receipt? event.provider event.eventId = none →
      rt.Fresh (rt.run (.empty F) calls) supply →
      ((∃ value after row receipt, rt.ingestWebhook provider eventId duneAccountId amount payload
          ⟨rt.run (.empty F) calls, supply⟩ = .ok (value, after) ∧
        rt.Received (rt.run (.empty F) calls) event row receipt value after.db ∧
        rt.Reported after.db event receipt) ↔ rt.Creditable (rt.run (.empty F) calls) event) :=
  ⟨fun _ _ _ _ _ _ _ success => rt.credit_replays_iff calls supply _ _ _ _ _ success,
    fun _ _ _ _ _ _ read new fresh => received_iff (rt.balanced_run calls) read new fresh⟩

end Platform

def raised {ε α : Type} : Except ε α → Option ε
  | .error why => some why
  | .ok _ => none

def gift (reference : String) (db : Db FloatText) (id : Uuid) : Result (Value FloatText × Session FloatText) :=
  plain.credit (.int 7) (.int 5) (.str "gift") (.str reference) .none ⟨db, supplyOf "2024-01-01T00:00:00Z" [id]⟩

def webhook (provider eventId : String) (id : Uuid) : Call FloatText :=
  ⟨.ingestWebhook (.str provider) (.str eventId) (.int 7) (.int 5) .none, supplyOf "2024-01-01T00:00:00Z" [id]⟩

theorem gift_and_event_answered :
    (∃ value after, gift "event-1" (plain.run (.empty FloatText) []) (.repeated 'a' (.refl true)) = .ok (value, after) ∧
      ∃ row ∈ after.db.ledger, ∃ last, gift "event-1" (plain.run after.db []) (.repeated 'b' (.refl true)) =
          .ok (row.replayed, last) ∧ last.db = plain.run after.db []) ∧
    ∃ value after row receipt, plain.ingestWebhook (.str "acme") (.str "e1") (.int 7) (.int 5) .none
        ⟨plain.run (.empty FloatText) [], supplyOf "2024-01-01T00:00:00Z" []⟩ = .ok (value, after) ∧
      plain.Received (plain.run (.empty FloatText) []) ⟨"acme", "e1", 7, 5, "null"⟩ row receipt value after.db ∧
      plain.Reported after.db ⟨"acme", "e1", 7, 5, "null"⟩ receipt := by
  constructor
  · have accepted : (gift "event-1" (plain.run (.empty FloatText) [])
        (.repeated 'a' (.refl true))).toOption.isSome = true := by decide +kernel
    cases success : gift "event-1" (plain.run (.empty FloatText) []) (.repeated 'a' (.refl true)) with
    | error why =>
      rw [success] at accepted
      cases accepted
    | ok pair =>
      obtain ⟨row, member, -, replays⟩ := (plain.replays_iff [] _).1 _ _ _ _ _ pair.1 pair.2 success
      obtain ⟨last, returned, left⟩ :=
        (replays [] (supplyOf "2024-01-01T00:00:00Z" [.repeated 'b' (.refl true)])).mpr (by decide)
      exact ⟨pair.1, pair.2, rfl, row, member, last, returned, left⟩
  · refine ((plain.replays_iff [] _).2 _ _ _ _ _ _ ?_ ?_ ?_).mpr ?_
    · decide +kernel
    · rfl
    · exact ⟨not_mem_nil, fun _ _ _ => not_mem_nil⟩
    · exact ⟨⟨"webhook-acme", by decide +kernel⟩,
        ⟨"webhook:acme:e1", by decide +kernel, not_mem_nil⟩, by decide +kernel⟩

/-- A padded reference is credited once and then raises, and of two events whose names
join to one reference the second is not credited. -/
theorem padded_and_joined_references_raise :
    (gift " event-1" (.empty FloatText) (.repeated 'a' (.refl true))).toOption.isSome = true ∧
      ((gift " event-1" (.empty FloatText) (.repeated 'a' (.refl true))).toOption.map
        fun first => raised (gift " event-1" first.2.db (.repeated 'b' (.refl true)))) =
          some (some ⟨.integrityError, "UNIQUE constraint failed: ledger.reference"⟩) ∧
      ((plain.run (.empty FloatText) [webhook "a:b" "c" (.repeated 'a' (.refl true))]).receipt?
        "a" "b:c").isNone = true ∧
      raised (plain.ingestWebhook (.str "a") (.str "b:c") (.int 7) (.int 5) .none
        ⟨plain.run (.empty FloatText) [webhook "a:b" "c" (.repeated 'a' (.refl true))],
          supplyOf "2024-01-01T00:00:01Z" [.repeated 'b' (.refl true)]⟩) =
        some ⟨.integrityError, "UNIQUE constraint failed: ledger.reference"⟩ := by
  refine ⟨?_, ?_, ?_, ?_⟩ <;> decide +kernel

end Dash.Community
