import Dash.Community.Conservation

/-! What no operation takes away.

Accounts and wallets stay open, the ledger, the webhook receipts and the metadata only
grow at their end, and no operation but track progress and engagement writes metadata.
-/

set_option autoImplicit false

namespace Dash.Community

open Dash.Python Dash.Foundation List

variable {F : Type}

/-- The other database continues this one; without `marks` it adds no metadata. -/
structure Grows (marks : Bool) (db other : Db F) : Prop where
  accounts : db.accounts.map Account.duneAccountId ⊆ other.accounts.map Account.duneAccountId
  wallets : db.wallets.map Wallet.duneAccountId ⊆ other.wallets.map Wallet.duneAccountId
  ledger : db.ledger <+: other.ledger
  stripped : ∀ row ∈ other.ledger, row ∈ db.ledger ∨ strip row.reference = row.reference
  receipts : db.webhookReceipts <+: other.webhookReceipts
  metadata : db.metadata <+: other.metadata
  quiet : marks = false → other.metadata = db.metadata

namespace Grows

variable {marks : Bool} {db middle other : Db F}

theorem refl (db : Db F) : Grows marks db db :=
  ⟨List.Subset.refl _, List.Subset.refl _, prefix_rfl, fun _ => .inl, prefix_rfl, prefix_rfl, fun _ => rfl⟩

theorem trans (before : Grows marks db middle) (after : Grows marks middle other) : Grows marks db other where
  accounts := List.Subset.trans before.accounts after.accounts
  wallets := List.Subset.trans before.wallets after.wallets
  ledger := before.ledger.trans after.ledger
  stripped row member := (after.stripped row member).elim (before.stripped row) .inr
  receipts := before.receipts.trans after.receipts
  metadata := before.metadata.trans after.metadata
  quiet silent := (after.quiet silent).trans (before.quiet silent)

theorem mono {more : Bool} (grows : Grows marks db other) (wider : more = false → marks = false) :
    Grows more db other :=
  { grows with quiet := fun silent => grows.quiet (wider silent) }

theorem aside
    (accounts : other.accounts.map Account.duneAccountId = db.accounts.map Account.duneAccountId)
    (wallets : other.wallets.map Wallet.duneAccountId = db.wallets.map Wallet.duneAccountId)
    (ledger : other.ledger = db.ledger)
    (receipts : other.webhookReceipts = db.webhookReceipts)
    (metadata : other.metadata = db.metadata) : Grows marks db other where
  accounts := by rw [accounts]; exact List.Subset.refl _
  wallets := by rw [wallets]; exact List.Subset.refl _
  ledger := ledger ▸ prefix_rfl
  stripped row member := .inl (ledger ▸ member)
  receipts := receipts ▸ prefix_rfl
  metadata := metadata ▸ prefix_rfl
  quiet _ := metadata

theorem openAccount (db : Db F) (account : Int) (now : String) : Grows marks db (db.openAccount account now) where
  accounts := by
    unfold Db.openAccount
    split
    · exact List.Subset.refl _
    · exact map_subset _ (subset_append_left _ _)
  wallets := by
    unfold Db.openAccount
    simp only
    split
    · exact List.Subset.refl _
    · exact map_subset _ (subset_append_left _ _)
  ledger := prefix_rfl
  stripped _ := .inl
  receipts := prefix_rfl
  metadata := prefix_rfl
  quiet _ := rfl

theorem post (db : Db F) {row : LedgerRow} (plain : strip row.reference = row.reference) :
    Grows marks db (db.post row) where
  accounts := List.Subset.refl _
  wallets := by
    have keys : (db.post row).wallets.map Wallet.duneAccountId =
        db.wallets.map Wallet.duneAccountId := Table.update_keys fun _ => rfl
    rw [keys]
    exact List.Subset.refl _
  ledger := prefix_append _ _
  stripped other member := by
    rcases mem_append.mp member with before | new
    · exact .inl before
    · exact .inr (mem_singleton.mp new ▸ plain)
  receipts := prefix_rfl
  metadata := prefix_rfl
  quiet _ := rfl

theorem appendWebhook (db : Db F) (row : WebhookReceipt) : Grows marks db (db.appendWebhook row) :=
  { refl db with receipts := prefix_append _ _ }

theorem appendMetadata (db : Db F) (key value : String) : Grows true db (db.appendMetadata key value) :=
  { (refl db : Grows false db db) with
    metadata := prefix_append _ _
    quiet := fun impossible => Bool.noConfusion impossible }

end Grows

abbrev Growing (marks : Bool) : Session F → Session F → Prop :=
  fun first last => Grows marks first.db last.db

theorem openAccount_again {db : Db F} {account : Int} (known : account ∈ db.accounts.map Account.duneAccountId)
    (funded : account ∈ db.wallets.map Wallet.duneAccountId) (now : String) :
    db.openAccount account now = db := by
  have accounts : (db.accounts.any fun row => row.duneAccountId = account) = true := by
    simpa using known
  have wallets : (db.wallets.any fun row => row.duneAccountId = account) = true := by
    simpa using funded
  rw [Db.openAccount, if_pos accounts, if_pos wallets]

namespace Platform

open Transaction (Within)

variable (rt : Platform F) {marks : Bool}

theorem grows_of_ok {α : Type} {body : Action F α} (inside : Within (Growing marks) body)
    {session after : Session F} {value : α} (success : body session = .ok (value, after)) :
    Grows marks session.db after.db := by
  have path := inside _ _ _ success
  clear success
  induction path with
  | refl => exact .refl _
  | tail _ edge ih => exact ih.trans edge

section Statements

theorem Statement.grows {rt : Platform F} {allowed : String → Prop} {db other : Db F}
    (statement : rt.Statement allowed marks db other) : Grows marks db other := by
  cases statement with
  | openAccount account now => exact .openAccount db account now
  | post row posted free plain => exact .post db plain
  | queue row other fresh freshSource => exact .aside rfl rfl rfl rfl rfl
  | side _ same =>
    exact .aside same.accounts (congrArg _ same.wallets) same.ledger same.webhookReceipts same.metadata
  | receive row => exact .appendWebhook db row
  | mark key value marking => exact marking ▸ .appendMetadata db key value

/-- What any references allow, grows. -/
theorem growing {α : Type} {body : Action F α}
    (inside : Within (rt.Statements (fun _ => True) marks) body) : Within (Growing marks) body :=
  inside.mono fun _ _ => Statement.grows

theorem execute_grows {statement : Db F → Db F} (moves : ∀ db, Grows marks db (statement db)) :
    Within (Growing marks) (Action.execute statement) :=
  .write fun session => moves session.db

theorem ensureAccount_grows (duneAccountId : Value F) : Within (Growing marks) (rt.ensureAccount duneAccountId) :=
  rt.growing (rt.ensureAccount_within duneAccountId)

theorem appendLedger_grows (account delta : Int) (kind reference metadata : Value F) :
    Within (Growing marks) (rt.appendLedger account delta kind reference metadata) :=
  rt.growing (rt.appendLedger_within fun _ _ => trivial)

theorem appendUnlessZero_grows (account delta : Int) (kind reference metadata : Value F) :
    Within (Growing marks) (rt.appendUnlessZero account delta kind reference metadata) := by
  exact .ite (fun _ => .pure _) fun _ =>
    .bind (rt.appendLedger_grows _ _ _ _ _) fun entry => .pure _

theorem insertDelivery_grows (row : Delivery) : Within (Growing marks) (insertDelivery row : Action F Unit) := by
  intro session value after success
  obtain ⟨-, -, changed⟩ := insertDelivery_ok success
  refine .single ?_
  rw [Growing, changed]
  exact .aside rfl rfl rfl rfl rfl

theorem insertPurchase_grows (row : Purchase) : Within (Growing marks) (insertPurchase row : Action F Unit) := by
  intro session value after success
  obtain ⟨-, changed⟩ := insertPurchase_ok success
  refine .single ?_
  rw [Growing, changed]
  exact .aside rfl rfl rfl rfl rfl

end Statements

section Operations

theorem credit_grows (account amount kind reference metadata : Value F) :
    Within (Growing marks) (rt.credit account amount kind reference metadata) :=
  rt.growing (rt.credit_within fun _ _ => trivial)

theorem purchase_grows (account offer quantity key : Value F) :
    Within (Growing marks) (rt.purchase account offer quantity key) := by
  refine .bind (.lift _) fun quantity => .bind (.lift _) fun key => .bind (rt.growing rt.now_within) fun now =>
    .bind (rt.ensureAccount_grows _) fun account => .bind (.read _) fun existing => ?_
  cases existing with
  | some row => exact .pure _
  | none =>
    refine .bind (.read _) fun found => ?_
    cases found with
    | none => exact .raise _
    | some offer =>
      exact .ite (fun _ => .raise _) fun _ => .ite (fun _ => .raise _) fun _ =>
        .bind (rt.growing rt.uuid4_within) fun purchase => .bind (rt.growing rt.uuid4_within) fun delivery =>
        .bind (.lift _) fun unit => .bind (.lift _) fun items =>
        .bind (insertPurchase_grows _) fun _ =>
        .bind (rt.appendUnlessZero_grows _ _ _ _ _) fun _ =>
        .bind (execute_grows fun _ => .aside rfl rfl rfl rfl rfl) fun _ =>
        .bind (.lift _) fun rewards => .bind (insertDelivery_grows _) fun _ => .pure _

theorem claimDelivery_grows (delivery : Value F) : Within (Growing marks) (rt.claimDelivery delivery) := by
  refine .bind (.read _) fun found => ?_
  cases found with
  | none => exact .pure _
  | some row =>
    exact .bind (.read _) fun token => .bind (rt.growing rt.now_within) fun now =>
      .bind (execute_grows fun _ => .aside rfl rfl rfl rfl rfl) fun _ =>
      .bind (.lift _) fun rewards => .pure _

theorem claimedDelivery_grows (delivery token : Value F) :
    Within (Growing marks) (rt.claimedDelivery delivery token) := by
  intro session row after success
  obtain ⟨-, -, rfl⟩ := rt.claimedDelivery_ok success
  exact .refl

theorem settlePurchase_grows (row : Delivery) (change : Purchase → Purchase) :
    Within (Growing marks) (settlePurchase row change : Action F Unit) := by
  exact .ite (fun _ => execute_grows fun _ => .aside rfl rfl rfl rfl rfl) fun _ => .pure _

theorem refund_grows (row : Delivery) (kind : String) (detail : String × Value F)
    (error now : String) : Within (Growing marks) (rt.refund row kind detail error now) := by
  refine .ite (fun _ => .pure _) fun _ => .bind (.read _) fun found => ?_
  cases found with
  | none => exact .pure _
  | some purchase =>
    exact .ite (fun _ => .pure _) fun _ => .bind (rt.appendUnlessZero_grows _ _ _ _ _) fun _ =>
      .bind (execute_grows fun _ => .aside rfl rfl rfl rfl rfl) fun _ =>
      .bind (execute_grows fun _ => .aside rfl rfl rfl rfl rfl) fun _ => .pure _

theorem completeDelivery_grows (delivery token receipt : Value F) :
    Within (Growing marks) (rt.completeDelivery delivery token receipt) := by
  exact .bind (rt.claimedDelivery_grows _ _) fun row => .bind (rt.growing rt.now_within) fun now =>
    .bind (.lift _) fun receipt =>
    .bind (execute_grows fun _ => .aside rfl rfl rfl rfl rfl) fun _ =>
    .bind (settlePurchase_grows _ _) fun _ => .pure _

theorem releaseDelivery_grows (delivery token reason : Value F) :
    Within (Growing marks) (rt.releaseDelivery delivery token reason) := by
  exact .bind (rt.claimedDelivery_grows _ _) fun row => .bind (rt.growing rt.now_within) fun now =>
    .bind (execute_grows fun _ => .aside rfl rfl rfl rfl rfl) fun _ => .pure _

theorem failDelivery_grows (delivery token error definitive : Value F) :
    Within (Growing marks) (rt.failDelivery delivery token error definitive) := by
  exact .bind (rt.claimedDelivery_grows _ _) fun row => .bind (rt.growing rt.now_within) fun now =>
    .ite (fun _ => .bind (execute_grows fun _ => .aside rfl rfl rfl rfl rfl) fun _ => .pure _)
      fun _ => .bind (rt.refund_grows _ _ _ _ _) fun refunded =>
      .bind (execute_grows fun _ => .aside rfl rfl rfl rfl rfl) fun _ => .pure _

theorem resolveReconciliation_grows (delivery delivered receipt reason : Value F) :
    Within (Growing marks) (rt.resolveReconciliation delivery delivered receipt reason) := by
  refine .bind (.read _) fun found => ?_
  cases found with
  | none => exact .raise _
  | some row =>
    exact .bind (rt.growing rt.now_within) fun now => .ite (fun _ => .bind (.lift _) fun receipt =>
        .bind (execute_grows fun _ => .aside rfl rfl rfl rfl rfl) fun _ =>
        .bind (settlePurchase_grows _ _) fun _ => .pure _)
      fun _ => .bind (rt.refund_grows _ _ _ _ _) fun refunded =>
        .bind (execute_grows fun _ => .aside rfl rfl rfl rfl rfl) fun _ => .pure _

theorem bindText_grows (value : Value F) : Within (Growing marks) (rt.bindText value) := by
  cases value with
  | int value => exact .bind (.check _ _) fun _ => .pure _
  | list items => exact .raise _
  | dict entries => exact .raise _
  | _ => exact .pure _

theorem syncConfig_grows (file : Option String) : Within (Growing marks) (rt.syncConfig file) := by
  refine .bind (.lift _) fun config => .bind (rt.growing rt.now_within) fun now =>
    .bind (.each (fun raw => ?_) _) fun ids => .bind (.each (fun raw => ?_) _) fun keys =>
    .bind (execute_grows fun _ => .aside rfl rfl rfl rfl rfl) fun _ => .pure _
  · exact .bind (.lift _) fun offer => .bind (.check _ _) fun _ =>
      .bind (execute_grows fun _ => .aside rfl rfl rfl rfl rfl) fun _ => .pure _
  · exact .ite (fun _ => .raise _) fun _ => .bind (.lift _) fun id => .bind (.lift _) fun version =>
      .bind (.lift _) fun levels => .bind (.lift _) fun name => .bind (.lift _) fun levelsJson =>
      .bind (rt.bindText_grows _) fun startsAt => .bind (rt.bindText_grows _) fun endsAt =>
      .bind (execute_grows fun _ => .aside rfl rfl rfl rfl rfl) fun _ => .pure _

end Operations

def writesMetadata : Operation F → Bool
  | .observeEngagement .. => true
  | .addTrackProgress .. => true
  | _ => false

theorem perform_grows (operation : Operation F) :
    Within (Growing (writesMetadata operation)) (rt.perform operation) := by
  have free (text : String) (_ : ¬ Reserved text) : True := trivial
  cases operation with
  | syncConfig => exact .bind (rt.syncConfig_grows _) fun _ => .pure _
  | credit => exact rt.growing (.bind (rt.credit_within fun _ _ => trivial) fun _ => .pure _)
  | createLinkCode => exact rt.growing (.bind (rt.createLinkCode_within _ _) fun _ => .pure _)
  | redeemLinkCode => exact rt.growing (.bind (rt.redeemLinkCode_within _ _) fun _ => .pure _)
  | purchase => exact .bind (rt.purchase_grows _ _ _ _) fun _ => .pure _
  | claimDelivery => exact .bind (rt.claimDelivery_grows _) fun _ => .pure _
  | completeDelivery => exact .bind (rt.completeDelivery_grows _ _ _) fun _ => .pure _
  | releaseDelivery => exact .bind (rt.releaseDelivery_grows _ _ _) fun _ => .pure _
  | failDelivery => exact .bind (rt.failDelivery_grows _ _ _ _) fun _ => .pure _
  | resolveReconciliation => exact .bind (rt.resolveReconciliation_grows _ _ _ _) fun _ => .pure _
  | ingestWebhook => exact rt.growing (.bind (rt.ingestWebhook_within free _ _ _ _ _) fun _ => .pure _)
  | observePlaytime => exact rt.growing (.bind (rt.observePlaytime_within free _ _ _ _ _ _) fun _ => .pure _)
  | observeEngagement => exact rt.growing (.bind (rt.observeEngagement_within free _ _ _ _ _) fun _ => .pure _)
  | addTrackProgress => exact rt.growing (.bind (rt.addTrackProgress_within _ _ _ _) fun _ => .pure _)
  | claimTrackLevel => exact rt.growing (.bind (rt.claimTrackLevel_within _ _ _) fun _ => .pure _)

theorem apply_grows (db : Db F) (call : Call F) : Grows (writesMetadata call.operation) db (rt.apply db call) := by
  unfold apply
  cases outcome : rt.perform call.operation ⟨db, call.supply⟩ with
  | error why =>
    rw [Transaction.commit_error outcome]
    exact .refl db
  | ok pair =>
    rw [Transaction.commit_ok outcome]
    exact grows_of_ok (rt.perform_grows call.operation) outcome

theorem run_marks (db : Db F) (calls : List (Call F)) :
    Grows (calls.any fun call => writesMetadata call.operation) db (rt.run db calls) := by
  induction calls generalizing db with
  | nil => exact .refl db
  | cons call rest ih =>
    have first := rt.apply_grows db call
    have others := ih (rt.apply db call)
    rw [any_cons]
    exact (first.mono fun silent => (Bool.or_eq_false_iff.mp silent).1).trans
      (others.mono fun silent => (Bool.or_eq_false_iff.mp silent).2)

theorem run_grows (db : Db F) (calls : List (Call F)) : Grows true db (rt.run db calls) :=
  (rt.run_marks db calls).mono fun impossible => Bool.noConfusion impossible

/-- Whatever calls follow a run, no account or wallet goes, no row of the ledger, webhook receipt or
mark is changed or lost, and marks are written by the two operations that have them alone. -/
theorem run_continues (calls later : List (Call F)) :
    Grows (later.any fun call => writesMetadata call.operation) (rt.run (.empty F) calls)
      (rt.run (.empty F) (calls ++ later)) := by
  have grows := rt.run_marks (rt.run (.empty F) calls) later
  rwa [run, run, ← foldl_append] at grows

theorem run_stripped {calls : List (Call F)} {row : LedgerRow}
    (member : row ∈ (rt.run (.empty F) calls).ledger) : strip row.reference = row.reference :=
  ((rt.run_grows (.empty F) calls).stripped row member).resolve_left not_mem_nil

end Platform

end Dash.Community
