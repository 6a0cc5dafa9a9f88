import Dash.Community.Conservation

/-! Purchases, deliveries and refunds agree in every reachable state.

`Paired` is about purchases and deliveries, `Recorded` about purchases and the ledger.
Lemmas on lists say how they survive what the steps do to these tables: a foreign
row, an order, a delivery that moves on, and a purchase that closes with its delivery.
-/

set_option autoImplicit false

namespace Dash.Community

open Dash.Python Dash.Foundation List

variable {F : Type}

def tradeRows (ledger : List LedgerRow) (id : String) : List LedgerRow :=
  ledger.filter fun row => row.reference = "purchase:" ++ id || row.reference = "refund:" ++ id

def Purchase.due (row : Purchase) : Int :=
  match row.status with
  | .refunded => 0
  | _ => -row.total

/-- The delivery statuses a purchase of the given status can have. -/
def agrees : PurchaseStatus → DeliveryStatus → Bool
  | .queued, .queued => true
  | .queued, .retry => true
  | .queued, .processing => true
  | .queued, .reconciliation => true
  | .delivered, .delivered => true
  | .refunded, .failed => true
  | _, _ => false

def Delivery.isFor (row : Delivery) (purchase : Purchase) : Prop :=
  row.sourceType = .purchase ∧ row.sourceId = purchase.id

structure Paired (purchases : List Purchase) (deliveries : List Delivery) : Prop where
  purchaseIds : (purchases.map Purchase.id).Nodup
  deliveryIds : (deliveries.map Delivery.id).Nodup
  sourceIds : (deliveries.map Delivery.sourceId).Nodup
  shapes : ∀ purchase ∈ purchases, isUuid purchase.id = true
  sources : ∀ row ∈ deliveries, row.sourceType = .purchase → ∃ purchase ∈ purchases, row.sourceId = purchase.id
  agreed : ∀ purchase ∈ purchases, ∃ row ∈ deliveries, row.isFor purchase ∧ agrees purchase.status row.status = true

structure Recorded (purchases : List Purchase) (ledger : List LedgerRow) : Prop where
  references : (ledger.map LedgerRow.reference).Nodup
  entered : ∀ row ∈ ledger, startsWith "purchase:" row.reference = true →
    ∃ purchase ∈ purchases, row.reference = "purchase:" ++ purchase.id
  refunds : ∀ row ∈ ledger, startsWith "refund:" row.reference = true →
    ∃ purchase ∈ purchases, row.reference = "refund:" ++ purchase.id ∧ purchase.status = .refunded
  sums : ∀ purchase ∈ purchases, deltaSum (tradeRows ledger purchase.id) = purchase.due

variable {status : DeliveryStatus}

theorem agrees_open {purchase : PurchaseStatus}
    (opened : status.open = true) (agreed : agrees purchase status = true) : purchase = .queued := by
  cases purchase <;> cases status <;> simp_all [agrees, DeliveryStatus.open]

theorem agrees_move {purchase : PurchaseStatus} {first last : DeliveryStatus}
    (moves : DeliveryMove first last) (agreed : agrees purchase first = true) :
    agrees purchase last = true := by
  cases moves <;> cases purchase <;> first | rfl | cases agreed

theorem tradeRows_append (ledger : List LedgerRow) (row : LedgerRow) (id : String) : tradeRows (ledger ++ [row]) id =
      if row.reference = "purchase:" ++ id ∨ row.reference = "refund:" ++ id then
        tradeRows ledger id ++ [row]
      else tradeRows ledger id := by
  by_cases hit : row.reference = "purchase:" ++ id ∨ row.reference = "refund:" ++ id
  · simp [tradeRows, hit]
  · simp [tradeRows, hit]

theorem deltaSum_append (rows : List LedgerRow) (row : LedgerRow) :
    deltaSum (rows ++ [row]) = deltaSum rows + row.delta := by
  simp [deltaSum]

theorem purchase_ne_refund (first second : String) : "purchase:" ++ first ≠ "refund:" ++ second := by
  intro same
  have one := startsWith_append "purchase:" first
  rw [same] at one
  rcases startsWith_or one (startsWith_append "refund:" second) with before | before
  · exact absurd before (by decide)
  · exact absurd before (by decide)

theorem not_refund (id : String) : ¬ startsWith "refund:" ("purchase:" ++ id) = true := by
  intro starts
  obtain ⟨rest, same⟩ := startsWith_iff.mp starts
  exact purchase_ne_refund _ _ same

theorem not_purchase (id : String) : ¬ startsWith "purchase:" ("refund:" ++ id) = true := by
  intro starts
  obtain ⟨rest, same⟩ := startsWith_iff.mp starts
  exact purchase_ne_refund _ _ same.symm

theorem tradeRows_foreign {ledger : List LedgerRow} {row : LedgerRow}
    (foreign : ¬ Reserved row.reference) (id : String) :
    tradeRows (ledger ++ [row]) id = tradeRows ledger id := by
  rw [tradeRows_append, if_neg]
  rintro (same | same)
  · exact foreign (.inl (same ▸ startsWith_append _ _))
  · exact foreign (.inr (same ▸ startsWith_append _ _))

theorem update_sources {change : Delivery → Delivery}
    (changed : DeliveryChange status change) (id : String) (deliveries : List Delivery) :
    (update Delivery.id id change deliveries).map Delivery.sourceId = deliveries.map Delivery.sourceId := by
  rw [update, map_map]
  refine map_congr_left fun row _ => ?_
  by_cases hit : row.id = id
  · simp [hit, (changed row).2.2.1]
  · simp [hit]

def Enters (ledger : List LedgerRow) (amount : Int) (reference : String) (entry : Option LedgerRow) : Prop :=
  match entry with
  | none => amount = 0
  | some row => row.reference ∉ ledger.map LedgerRow.reference ∧ row.delta = amount ∧
      row.reference = reference

namespace Enters

variable {ledger : List LedgerRow} {amount : Int} {reference : String} {entry : Option LedgerRow}
  (enters : Enters ledger amount reference entry)
include enters

theorem references (distinct : (ledger.map LedgerRow.reference).Nodup) :
    ((ledger ++ entry.toList).map LedgerRow.reference).Nodup := by
  cases entry with
  | none => simpa using distinct
  | some row => exact Table.insert_keys distinct enters.1

theorem mem {row : LedgerRow} (member : row ∈ ledger ++ entry.toList) :
    row ∈ ledger ∨ (entry = some row ∧ row.reference = reference) := by
  rcases mem_append.mp member with old | new
  · exact .inl old
  · cases entry with
    | none => cases new
    | some other =>
      rw [Option.toList_some, mem_singleton] at new
      exact .inr ⟨congrArg some new.symm, new ▸ enters.2.2⟩

theorem own {id : String} (same : reference = "purchase:" ++ id ∨ reference = "refund:" ++ id) :
    deltaSum (tradeRows (ledger ++ entry.toList) id) = deltaSum (tradeRows ledger id) + amount := by
  cases entry with
  | none =>
    rw [Option.toList_none, append_nil, show amount = 0 from enters, Int.add_zero]
  | some row =>
    obtain ⟨-, delta, named⟩ := enters
    rw [Option.toList_some, tradeRows_append, if_pos (named ▸ same), deltaSum_append, delta]

theorem other {id : String} (one : reference ≠ "purchase:" ++ id) (two : reference ≠ "refund:" ++ id) :
    tradeRows (ledger ++ entry.toList) id = tradeRows ledger id := by
  cases entry with
  | none => rw [Option.toList_none, append_nil]
  | some row =>
    obtain ⟨-, -, named⟩ := enters
    rw [Option.toList_some, tradeRows_append, if_neg]
    rintro (same | same)
    · exact one (named ▸ same)
    · exact two (named ▸ same)

end Enters

namespace Paired

variable {purchases : List Purchase} {deliveries : List Delivery}

theorem empty : Paired [] [] where
  purchaseIds := .nil
  deliveryIds := .nil
  sourceIds := .nil
  shapes := fun _ member => absurd member not_mem_nil
  sources := fun _ member => absurd member not_mem_nil
  agreed := fun _ member => absurd member not_mem_nil

variable (paired : Paired purchases deliveries)
include paired

variable {row : Delivery}

theorem agrees_of_isFor {purchase : Purchase} (bought : purchase ∈ purchases)
    (member : row ∈ deliveries) (isFor : row.isFor purchase) :
    agrees purchase.status row.status = true := by
  obtain ⟨other, otherMember, otherFor, agreed⟩ := paired.agreed purchase bought
  have same : row = other := Table.same_row paired.sourceIds member otherMember (isFor.2.trans otherFor.2.symm)
  rw [same]
  exact agreed

theorem pending (member : row ∈ deliveries) (source : row.sourceType = .purchase) (opened : row.status.open = true) :
    ∃ purchase ∈ purchases, row.isFor purchase ∧ purchase.status = .queued := by
  obtain ⟨purchase, bought, same⟩ := paired.sources row member source
  exact ⟨purchase, bought, ⟨source, same⟩, agrees_open opened (paired.agrees_of_isFor bought member ⟨source, same⟩)⟩

theorem foreignDelivery (other : row.sourceType ≠ .purchase) (fresh : row.id ∉ deliveries.map Delivery.id)
    (freshSource : row.sourceId ∉ deliveries.map Delivery.sourceId) :
    Paired purchases (deliveries ++ [row]) :=
  { paired with
    deliveryIds := Table.insert_keys paired.deliveryIds fresh
    sourceIds := Table.insert_keys paired.sourceIds freshSource
    sources := fun delivery member source => by
      rcases mem_append.mp member with old | new
      · exact paired.sources delivery old source
      · rw [mem_singleton.mp new] at source
        exact absurd source other
    agreed := fun purchase bought => by
      obtain ⟨delivery, member, rest⟩ := paired.agreed purchase bought
      exact ⟨delivery, mem_append_left _ member, rest⟩ }

theorem order {row : Purchase} {delivery : Delivery} (shape : isUuid row.id = true)
    (fresh : row.id ∉ purchases.map Purchase.id) (queued : row.status = .queued)
    (isFor : delivery.isFor row) (waiting : delivery.status = .queued)
    (freshDelivery : delivery.id ∉ deliveries.map Delivery.id)
    (freshSource : delivery.sourceId ∉ deliveries.map Delivery.sourceId) :
    Paired (purchases ++ [row]) (deliveries ++ [delivery]) where
  purchaseIds := Table.insert_keys paired.purchaseIds fresh
  deliveryIds := Table.insert_keys paired.deliveryIds freshDelivery
  sourceIds := Table.insert_keys paired.sourceIds freshSource
  shapes := fun purchase bought => by
    rcases mem_append.mp bought with old | new
    · exact paired.shapes purchase old
    · rw [mem_singleton.mp new]
      exact shape
  sources := fun other member source => by
    rcases mem_append.mp member with old | new
    · obtain ⟨purchase, bought, same⟩ := paired.sources other old source
      exact ⟨purchase, mem_append_left _ bought, same⟩
    · rw [mem_singleton.mp new]
      exact ⟨row, mem_append_right _ (mem_singleton_self row), isFor.2⟩
  agreed := fun purchase bought => by
    rcases mem_append.mp bought with old | new
    · obtain ⟨other, member, rest⟩ := paired.agreed purchase old
      exact ⟨other, mem_append_left _ member, rest⟩
    · rw [mem_singleton.mp new]
      refine ⟨delivery, mem_append_right _ (mem_singleton_self _), isFor, ?_⟩
      rw [queued, waiting]
      rfl

/-- A delivery moves on; its purchase, if it has one, agrees with the new status. -/
theorem moveDelivery {status : DeliveryStatus} {change : Delivery → Delivery}
    (member : row ∈ deliveries) (changed : DeliveryChange status change)
    (fits : ∀ purchase ∈ purchases, row.isFor purchase → agrees purchase.status status = true) :
    Paired purchases (update Delivery.id row.id change deliveries) :=
  { paired with
    deliveryIds := by
      rw [Table.update_keys fun row => (changed row).1]
      exact paired.deliveryIds
    sourceIds := by
      rw [update_sources changed]
      exact paired.sourceIds
    sources := fun other present source => by
      rcases Table.mem_update.mp present with ⟨old, oldMember, -, rfl⟩ | ⟨oldMember, -⟩
      · rw [(changed old).2.1] at source
        rw [(changed old).2.2.1]
        exact paired.sources old oldMember source
      · exact paired.sources other oldMember source
    agreed := fun purchase bought => by
      obtain ⟨other, otherMember, isFor, agreed⟩ := paired.agreed purchase bought
      by_cases same : other.id = row.id
      · have isRow : other = row := Table.same_row paired.deliveryIds otherMember member same
        subst isRow
        refine ⟨change other, Table.mem_changed member, ?_, ?_⟩
        · exact ⟨(changed other).2.1.trans isFor.1, (changed other).2.2.1.trans isFor.2⟩
        · rw [(changed other).2.2.2]
          exact fits purchase bought isFor
      · exact ⟨other, Table.mem_kept otherMember same, isFor, agreed⟩ }

theorem close {purchase : Purchase} {closed : PurchaseStatus}
    {status : DeliveryStatus} {settle : Purchase → Purchase} {change : Delivery → Delivery}
    (bought : purchase ∈ purchases) (member : row ∈ deliveries) (isFor : row.isFor purchase)
    (settled : PurchaseChange closed settle) (changed : DeliveryChange status change)
    (fits : agrees closed status = true) :
    Paired (update Purchase.id purchase.id settle purchases) (update Delivery.id row.id change deliveries) := by
  have kept : ∀ row, (settle row).id = row.id := fun row => by rw [settled row]
  have keys : (update Purchase.id purchase.id settle purchases).map Purchase.id =
      purchases.map Purchase.id := Table.update_keys kept
  refine {
    purchaseIds := by rw [keys]; exact paired.purchaseIds
    deliveryIds := by rw [Table.update_keys fun row => (changed row).1]; exact paired.deliveryIds
    sourceIds := by rw [update_sources changed]; exact paired.sourceIds
    shapes := fun after present => ?shapes
    sources := fun other present source => ?sources
    agreed := fun after present => ?agreed }
  case shapes =>
    rcases Table.update_cases paired.purchaseIds bought present with rfl | ⟨old, -⟩
    · rw [kept]
      exact paired.shapes purchase bought
    · exact paired.shapes after old
  case sources =>
    -- Neither the sources of the deliveries nor the ids of the purchases change.
    have named : other.sourceId ∈ purchases.map Purchase.id := by
      rcases Table.mem_update.mp present with ⟨old, oldMember, -, rfl⟩ | ⟨oldMember, -⟩
      · rw [(changed old).2.1] at source
        obtain ⟨before, beforeMember, same⟩ := paired.sources old oldMember source
        rw [(changed old).2.2.1, same]
        exact mem_map_of_mem beforeMember
      · obtain ⟨before, beforeMember, same⟩ := paired.sources other oldMember source
        rw [same]
        exact mem_map_of_mem beforeMember
    rw [← keys] at named
    obtain ⟨after, afterMember, same⟩ := mem_map.mp named
    exact ⟨after, afterMember, same.symm⟩
  case agreed =>
    rcases Table.update_cases paired.purchaseIds bought present with rfl | ⟨old, distinct⟩
    · refine ⟨change row, Table.mem_changed member, ⟨?_, ?_⟩, ?_⟩
      · exact (changed row).2.1.trans isFor.1
      · rw [(changed row).2.2.1, kept]
        exact isFor.2
      · rw [(changed row).2.2.2, settled purchase]
        exact fits
    · obtain ⟨delivery, deliveryMember, forOther, agreed⟩ := paired.agreed after old
      refine ⟨delivery, Table.mem_kept deliveryMember fun same => distinct ?_, forOther, agreed⟩
      have isRow := Table.same_row paired.deliveryIds deliveryMember member same
      rw [← forOther.2, isRow, isFor.2]

end Paired

namespace Recorded

variable {purchases : List Purchase} {ledger : List LedgerRow}

theorem empty : Recorded [] [] where
  references := .nil
  entered := fun _ member => absurd member not_mem_nil
  refunds := fun _ member => absurd member not_mem_nil
  sums := fun _ member => absurd member not_mem_nil

variable (recorded : Recorded purchases ledger)
include recorded

theorem foreignRow {row : LedgerRow} (fresh : row.reference ∉ ledger.map LedgerRow.reference)
    (foreign : ¬ Reserved row.reference) : Recorded purchases (ledger ++ [row]) where
  references := Table.insert_keys recorded.references fresh
  entered := fun other member starts => by
    rcases mem_append.mp member with old | new
    · exact recorded.entered other old starts
    · rw [mem_singleton.mp new] at starts
      exact absurd (.inl starts) foreign
  refunds := fun other member starts => by
    rcases mem_append.mp member with old | new
    · exact recorded.refunds other old starts
    · rw [mem_singleton.mp new] at starts
      exact absurd (.inr starts) foreign
  sums := fun purchase bought => by
    rw [tradeRows_foreign foreign]
    exact recorded.sums purchase bought

theorem tradeRows_unknown {id : String} (fresh : id ∉ purchases.map Purchase.id) : tradeRows ledger id = [] := by
  rw [tradeRows, filter_eq_nil_iff]
  intro row member named
  rcases Bool.or_eq_true_iff.mp named with named | named
  all_goals rw [decide_eq_true_eq] at named
  · obtain ⟨purchase, bought, same⟩ :=
      recorded.entered row member (named ▸ startsWith_append _ _)
    rw [named] at same
    exact fresh (append_left_cancel same ▸ mem_map_of_mem bought)
  · obtain ⟨purchase, bought, same, -⟩ :=
      recorded.refunds row member (named ▸ startsWith_append _ _)
    rw [named] at same
    exact fresh (append_left_cancel same ▸ mem_map_of_mem bought)

theorem order {row : Purchase} {entry : Option LedgerRow}
    (fresh : row.id ∉ purchases.map Purchase.id) (queued : row.status = .queued)
    (enters : Enters ledger (-row.total) ("purchase:" ++ row.id) entry) :
    Recorded (purchases ++ [row]) (ledger ++ entry.toList) where
  references := enters.references recorded.references
  entered := fun other member starts => by
    rcases enters.mem member with old | ⟨-, named⟩
    · obtain ⟨purchase, bought, same⟩ := recorded.entered other old starts
      exact ⟨purchase, mem_append_left _ bought, same⟩
    · exact ⟨row, mem_append_right _ (mem_singleton_self row), named⟩
  refunds := fun other member starts => by
    rcases enters.mem member with old | ⟨-, named⟩
    · obtain ⟨purchase, bought, rest⟩ := recorded.refunds other old starts
      exact ⟨purchase, mem_append_left _ bought, rest⟩
    · rw [named] at starts
      exact absurd starts (not_refund row.id)
  sums := fun purchase bought => by
    rcases mem_append.mp bought with old | new
    · have distinct : row.id ≠ purchase.id := fun same =>
        fresh (same ▸ mem_map_of_mem old)
      rw [enters.other (fun same => distinct (append_left_cancel same)) (purchase_ne_refund _ _)]
      exact recorded.sums purchase old
    · rw [mem_singleton.mp new, enters.own (.inl rfl), recorded.tradeRows_unknown fresh, Purchase.due, queued]
      exact Int.zero_add _

/-- A pending purchase closes with an entry that makes up for its new status. -/
theorem close {purchase : Purchase} {closed : PurchaseStatus} {settle : Purchase → Purchase}
    {amount : Int} {entry : Option LedgerRow} (distinct : (purchases.map Purchase.id).Nodup)
    (bought : purchase ∈ purchases) (pending : purchase.status = .queued)
    (settled : PurchaseChange closed settle)
    (enters : Enters ledger amount ("refund:" ++ purchase.id) entry)
    (balanced : (settle purchase).due = -purchase.total + amount)
    (refunded : entry.isSome → closed = .refunded) :
    Recorded (update Purchase.id purchase.id settle purchases) (ledger ++ entry.toList) := by
  have kept : ∀ row, (settle row).id = row.id := fun row => by rw [settled row]
  have moved : ∀ other ∈ purchases, ∃ after ∈ update Purchase.id purchase.id settle purchases,
      after.id = other.id ∧ (other.status = .refunded → after.status = .refunded) := by
    intro other present
    by_cases same : other.id = purchase.id
    · have isPurchase := Table.same_row distinct present bought same
      subst isPurchase
      refine ⟨settle other, Table.mem_changed bought, kept other, fun impossible => ?_⟩
      rw [pending] at impossible
      cases impossible
    · exact ⟨other, Table.mem_kept present same, rfl, id⟩
  refine {
    references := enters.references recorded.references
    entered := fun other present starts => ?entered
    refunds := fun other present starts => ?refunds
    sums := fun after present => ?sums }
  case entered =>
    rcases enters.mem present with old | ⟨-, named⟩
    · obtain ⟨before, beforeMember, same⟩ := recorded.entered other old starts
      obtain ⟨after, afterMember, kept, -⟩ := moved before beforeMember
      exact ⟨after, afterMember, by rw [same, kept]⟩
    · rw [named] at starts
      exact absurd starts (not_purchase purchase.id)
  case refunds =>
    rcases enters.mem present with old | ⟨isSome, named⟩
    · obtain ⟨before, beforeMember, same, earlier⟩ := recorded.refunds other old starts
      obtain ⟨after, afterMember, kept, later⟩ := moved before beforeMember
      exact ⟨after, afterMember, by rw [same, kept], later earlier⟩
    · refine ⟨settle purchase, Table.mem_changed bought, by rw [named, kept], ?_⟩
      rw [settled purchase]
      exact refunded (isSome ▸ rfl)
  case sums =>
    rcases Table.update_cases distinct bought present with rfl | ⟨old, other⟩
    · rw [kept, enters.own (.inr rfl), recorded.sums purchase bought, balanced, Purchase.due, pending]
    · rw [enters.other (fun same => purchase_ne_refund _ _ same.symm) fun same => other (append_left_cancel same).symm]
      exact recorded.sums after old

end Recorded

def Db.Paired (db : Db F) : Prop := Community.Paired db.purchases db.deliveries

def Db.Recorded (db : Db F) : Prop := Community.Recorded db.purchases db.ledger

theorem Db.Paired.congr {db other : Db F} (paired : db.Paired)
    (purchases : other.purchases = db.purchases) (deliveries : other.deliveries = db.deliveries) :
    other.Paired := by
  rw [Db.Paired, purchases, deliveries]
  exact paired

theorem Db.Recorded.congr {db other : Db F} (recorded : db.Recorded)
    (purchases : other.purchases = db.purchases) (ledger : other.ledger = db.ledger) :
    other.Recorded := by
  rw [Db.Recorded, purchases, ledger]
  exact recorded

theorem postAll_ledger (db : Db F) (entry : Option LedgerRow) :
    (db.postAll entry).ledger = db.ledger ++ entry.toList := by
  cases entry with
  | none => exact (append_nil _).symm
  | some row => rfl

section Order

variable (db : Db F) (row : Purchase) (entry : Option LedgerRow) (delivery : Delivery)

theorem order_ledger : (db.order row entry delivery).ledger = db.ledger ++ entry.toList :=
  postAll_ledger (db.appendPurchase row) entry

theorem order_purchases : (db.order row entry delivery).purchases = db.purchases ++ [row] :=
  postAll_purchases (db.appendPurchase row) entry

theorem order_deliveries : (db.order row entry delivery).deliveries = db.deliveries ++ [delivery] :=
  congrArg (· ++ [delivery]) (postAll_deliveries (db.appendPurchase row) entry)

end Order

namespace Platform

variable {rt : Platform F} {db other : Db F}

theorem Entered.enters {amount : Int} {reference : String} {entry : Option LedgerRow}
    (entered : rt.Entered db amount reference entry) : Enters db.ledger amount reference entry := by
  cases entry with
  | none => exact entered
  | some row => exact ⟨entered.1.fresh, entered.2⟩

theorem paired_other {row : Delivery} {status : DeliveryStatus} {change : Delivery → Delivery}
    (paired : db.Paired) (member : row ∈ db.deliveries) (other : row.sourceType ≠ .purchase)
    (changed : DeliveryChange status change) : (db.setDelivery row.id change).Paired :=
  Paired.moveDelivery paired member changed fun _ _ isFor => absurd isFor.1 other

variable {id : String}

theorem find_purchase {purchase : Purchase}
    (found : db.purchase? id = some purchase) : purchase ∈ db.purchases ∧ purchase.id = id :=
  ⟨List.mem_of_find?_eq_some found, by simpa using List.find?_some found⟩

theorem not_purchase_source {row : Delivery} (paired : db.Paired) (member : row ∈ db.deliveries)
    (opened : row.status.open = true)
    (unpaid : ∀ purchase ∈ db.purchases, purchase.id = row.sourceId → purchase.status ≠ .queued) :
    row.sourceType ≠ .purchase := by
  intro source
  obtain ⟨purchase, bought, isFor, pending⟩ := paired.pending member source opened
  exact unpaid purchase bought isFor.2.symm pending

/-- What the failure of a delivery does: its purchase is refunded, or it has none. -/
theorem failed_cases (failed : rt.Failed db id other) (paired : db.Paired) :
    (∃ row ∈ db.deliveries, ∃ change, row.id = id ∧ row.status.open = true ∧
        DeliveryChange .failed change ∧ row.sourceType ≠ .purchase ∧
        other = db.setDelivery row.id change) ∨
      ∃ row ∈ db.deliveries, ∃ purchase ∈ db.purchases, ∃ change settle entry, row.id = id ∧
        row.status.open = true ∧ DeliveryChange .failed change ∧ row.isFor purchase ∧
        purchase.status = .queued ∧ PurchaseChange .refunded settle ∧
        rt.Entered db purchase.total ("refund:" ++ purchase.id) entry ∧
        other = (((db.postAll entry).addStock purchase.offerId purchase.quantity).setPurchase
          purchase.id settle).setDelivery row.id change := by
  obtain ⟨middle, row, change, member, rfl, opened, refunded, changed⟩ := failed
  cases refunded with
  | otherSource source => exact .inl ⟨row, member, change, rfl, opened, changed, source, rfl⟩
  | missing none =>
    refine .inl ⟨row, member, change, rfl, opened, changed, ?_, rfl⟩
    refine not_purchase_source paired member opened fun purchase bought same => ?_
    exact absurd (List.find?_eq_none.mp none purchase bought) (by simp [same])
  | closed purchase found settled =>
    refine .inl ⟨row, member, change, rfl, opened, changed, ?_, rfl⟩
    refine not_purchase_source paired member opened fun other present same => ?_
    obtain ⟨bought, sameId⟩ := find_purchase found
    rwa [Table.same_row paired.purchaseIds present bought (same.trans sameId.symm)]
  | refund purchase entry settle source found pending entered settled =>
    obtain ⟨bought, same⟩ := find_purchase found
    rw [strip_reference (by decide) (paired.shapes purchase bought)] at entered
    exact .inr ⟨row, member, purchase, bought, change, settle, entry, rfl, opened, changed,
      ⟨source, same.symm⟩, pending, settled, entered, rfl⟩

section Keeping

variable {allowed : String → Prop}

theorem Step.paired (step : rt.Step allowed db other) (paired : db.Paired) : other.Paired := by
  cases step with
  | openAccount account now => exact paired.congr rfl rfl
  | post row posted free => exact paired.congr rfl rfl
  | queue row other fresh freshSource => exact Paired.foreignDelivery paired other fresh freshSource
  | side _ same => exact paired.congr same.purchases same.deliveries
  | order offer row entry delivery ordered =>
    rw [Db.Paired, order_purchases, order_deliveries]
    exact Paired.order paired ordered.shape ordered.fresh ordered.queued
      ⟨ordered.sourceType, ordered.sourceId⟩ ordered.waiting ordered.freshDelivery
      ordered.freshSource
  | move row status change member moves changed =>
    exact Paired.moveDelivery paired member changed fun purchase bought isFor =>
      agrees_move moves (paired.agrees_of_isFor bought member isFor)
  | deliver row change settle member opened changed settled =>
    unfold Db.settle
    by_cases source : row.sourceType = .purchase
    · obtain ⟨purchase, bought, isFor, pending⟩ := paired.pending member source opened
      rw [if_pos source, isFor.2]
      exact Paired.close paired bought member isFor settled changed rfl
    · rw [if_neg source]
      exact paired_other paired member source changed

theorem Failed.paired {id : String} (failed : rt.Failed db id other) (paired : db.Paired) : other.Paired := by
  rcases failed_cases failed paired with ⟨row, member, change, -, -, changed, source, rfl⟩ |
    ⟨row, member, purchase, bought, change, settle, entry, -, -, changed, isFor, -, settled, -, rfl⟩
  · exact paired_other paired member source changed
  · have closed := Paired.close paired bought member isFor settled changed rfl
    cases entry <;> exact closed

theorem Effect.paired {call : Call F} (effect : rt.Effect allowed call db other)
    (paired : db.Paired) : other.Paired := by
  cases effect with
  | steps plain silent path =>
    induction path with
    | refl => exact paired
    | tail _ edge ih => exact edge.paired ih
  | sync offers plain read synced =>
    rw [Synced, upserted] at synced
    exact paired.congr synced.purchases synced.deliveries
  | fail id fails silent failed => exact failed.paired paired

end Keeping

theorem Step.recorded (step : rt.Step (fun text => ¬ Reserved text) db other) (paired : db.Paired)
    (recorded : db.Recorded) : other.Recorded := by
  cases step with
  | openAccount account now => exact recorded.congr rfl rfl
  | post row posted free => exact Recorded.foreignRow recorded posted.fresh free
  | queue row other fresh freshSource => exact recorded.congr rfl rfl
  | side _ same => exact recorded.congr same.purchases same.ledger
  | order offer row entry delivery ordered =>
    rw [Db.Recorded, order_purchases, order_ledger]
    exact Recorded.order recorded ordered.fresh ordered.queued ordered.entered.enters
  | move row status change member moves changed => exact recorded.congr rfl rfl
  | deliver row change settle member opened changed settled =>
    unfold Db.settle
    by_cases source : row.sourceType = .purchase
    · obtain ⟨purchase, bought, isFor, pending⟩ := paired.pending member source opened
      have nothing : Enters db.ledger 0 ("refund:" ++ purchase.id) none := rfl
      have closed := Recorded.close recorded paired.purchaseIds bought pending settled nothing
        (by rw [settled purchase, Purchase.due, Int.add_zero]) fun impossible => by cases impossible
      rw [if_pos source, isFor.2]
      rwa [Option.toList_none, append_nil] at closed
    · rw [if_neg source]
      exact recorded.congr rfl rfl

theorem Failed.recorded (failed : rt.Failed db id other) (paired : db.Paired)
    (recorded : db.Recorded) : other.Recorded := by
  rcases failed_cases failed paired with ⟨row, member, change, -, -, -, -, rfl⟩ |
    ⟨row, member, purchase, bought, change, settle, entry, -, -, -, -, pending, settled, entered, rfl⟩
  · exact recorded.congr rfl rfl
  · have closed := Recorded.close recorded paired.purchaseIds bought pending settled entered.enters
      (by rw [settled purchase]; exact (Int.add_left_neg _).symm) fun _ => rfl
    cases entry with
    | none => rwa [Option.toList_none, append_nil] at closed
    | some row => exact closed

end Platform

/-- Deliveries that were delivered or failed and purchases that were closed remain so. -/
structure Kept (db other : Db F) : Prop where
  deliveries : ∀ row ∈ db.deliveries, row.status = .delivered ∨ row.status = .failed →
    ∃ later ∈ other.deliveries, later.id = row.id ∧ later.status = row.status
  purchases : ∀ row ∈ db.purchases, row.status ≠ .queued →
    ∃ later ∈ other.purchases, later.id = row.id ∧ later.status = row.status

namespace Kept

variable {db middle other : Db F}

theorem refl (db : Db F) : Kept db db :=
  ⟨fun row member _ => ⟨row, member, rfl, rfl⟩, fun row member _ => ⟨row, member, rfl, rfl⟩⟩

theorem trans (first : Kept db middle) (second : Kept middle other) : Kept db other := by
  constructor
  · intro row member closed
    obtain ⟨between, present, sameId, sameStatus⟩ := first.deliveries row member closed
    obtain ⟨later, found, laterId, laterStatus⟩ := second.deliveries between present (sameStatus ▸ closed)
    exact ⟨later, found, laterId.trans sameId, laterStatus.trans sameStatus⟩
  · intro row member closed
    obtain ⟨between, present, sameId, sameStatus⟩ := first.purchases row member closed
    obtain ⟨later, found, laterId, laterStatus⟩ := second.purchases between present (sameStatus ▸ closed)
    exact ⟨later, found, laterId.trans sameId, laterStatus.trans sameStatus⟩

theorem continues {deliveries : List Delivery} {purchases : List Purchase}
    (sameDeliveries : other.deliveries = db.deliveries ++ deliveries)
    (samePurchases : other.purchases = db.purchases ++ purchases) : Kept db other := by
  constructor
  · intro row member _
    exact ⟨row, sameDeliveries ▸ mem_append_left _ member, rfl, rfl⟩
  · intro row member _
    exact ⟨row, samePurchases ▸ mem_append_left _ member, rfl, rfl⟩

theorem of_same (sameDeliveries : other.deliveries = db.deliveries)
    (samePurchases : other.purchases = db.purchases) : Kept db other :=
  continues (sameDeliveries.trans (append_nil _).symm) (samePurchases.trans (append_nil _).symm)

end Kept

variable {db : Db F}

theorem setDelivery_kept {row : Delivery} {change : Delivery → Delivery}
    (paired : db.Paired) (member : row ∈ db.deliveries)
    (active : row.status ≠ .delivered ∧ row.status ≠ .failed) :
    Kept db (db.setDelivery row.id change) := by
  constructor
  · intro other present closed
    refine ⟨other, Table.mem_kept present fun same => ?_, rfl, rfl⟩
    rw [Table.same_row paired.deliveryIds present member same] at closed
    exact closed.elim active.1 active.2
  · exact fun other present _ => ⟨other, present, rfl, rfl⟩

theorem setPurchase_kept {purchase : Purchase} {change : Purchase → Purchase}
    (paired : db.Paired) (bought : purchase ∈ db.purchases) (pending : purchase.status = .queued) :
    Kept db (db.setPurchase purchase.id change) := by
  constructor
  · exact fun other present _ => ⟨other, present, rfl, rfl⟩
  · intro other present closed
    refine ⟨other, Table.mem_kept present fun same => ?_, rfl, rfl⟩
    rw [Table.same_row paired.purchaseIds present bought same] at closed
    exact closed pending

theorem open_active (opened : status.open = true) : status ≠ .delivered ∧ status ≠ .failed := by
  cases status <;> simp_all [DeliveryStatus.open]

theorem move_active {first last : DeliveryStatus} (moves : DeliveryMove first last) :
    first ≠ .delivered ∧ first ≠ .failed := by
  cases moves <;> decide

namespace Platform

variable {rt : Platform F} {db other : Db F}

theorem Step.kept {allowed : String → Prop} (step : rt.Step allowed db other) (paired : db.Paired) : Kept db other := by
  cases step with
  | openAccount account now => exact .of_same rfl rfl
  | post row posted free => exact .of_same rfl rfl
  | queue row other fresh freshSource => exact .continues rfl (append_nil _).symm
  | side _ same => exact .of_same same.deliveries same.purchases
  | order offer row entry delivery ordered =>
    exact .continues (order_deliveries db row entry delivery) (order_purchases db row entry delivery)
  | move row status change member moves changed =>
    exact setDelivery_kept paired member (move_active moves)
  | deliver row change settle member opened changed settled =>
    have moved : Kept db (db.setDelivery row.id change) := setDelivery_kept paired member (open_active opened)
    unfold Db.settle
    by_cases source : row.sourceType = .purchase
    · obtain ⟨purchase, bought, isFor, pending⟩ := paired.pending member source opened
      have closed : Kept db (db.setPurchase purchase.id settle) := setPurchase_kept paired bought pending
      rw [if_pos source, isFor.2]
      exact ⟨moved.deliveries, closed.purchases⟩
    · rw [if_neg source]
      exact moved

theorem Failed.kept {id : String} (failed : rt.Failed db id other) (paired : db.Paired) : Kept db other := by
  rcases failed_cases failed paired with ⟨row, member, change, -, opened, -, -, rfl⟩ |
    ⟨row, member, purchase, bought, change, settle, entry, -, opened, -, -, pending, -, -, rfl⟩
  · exact setDelivery_kept paired member (open_active opened)
  · have moved : Kept db (db.setDelivery row.id change) :=
      setDelivery_kept paired member (open_active opened)
    have closed : Kept db (db.setPurchase purchase.id settle) := setPurchase_kept paired bought pending
    cases entry <;> exact ⟨moved.deliveries, closed.purchases⟩

theorem Effect.trade {call : Call F} (effect : rt.Effect (fun text => ¬ Reserved text) call db other)
    (paired : db.Paired) (recorded : db.Recorded) : other.Recorded ∧ Kept db other := by
  cases effect with
  | steps plain silent path =>
    have all : other.Paired ∧ other.Recorded ∧ Kept db other := by
      induction path with
      | refl => exact ⟨paired, recorded, .refl db⟩
      | tail _ edge ih =>
        obtain ⟨paired, recorded, kept⟩ := ih
        exact ⟨edge.paired paired, edge.recorded paired recorded, kept.trans (edge.kept paired)⟩
    exact all.2
  | sync offers plain read synced =>
    rw [Synced, upserted] at synced
    exact ⟨recorded.congr synced.purchases synced.ledger, .of_same synced.deliveries synced.purchases⟩
  | fail id fails silent failed => exact ⟨failed.recorded paired recorded, failed.kept paired⟩

variable (rt)

/-- An operator's reference, as the ledger records it, is none of the store's own. -/
def Unreserved : Operation F → Prop
  | .credit _ _ _ reference _ => ¬ Reserved (strip (rt.str (rt.orElse reference (.str ""))))
  | _ => True

theorem unreserved_allows {operation : Operation F} (foreign : rt.Unreserved operation) :
    rt.Allows (fun text => ¬ Reserved text) operation := by
  cases operation with
  | credit account amount kind reference metadata =>
    intro text named
    rw [(rt.identifier_ok named).1]
    exact foreign
  | _ => trivial

theorem trade_run {db : Db F} {calls : List (Call F)}
    (foreign : ∀ call ∈ calls, rt.Unreserved call.operation) (paired : db.Paired)
    (recorded : db.Recorded) :
    (rt.run db calls).Paired ∧ (rt.run db calls).Recorded ∧ Kept db (rt.run db calls) := by
  refine rt.run_induction (fun other => other.Paired ∧ other.Recorded ∧ Kept db other)
    ⟨paired, recorded, .refl db⟩ fun call member middle holds => ?_
  obtain ⟨paired, recorded, kept⟩ := holds
  rcases rt.apply_effect (fun _ free => free) (rt.unreserved_allows (foreign call member)) with
    unchanged | effect
  · rw [unchanged]
    exact ⟨paired, recorded, kept⟩
  · obtain ⟨stillRecorded, moved⟩ := effect.trade paired recorded
    exact ⟨effect.paired paired, stillRecorded, kept.trans moved⟩

def Consistent (db : Db F) (purchase : Purchase) (delivery : Delivery) : Prop :=
  let sum := deltaSum (tradeRows db.ledger purchase.id)
  (purchase.status = .queued ∧
      delivery.status ∈ [.queued, .retry, .processing, .reconciliation] ∧ sum = -purchase.total) ∨
    (purchase.status = .delivered ∧ delivery.status = .delivered ∧ sum = -purchase.total) ∨
    (purchase.status = .refunded ∧ delivery.status = .failed ∧ sum = 0)

end Platform

theorem Platform.consistent (paired : db.Paired) (recorded : db.Recorded)
    {purchase : Purchase} (bought : purchase ∈ db.purchases) :
    ∃ delivery, db.deliveries.filter (fun row =>
        decide (row.sourceType = .purchase) && decide (row.sourceId = purchase.id)) = [delivery] ∧
      Consistent db purchase delivery := by
  obtain ⟨delivery, member, isFor, agreed⟩ := paired.agreed purchase bought
  refine ⟨delivery, ?_, ?_⟩
  · refine Table.filter_single paired.sourceIds member ?_ fun other _ selected => ?_
    · simpa [Delivery.isFor] using isFor
    · simp only [Bool.and_eq_true, decide_eq_true_eq] at selected
      exact selected.2.trans isFor.2.symm
  · have sum := recorded.sums purchase bought
    unfold Consistent
    cases status : purchase.status <;> cases moved : delivery.status <;>
      simp_all [agrees, Purchase.due]

theorem Db.Recorded.refunded_once (recorded : db.Recorded) (id : String) :
    (db.ledger.filter fun row => row.reference = "refund:" ++ id).length ≤ 1 := by
  by_cases some : ∃ row ∈ db.ledger, row.reference = "refund:" ++ id
  · obtain ⟨row, member, named⟩ := some
    rw [Table.filter_single recorded.references member (by simpa using named)]
    · exact le_refl 1
    · intro other _ selected
      exact (of_decide_eq_true selected).trans named.symm
  · rw [filter_eq_nil_iff.mpr fun row member selected =>
      some ⟨row, member, of_decide_eq_true selected⟩]
    exact Nat.zero_le 1

/-- In every reachable state each purchase has one delivery, their statuses agree, and
the rows that reference it add up to what it cost or to nothing; it is refunded at most
once, and what closed stays closed whatever is called later. -/
theorem Platform.purchase_delivery_agreement (rt : Platform F) (calls later : List (Call F))
    (foreign : ∀ call ∈ calls ++ later, rt.Unreserved call.operation) :
    let db := rt.run (Db.empty F) calls
    let last := rt.run db later
    (∀ purchase ∈ db.purchases, (∃ delivery, db.deliveries.filter (fun row =>
          decide (row.sourceType = .purchase) && decide (row.sourceId = purchase.id)) = [delivery] ∧
        Consistent db purchase delivery) ∧
      (db.ledger.filter fun row => row.reference = "refund:" ++ purchase.id).length ≤ 1) ∧
    (∀ row ∈ db.deliveries, row.status = .delivered ∨ row.status = .failed →
      ∃ same ∈ last.deliveries, same.id = row.id ∧ same.status = row.status) ∧
    ∀ row ∈ db.purchases, row.status ≠ .queued →
      ∃ same ∈ last.purchases, same.id = row.id ∧ same.status = row.status := by
  intro db last
  obtain ⟨paired, recorded, -⟩ : db.Paired ∧ db.Recorded ∧ Kept (Db.empty F) db :=
    rt.trade_run (fun call member => foreign call (mem_append_left _ member)) Paired.empty Recorded.empty
  obtain ⟨-, -, kept⟩ : last.Paired ∧ last.Recorded ∧ Kept db last :=
    rt.trade_run (fun call member => foreign call (mem_append_right _ member)) paired recorded
  exact ⟨fun purchase bought => ⟨consistent paired recorded bought,
    recorded.refunded_once purchase.id⟩, kept.deliveries, kept.purchases⟩

theorem purchase_delivery_agreement_kit :
    let db := plain.run (Db.empty FloatText) freeOrder
    db.purchases.length = 1 ∧ ∀ purchase ∈ db.purchases, ∃ delivery, db.deliveries.filter (fun row =>
          decide (row.sourceType = .purchase) && decide (row.sourceId = purchase.id)) = [delivery] ∧
        Platform.Consistent db purchase delivery := by
  have foreign : ∀ call ∈ freeOrder ++ [], plain.Unreserved call.operation := by
    intro call member
    rcases mem_cons.mp member with rfl | rest
    · trivial
    · rw [mem_singleton.mp rest]
      trivial
  exact ⟨by decide +kernel, fun purchase bought =>
    ((plain.purchase_delivery_agreement freeOrder [] foreign).1 purchase bought).1⟩

def Platform.UnreservedAsGiven (rt : Platform F) : Operation F → Prop
  | .credit _ _ _ reference _ => ¬ Reserved (rt.str reference)
  | _ => True

def paddedCredit : Call FloatText :=
  ⟨.credit (.int 7) (.int 1) (.str "manual")
      (.str (" refund:" ++ (Uuid.repeated 'a' (.refl true)).text)) .none,
    supplyOf "2024-01-01T00:00:02Z" [.repeated 'c' (.refl true)]⟩

/-- References are recorded stripped, so it counts for the purchase it names. -/
theorem padded_reference_disagrees :
    let calls := freeOrder ++ [paddedCredit]
    let db := plain.run (Db.empty FloatText) calls
    (∀ call ∈ calls, plain.UnreservedAsGiven call.operation) ∧
      ∃ purchase ∈ db.purchases, ∀ delivery, ¬ Platform.Consistent db purchase delivery := by
  intro calls db
  constructor
  · intro call member
    rcases mem_append.mp member with order | credit
    · rcases mem_cons.mp order with rfl | rest
      · trivial
      · rw [mem_singleton.mp rest]
        trivial
    · rw [mem_singleton.mp credit]
      rintro (starts | starts)
      · exact absurd starts (by decide)
      · exact absurd starts (by decide)
  · have counted : ∃ purchase ∈ db.purchases, purchase.total = 0 ∧
        deltaSum (tradeRows db.ledger purchase.id) = 1 := by decide +kernel
    obtain ⟨purchase, bought, free, sum⟩ := counted
    refine ⟨purchase, bought, fun delivery consistent => ?_⟩
    rcases consistent with ⟨-, -, same⟩ | ⟨-, -, same⟩ | ⟨-, -, same⟩
    all_goals rw [sum] at same
    all_goals omega

end Dash.Community
