import Dash.Python.Value
import Mathlib.Algebra.Order.BigOperators.Group.List
import Mathlib.Tactic.Linarith

/-! The Exchange buyer: a scan buys listings until the daily caps are spent, and when it stays under them.

What the native fulfill function does with a listing is given with each order, as are the random
draws and whether the order still has its revision. A scan is one transaction of the database; its
state file is written after the commit. Notices to sellers and the log change nothing here.
-/

set_option autoImplicit false

namespace Dash.Exchange

open Dash.Python

/-- A sell order as `fetch_orders` returns it. -/
structure SellOrder where
  (id ownerId : Int)
  templateId : String
  itemPrice : Nat
  (stackSize initialStackSize : Option Int)
  isNpcOrder : Bool

structure BuyRow where
  enabled : Bool
  toleratedMaxBuyPrice : Int

inductive Fulfillment where
  | finalizes
  | leaves
  | fulfills (count : Nat)
  | raises

structure Offer where
  order : SellOrder
  /-- `random.random() > probability` -/
  (unlucky revisionMatches : Bool)
  fulfillment : Fulfillment

structure BuyerSettings where
  (dryRun purchasesEnabled confirmed includeNpcTestOrders : Bool)
  populatorOwner : Int → Bool
  blockedSeller : Int → Bool
  catalog : String → Option BuyRow
  (globalCap sellerCap templateCap : Int)

/-- The state file. Sellers are keyed by `str(owner_id)`. -/
structure SpendState where
  day : String
  spentGlobal : Int
  spentBySeller : Int → Int
  spentByTemplate : String → Int

structure Purchase where
  seller : Int
  template : String
  amount : Int
  whole : Bool

namespace Buyer

def purchaseQuantity (order : SellOrder) : Int :=
  match order.stackSize, order.initialStackSize with
  | some size, _ => max 1 size
  | none, some size => max 1 size
  | none, none => 1

def purchaseTotalPrice (order : SellOrder) : Int := order.itemPrice * purchaseQuantity order

def loadState (today : String) (file : Option SpendState) : SpendState :=
  match file with
  | some state => if state.day = today then state else ⟨today, 0, fun _ => 0, fun _ => 0⟩
  | none => ⟨today, 0, fun _ => 0, fun _ => 0⟩

section

variable (settings : BuyerSettings)

/-- `buyer_skip_reason` has a reason. -/
def buyerSkips (order : SellOrder) : Bool :=
  (order.isNpcOrder || settings.populatorOwner order.ownerId) && !settings.includeNpcTestOrders

def spendAvailable (state : SpendState) (order : SellOrder) (row : BuyRow) : Bool :=
  if settings.globalCap < state.spentGlobal + purchaseTotalPrice order then false
  else if settings.sellerCap < state.spentBySeller order.ownerId + purchaseTotalPrice order then false
  else if settings.templateCap <
      state.spentByTemplate order.templateId + purchaseTotalPrice order then false
  else if row.toleratedMaxBuyPrice < order.itemPrice then false
  else true

def recordSpend (state : SpendState) (order : SellOrder) : SpendState :=
  { state with
    spentGlobal := state.spentGlobal + purchaseTotalPrice order
    spentBySeller := Function.update state.spentBySeller order.ownerId
      (state.spentBySeller order.ownerId + purchaseTotalPrice order)
    spentByTemplate := Function.update state.spentByTemplate order.templateId
      (state.spentByTemplate order.templateId + purchaseTotalPrice order) }

/-- `purchase_postcondition` of a listing. -/
structure Postcondition where
  activeOrderExists : Bool
  fulfilledRows : Nat

def purchasePostconditionOk (postcondition : Postcondition) : Bool :=
  decide (0 < postcondition.fulfilledRows) && !postcondition.activeOrderExists

/-- `execute_purchase`: the postcondition, and what was bought. -/
def executePurchase (offer : Offer) : Result (Postcondition × List Purchase) :=
  let bought := fun (amount : Int) whole =>
    [(⟨offer.order.ownerId, offer.order.templateId, amount, whole⟩ : Purchase)]
  match offer.fulfillment with
  | .finalizes => .ok (⟨false, 1⟩, bought (purchaseTotalPrice offer.order) true)
  | .leaves => .ok (⟨true, 0⟩, [])
  | .fulfills count => .ok (⟨true, 1⟩, bought (offer.order.itemPrice * count) false)
  | .raises => .error ⟨.runtimeError, "the native fulfill call failed"⟩

def skipped (state : SpendState) (offer : Offer) : Bool :=
  buyerSkips settings offer.order || (match settings.catalog offer.order.templateId with
    | none => true
    | some row => !row.enabled || settings.blockedSeller offer.order.ownerId ||
        !spendAvailable settings state offer.order row) ||
    offer.unlucky || !offer.revisionMatches

/-- One order of the loop of `scan_once`. -/
def scanOrder (scanned : SpendState × List Purchase) (offer : Offer) : Result (SpendState × List Purchase) :=
  if skipped settings scanned.1 offer then .ok scanned
  else if settings.dryRun then .ok scanned
  else if !settings.purchasesEnabled then
    .error ⟨.runtimeError, "DUNE_ARTIFICIAL_EXCHANGE_PURCHASES_ENABLED is false"⟩
  else if !settings.confirmed then .error ⟨.runtimeError, "confirmation phrase required"⟩
  else
    match executePurchase offer with
    | .error why => .error why
    | .ok (postcondition, bought) =>
      if purchasePostconditionOk postcondition then
        .ok (recordSpend scanned.1 offer.order, scanned.2 ++ bought)
      else .ok (scanned.1, scanned.2 ++ bought)

def scanOrders : SpendState × List Purchase → List Offer → Result (SpendState × List Purchase)
  | scanned, [] => .ok scanned
  | scanned, offer :: rest =>
    match scanOrder settings scanned offer with
    | .error why => .error why
    | .ok next => scanOrders next rest

end

/-- A call of `scan_once`: whether its gates let it begin, the orders it fetches, and whether it
raises after them and before the commit. -/
structure Scan where
  gates : Bool
  offers : List Offer
  raises : Bool

/-- The state file, and what the database has committed on the day. -/
structure World where
  file : Option SpendState
  ledger : List Purchase

def scanOnce (settings : BuyerSettings) (today : String) (world : World) (scan : Scan) : World :=
  if scan.gates then
    match scanOrders settings (loadState today world.file, []) scan.offers with
    | .error _ => world
    | .ok (state, bought) =>
      if scan.raises then world else ⟨some state, world.ledger ++ bought⟩
  else world

def run (settings : BuyerSettings) (today : String) (world : World) (scans : List Scan) : World :=
  scans.foldl (scanOnce settings today) world

def total (ledger : List Purchase) (chosen : Purchase → Bool) : Int :=
  ((ledger.filter chosen).map Purchase.amount).sum

def ofSeller (seller : Int) (purchase : Purchase) : Bool := purchase.seller = seller

def ofTemplate (template : String) (purchase : Purchase) : Bool := purchase.template = template

structure Capped (settings : BuyerSettings) (ledger : List Purchase) : Prop where
  global : total ledger (fun _ => true) ≤ settings.globalCap
  seller : ∀ seller, total ledger (ofSeller seller) ≤ settings.sellerCap
  template : ∀ template, total ledger (ofTemplate template) ≤ settings.templateCap

structure Recorded (state : SpendState) (ledger : List Purchase) : Prop where
  global : state.spentGlobal = total ledger fun _ => true
  seller : ∀ seller, state.spentBySeller seller = total ledger (ofSeller seller)
  template : ∀ template, state.spentByTemplate template = total ledger (ofTemplate template)

theorem total_append (first second : List Purchase) (chosen : Purchase → Bool) :
    total (first ++ second) chosen = total first chosen + total second chosen := by
  simp [total]

theorem total_single (purchase : Purchase) (chosen : Purchase → Bool) :
    total [purchase] chosen = if chosen purchase then purchase.amount else 0 := by
  cases holds : chosen purchase <;> simp [total, holds]

def wholes (ledger : List Purchase) : List Purchase := ledger.filter Purchase.whole

theorem wholes_append (first second : List Purchase) : wholes (first ++ second) = wholes first ++ wholes second :=
  List.filter_append ..

end Buyer

end Dash.Exchange

namespace Dash.Exchange.Buyer

open Dash.Python List

variable {settings : BuyerSettings} {today : String}

/-- The totals are those of the whole purchases, which are under the caps. -/
structure Kept (settings : BuyerSettings) (today : String) (state : SpendState)
    (ledger : List Purchase) : Prop where
  day : state.day = today
  recorded : Recorded state (wholes ledger)
  capped : Capped settings (wholes ledger)
  priced : ∀ purchase ∈ ledger, 0 ≤ purchase.amount

theorem purchaseTotalPrice_nonneg (order : SellOrder) : 0 ≤ purchaseTotalPrice order := by
  have positive : 0 ≤ purchaseQuantity order := by
    unfold purchaseQuantity
    split <;> omega
  exact Int.mul_nonneg (Int.natCast_nonneg _) positive

variable {state : SpendState}

theorem spendAvailable_caps {order : SellOrder} {row : BuyRow}
    (available : spendAvailable settings state order row = true) :
    state.spentGlobal + purchaseTotalPrice order ≤ settings.globalCap ∧
      state.spentBySeller order.ownerId + purchaseTotalPrice order ≤ settings.sellerCap ∧
      state.spentByTemplate order.templateId + purchaseTotalPrice order ≤ settings.templateCap := by
  unfold spendAvailable at available
  split at available
  next => cases available
  split at available
  next => cases available
  split at available
  next => cases available
  exact ⟨by omega, by omega, by omega⟩

variable {offer : Offer}

theorem not_skipped (looked : skipped settings state offer = false) :
    ∃ row, spendAvailable settings state offer.order row = true := by
  simp only [skipped, Bool.or_eq_false_iff] at looked
  obtain ⟨⟨⟨-, listed⟩, -⟩, -⟩ := looked
  split at listed
  next => cases listed
  next row _ => exact ⟨row, by simpa using (Bool.or_eq_false_iff.mp listed).2⟩

/-- What is bought of an order: a part, which is not recorded, or all of it. -/
theorem executePurchase_ok {postcondition : Postcondition} {bought : List Purchase}
    (done : executePurchase offer = .ok (postcondition, bought)) :
    (∀ purchase ∈ bought, 0 ≤ purchase.amount) ∧
      ((purchasePostconditionOk postcondition = true ∧ bought = [⟨offer.order.ownerId,
        offer.order.templateId, purchaseTotalPrice offer.order, true⟩]) ∨
      (purchasePostconditionOk postcondition = false ∧ wholes bought = [])) := by
  unfold executePurchase at done
  cases answer : offer.fulfillment with
  | finalizes =>
    rw [answer] at done
    cases done
    exact ⟨by simpa using purchaseTotalPrice_nonneg offer.order, .inl ⟨rfl, rfl⟩⟩
  | leaves =>
    rw [answer] at done
    cases done
    exact ⟨by simp, .inr ⟨rfl, rfl⟩⟩
  | fulfills count =>
    rw [answer] at done
    cases done
    have worth : (0 : Int) ≤ offer.order.itemPrice * count :=
      Int.mul_nonneg (Int.natCast_nonneg _) (Int.natCast_nonneg _)
    exact ⟨by simpa using worth, .inr ⟨rfl, rfl⟩⟩
  | raises =>
    rw [answer] at done
    cases done

variable {ledger : List Purchase}

theorem Kept.record {order : SellOrder} {row : BuyRow} (kept : Kept settings today state ledger)
    (available : spendAvailable settings state order row = true) :
    Kept settings today (recordSpend state order)
      (ledger ++ [⟨order.ownerId, order.templateId, purchaseTotalPrice order, true⟩]) := by
  obtain ⟨globally, bySeller, byTemplate⟩ := spendAvailable_caps available
  have wholesAfter : wholes (ledger ++ [⟨order.ownerId, order.templateId, purchaseTotalPrice order, true⟩]) =
      wholes ledger ++ [⟨order.ownerId, order.templateId, purchaseTotalPrice order, true⟩] := by
    rw [wholes_append]
    rfl
  have recorded : Recorded (recordSpend state order) (wholes (ledger ++
      [⟨order.ownerId, order.templateId, purchaseTotalPrice order, true⟩])) := by
    rw [wholesAfter]
    refine ⟨?_, fun seller => ?_, fun template => ?_⟩
    · rw [total_append, total_single, if_pos rfl, ← kept.recorded.global]
      rfl
    · rw [total_append, total_single, ← kept.recorded.seller]
      by_cases same : seller = order.ownerId
      · subst same
        simp [recordSpend, ofSeller]
      · simp [recordSpend, ofSeller, same, Ne.symm same]
    · rw [total_append, total_single, ← kept.recorded.template]
      by_cases same : template = order.templateId
      · subst same
        simp [recordSpend, ofTemplate]
      · simp [recordSpend, ofTemplate, same, Ne.symm same]
  refine ⟨kept.day, recorded, ⟨?_, fun seller => ?_, fun template => ?_⟩, ?_⟩
  · rw [← recorded.global]
    exact globally
  · rw [← recorded.seller]
    by_cases same : seller = order.ownerId
    · subst same
      simpa [recordSpend] using bySeller
    · simpa [recordSpend, same, kept.recorded.seller] using kept.capped.seller seller
  · rw [← recorded.template]
    by_cases same : template = order.templateId
    · subst same
      simpa [recordSpend] using byTemplate
    · simpa [recordSpend, same, kept.recorded.template] using kept.capped.template template
  · intro purchase member
    rcases mem_append.mp member with old | new
    · exact kept.priced purchase old
    · rw [mem_singleton.mp new]
      exact purchaseTotalPrice_nonneg order

theorem Kept.part {ledger bought : List Purchase} (kept : Kept settings today state ledger) (parts : wholes bought = [])
    (priced : ∀ purchase ∈ bought, 0 ≤ purchase.amount) :
    Kept settings today state (ledger ++ bought) := by
  have same : wholes (ledger ++ bought) = wholes ledger := by
    rw [wholes_append, parts, append_nil]
  refine ⟨kept.day, same ▸ kept.recorded, same ▸ kept.capped, fun purchase member => ?_⟩
  rcases mem_append.mp member with old | new
  · exact kept.priced purchase old
  · exact priced purchase new

theorem scanOrder_kept {scanned next : SpendState × List Purchase}
    (kept : Kept settings today scanned.1 (ledger ++ scanned.2))
    (done : scanOrder settings scanned offer = .ok next) :
    Kept settings today next.1 (ledger ++ next.2) := by
  unfold scanOrder at done
  split at done
  next =>
    cases done
    exact kept
  next looked =>
    split at done
    next =>
      cases done
      exact kept
    split at done
    next => cases done
    split at done
    next => cases done
    cases outcome : executePurchase offer with
    | error why =>
      rw [outcome] at done
      cases done
    | ok answer =>
      obtain ⟨postcondition, bought⟩ := answer
      rw [outcome] at done
      obtain ⟨priced, whole | part⟩ := executePurchase_ok outcome
      · obtain ⟨row, available⟩ := not_skipped (Bool.not_eq_true _ ▸ looked)
        obtain ⟨final, rfl⟩ := whole
        simp only [final, if_true, Except.ok.injEq] at done
        subst done
        rw [← append_assoc]
        exact kept.record available
      · simp only [part.1, Bool.false_eq_true, if_false, Except.ok.injEq] at done
        subst done
        rw [← append_assoc]
        exact kept.part part.2 priced

theorem scanOrders_kept {offers : List Offer} {scanned next : SpendState × List Purchase}
    (kept : Kept settings today scanned.1 (ledger ++ scanned.2))
    (done : scanOrders settings scanned offers = .ok next) :
    Kept settings today next.1 (ledger ++ next.2) := by
  induction offers generalizing scanned with
  | nil =>
    cases done
    exact kept
  | cons offer rest ih =>
    rw [scanOrders] at done
    cases outcome : scanOrder settings scanned offer with
    | error why =>
      rw [outcome] at done
      cases done
    | ok middle =>
      rw [outcome] at done
      exact ih (scanOrder_kept kept outcome) done

theorem scanOnce_kept {world : World} (scan : Scan)
    (kept : Kept settings today (loadState today world.file) world.ledger) :
    Kept settings today (loadState today (scanOnce settings today world scan).file)
        (scanOnce settings today world scan).ledger ∧
      ∃ bought, (scanOnce settings today world scan).ledger = world.ledger ++ bought := by
  have unchanged : world.ledger = world.ledger ++ [] := (append_nil _).symm
  unfold scanOnce
  split
  next =>
    cases outcome : scanOrders settings (loadState today world.file, []) scan.offers with
    | error why => exact ⟨kept, [], unchanged⟩
    | ok next =>
      obtain ⟨state, bought⟩ := next
      have scanned : Kept settings today state (world.ledger ++ bought) :=
        @scanOrders_kept settings today world.ledger _ (loadState today world.file, []) _ (by simpa using kept) outcome
      dsimp only
      split
      next => exact ⟨kept, [], unchanged⟩
      next =>
        refine ⟨?_, bought, rfl⟩
        rw [show loadState today (some _) = _ from if_pos scanned.day]
        exact scanned
  next => exact ⟨kept, [], unchanged⟩

theorem run_append (world : World) (earlier later : List Scan) : run settings today world (earlier ++ later) =
      run settings today (run settings today world earlier) later :=
  foldl_append ..

theorem run_kept (world : World)
    (kept : Kept settings today (loadState today world.file) world.ledger) (scans : List Scan) :
    Kept settings today (loadState today (run settings today world scans).file)
        (run settings today world scans).ledger ∧
      ∃ bought, (run settings today world scans).ledger = world.ledger ++ bought := by
  induction scans generalizing world with
  | nil => exact ⟨kept, [], (append_nil _).symm⟩
  | cons scan rest ih =>
    obtain ⟨first, bought, grown⟩ := scanOnce_kept scan kept
    obtain ⟨last, more, further⟩ := ih _ first
    refine ⟨last, bought ++ more, ?_⟩
    rw [← append_assoc, ← grown]
    exact further

def parts (ledger : List Purchase) : List Purchase := ledger.filter fun purchase => !purchase.whole

theorem total_split (ledger : List Purchase) (chosen : Purchase → Bool) :
    total ledger chosen = total (wholes ledger) chosen + total (parts ledger) chosen := by
  induction ledger with
  | nil => rfl
  | cons purchase rest ih =>
    have head := fun (more : List Purchase) => total_append [purchase] more chosen
    simp only [singleton_append] at head
    rw [head rest, ih]
    cases whole : purchase.whole with
    | true =>
      have left : wholes (purchase :: rest) = purchase :: wholes rest := by simp [wholes, whole]
      have right : parts (purchase :: rest) = parts rest := by simp [parts, whole]
      rw [left, right, head (wholes rest)]
      omega
    | false =>
      have left : wholes (purchase :: rest) = wholes rest := by simp [wholes, whole]
      have right : parts (purchase :: rest) = purchase :: parts rest := by simp [parts, whole]
      rw [left, right, head (parts rest)]
      omega

theorem total_zero (free : ∀ purchase ∈ ledger, purchase.amount = 0)
    (chosen : Purchase → Bool) : total ledger chosen = 0 := by
  refine sum_eq_zero fun amount member => ?_
  obtain ⟨purchase, listed, rfl⟩ := mem_map.mp member
  exact free purchase (mem_of_mem_filter listed)

def Unpaid (ledger : List Purchase) : Prop :=
  ∀ purchase ∈ ledger, purchase.whole = false → purchase.amount = 0

theorem Unpaid.total (unpaid : Unpaid ledger) (chosen : Purchase → Bool) :
    Buyer.total ledger chosen = Buyer.total (wholes ledger) chosen := by
  have nothing : Buyer.total (parts ledger) chosen = 0 := total_zero (fun purchase member => by
    obtain ⟨listed, part⟩ := mem_filter.mp member
    exact unpaid purchase listed (by simpa using part)) chosen
  rw [total_split, nothing, Int.add_zero]

theorem unpaid_of_total (priced : ∀ purchase ∈ ledger, 0 ≤ purchase.amount)
    (same : total (wholes ledger) (fun _ => true) = total ledger fun _ => true) : Unpaid ledger := by
  intro purchase member part
  rw [total_split ledger] at same
  have listed : purchase.amount ∈ ((parts ledger).filter fun _ => true).map Purchase.amount := by
    refine mem_map_of_mem (mem_filter.mpr ⟨mem_filter.mpr ⟨member, ?_⟩, rfl⟩)
    simp [part]
  have bound : purchase.amount ≤ total (parts ledger) fun _ => true := by
    refine single_le_sum (fun amount present => ?_) _ listed
    obtain ⟨other, inside, rfl⟩ := mem_map.mp present
    exact priced other (mem_of_mem_filter (mem_of_mem_filter inside))
  have zero := priced purchase member
  omega

/-- The caps are respected and the saved totals are those of what was committed. -/
structure Sound (settings : BuyerSettings) (today : String) (world : World) : Prop where
  capped : Capped settings world.ledger
  recorded : Recorded (loadState today world.file) world.ledger

structure Allowed (settings : BuyerSettings) : Prop where
  global : 0 ≤ settings.globalCap
  seller : 0 ≤ settings.sellerCap
  template : 0 ≤ settings.templateCap

theorem Kept.sound {world : World} (kept : Kept settings today (loadState today world.file) world.ledger)
    (unpaid : Unpaid world.ledger) : Sound settings today world := by
  refine ⟨⟨?_, fun seller => ?_, fun template => ?_⟩, ⟨?_, fun seller => ?_, fun template => ?_⟩⟩
  · rw [unpaid.total]
    exact kept.capped.global
  · rw [unpaid.total]
    exact kept.capped.seller seller
  · rw [unpaid.total]
    exact kept.capped.template template
  · rw [unpaid.total]
    exact kept.recorded.global
  · rw [unpaid.total]
    exact kept.recorded.seller seller
  · rw [unpaid.total]
    exact kept.recorded.template template

theorem day_begins (allowed : Allowed settings) {file : Option SpendState}
    (other : ∀ state, file = some state → state.day ≠ today) :
    Kept settings today (loadState today file) [] := by
  have fresh : loadState today file = ⟨today, 0, fun _ => 0, fun _ => 0⟩ := by
    cases file with
    | none => rfl
    | some state => exact if_neg (other state rfl)
  rw [fresh]
  exact ⟨rfl, ⟨rfl, fun _ => rfl, fun _ => rfl⟩,
    ⟨allowed.global, fun _ => allowed.seller, fun _ => allowed.template⟩, by simp⟩

/-- Through the whole day the caps hold and the totals are right exactly when no cap is negative and
nothing was committed for a part of a listing. -/
theorem spend_caps_hold_iff (settings : BuyerSettings) (today : String) (file : Option SpendState)
    (scans : List Scan) (other : ∀ state, file = some state → state.day ≠ today) :
    (∀ earlier later, scans = earlier ++ later → Sound settings today (run settings today ⟨file, []⟩ earlier)) ↔
      Allowed settings ∧ Unpaid (run settings today ⟨file, []⟩ scans).ledger := by
  constructor
  · intro sound
    have begun := (sound [] scans rfl).capped
    have allowed : Allowed settings := ⟨begun.global, begun.seller 0, begun.template ""⟩
    obtain ⟨kept, -⟩ := run_kept ⟨file, []⟩ (day_begins allowed other) scans
    refine ⟨allowed, unpaid_of_total kept.priced ?_⟩
    have last := sound scans [] (append_nil _).symm
    rw [← kept.recorded.global, ← last.recorded.global]
  · rintro ⟨allowed, unpaid⟩ earlier later rfl
    obtain ⟨kept, -⟩ := run_kept ⟨file, []⟩ (day_begins allowed other) earlier
    obtain ⟨-, bought, grown⟩ := run_kept _ kept later
    rw [run_append] at unpaid
    rw [grown] at unpaid
    exact kept.sound fun purchase member => unpaid purchase (mem_append_left _ member)

def plainBuyer : BuyerSettings where
  dryRun := false
  purchasesEnabled := true
  confirmed := true
  includeNpcTestOrders := false
  populatorOwner _ := false
  blockedSeller _ := false
  catalog template := if template = "spice" then some ⟨true, 1000⟩ else none
  globalCap := 50000
  sellerCap := 10000
  templateCap := 15000

def nineOfTen : Offer := ⟨⟨5, 70, "spice", 1000, some 10, none, false⟩, false, true, .fulfills 9⟩

def allOfTen : Offer := { nineOfTen with fulfillment := .finalizes }

def twoParts : List Scan := [⟨true, [nineOfTen], false⟩, ⟨true, [nineOfTen], false⟩]

/-- The seller was paid eighteen thousand under a cap of ten, and nothing is recorded. -/
theorem parts_exceed_cap : total (run plainBuyer "2026-11-19" ⟨none, []⟩ twoParts).ledger (ofSeller 70) = 18000 ∧
      (loadState "2026-11-19" (run plainBuyer "2026-11-19" ⟨none, []⟩ twoParts).file).spentGlobal = 0 ∧
      ¬ Sound plainBuyer "2026-11-19" (run plainBuyer "2026-11-19" ⟨none, []⟩ twoParts) := by
  have paid : total (run plainBuyer "2026-11-19" ⟨none, []⟩ twoParts).ledger (ofSeller 70) = 18000 := by
    decide
  refine ⟨paid, by decide, fun sound => ?_⟩
  have bound := sound.capped.seller 70
  rw [paid] at bound
  exact absurd bound (by decide)

theorem whole_listing_sound : (∀ state, (none : Option SpendState) = some state → state.day ≠ "2026-11-19") ∧
      ∀ earlier later, [⟨true, [allOfTen], false⟩] = earlier ++ later →
        Sound plainBuyer "2026-11-19" (run plainBuyer "2026-11-19" ⟨none, []⟩ earlier) := by
  have other : ∀ state, (none : Option SpendState) = some state → state.day ≠ "2026-11-19" := by
    simp
  refine ⟨other, (spend_caps_hold_iff plainBuyer "2026-11-19" none [⟨true, [allOfTen], false⟩]
    other).mpr ⟨⟨by decide, by decide, by decide⟩, ?_⟩⟩
  unfold Unpaid
  decide

end Dash.Exchange.Buyer
