import Dash.Foundation.Table
import Dash.Foundation.Transaction
import Dash.Python.Value

/-! Settlement of sold orders on the Exchange: a claim credits the seller's bank and removes the
order, in one transaction, from a report that was read earlier. In every schedule of any number of
claiming processes, the banks gain what the removed orders were worth.

Two functions of the game's database are parameters: which Exchange user belongs to a player, and
whether a user row that was just created is seen by the update that follows. The rows of currencies
other than Solaris are left out.
-/

set_option autoImplicit false

namespace Dash.Exchange

open Dash.Python Dash.Foundation

/-- A row of `dune.dune_exchange_orders`. -/
structure SaleOrder where
  (id ownerId : Int)
  itemId : Option Int
  itemPrice : Int

/-- A row of `dune.dune_exchange_fulfilled_orders`, which has the order as its key. -/
structure Fulfilled where
  (orderId completionType stackSize : Int)
  (sourceOrderId originalOrderId : Option Int)

structure Accounts where
  orders : List SaleOrder
  fulfilled : List Fulfilled
  /-- The Solaris rows of `dune.player_virtual_currency_balances`. -/
  bank : Int → Option Int
  /-- `dune.dune_exchange_users.solari_balance` -/
  users : Int → Option Int

structure ReportRow where
  (orderId ownerId : Int)
  itemId : Option Int
  (itemPrice completionType stackSize : Int)
  (sourceOrderId originalOrderId currencyBalance : Option Int)
  expectedSolari : Int

/-- What `execute_direct_seller_claim` returns. -/
structure ClaimResult where
  totalItemValue : Int
  originalOrderId : Option Int
  (beforeBankBalance afterBankBalance credited : Int)
  stillExists : Bool

/-- The database functions and the configured type of a sale. -/
structure Native where
  /-- `dune.dune_exchange_get_user_id` -/
  getUserId : Int → Int
  /-- A user row that this function creates is seen by the statement that called it. -/
  seesCreated : Bool
  /-- The fulfilled row goes with its order. -/
  cascades : Bool
  soldCompletionType : Int

namespace Settlement

abbrev Work (α : Type) : Type := Transaction Accounts Exception α

def runtimeError {α : Type} (message : String) : Work α :=
  Transaction.raise ⟨.runtimeError, message⟩

def noItem (itemId : Option Int) : Bool := itemId.getD 0 = 0

def balance (db : Accounts) (controllerId : Int) : Int := (db.bank controllerId).getD 0

def fulfilledOf (db : Accounts) (orderId : Int) : Option Fulfilled :=
  db.fulfilled.find? fun row => row.orderId = orderId

section

variable (native : Native)

def mirrorBalance (ownerId afterBalance : Int) : Work Unit := fun db =>
  if (db.users (native.getUserId ownerId)).isSome || native.seesCreated then
    .ok ((), { db with
      users := Function.update db.users (native.getUserId ownerId) (some afterBalance) })
  else .error ⟨.runtimeError, "Exchange Solari mirror verification failed"⟩

/-- `credit_solaris_bank`: the balance before and after. A balance is a `bigint`. -/
def creditSolarisBank (controllerId amount : Int) : Work (Int × Int) :=
  if amount ≤ 0 then
    Transaction.raise ⟨.valueError, "bank Solari credit must be positive"⟩
  else do
    Transaction.write fun db => { db with
      bank := Function.update db.bank controllerId (some (balance db controllerId)) }
    let before ← Transaction.read fun db => balance db controllerId
    Transaction.check (decide (before + amount < 2 ^ 63)) ⟨.integrityError, "bigint out of range"⟩
    Transaction.write fun db => { db with
      bank := Function.update db.bank controllerId (some (before + amount)) }
    mirrorBalance native controllerId (before + amount)
    let verified ← Transaction.read fun db => db.bank controllerId
    Transaction.check (decide (verified = some (before + amount)))
      ⟨.runtimeError, "Solaris bank balance verification failed"⟩
    pure (before, before + amount)

/-- `delete from dune.dune_exchange_orders where id=…` -/
def deleteOrder (orderId : Int) : Work Unit :=
  Transaction.write fun db => { db with
    orders := db.orders.filter fun row => row.id ≠ orderId,
    fulfilled := if native.cascades then db.fulfilled.filter fun row => row.orderId ≠ orderId
      else db.fulfilled }

def lockedRow (orderId : Int) (db : Accounts) : Option (SaleOrder × Fulfilled) :=
  match db.orders.find? (fun row => row.id = orderId), fulfilledOf db orderId with
  | some order, some fulfilled => some (order, fulfilled)
  | _, _ => none

def checkLocked (row : ReportRow) (order : SaleOrder) (fulfilled : Fulfilled) : Result Unit :=
  if order.ownerId ≠ row.ownerId then
    .error ⟨.runtimeError, "settlement owner changed before claim"⟩
  else if noItem order.itemId = false then
    .error ⟨.runtimeError, "settlement order has item_id; refusing Solari claim"⟩
  else if fulfilled.completionType ≠ native.soldCompletionType then
    .error ⟨.runtimeError, "settlement completion type is not a seller Solari claim"⟩
  else if order.itemPrice * fulfilled.stackSize ≠ row.expectedSolari then
    .error ⟨.runtimeError, "settlement value changed before claim"⟩
  else .ok ()

def executeDirectSellerClaim (row : ReportRow) : Work ClaimResult := do
  let locked ← Transaction.read (lockedRow row.orderId)
  match locked with
  | none => runtimeError ("settlement order " ++ toString row.orderId ++ " vanished before claim")
  | some (order, fulfilled) => do
    Transaction.lift (checkLocked native row order fulfilled)
    let bank ← creditSolarisBank native row.ownerId row.expectedSolari
    deleteOrder native row.orderId
    let still ← Transaction.read fun db => decide (row.orderId ∈ db.orders.map SaleOrder.id)
    pure ⟨row.expectedSolari, fulfilled.originalOrderId, bank.1, bank.2, bank.2 - bank.1, still⟩

def valid (row : ReportRow) (result : ClaimResult) : Bool :=
  decide (result.totalItemValue = row.expectedSolari) &&
    decide (result.originalOrderId.getD 0 = row.originalOrderId.getD 0) &&
    decide (result.credited = row.expectedSolari) && !result.stillExists

inductive Outcome where
  | claimed | dryRun | invalid | raised

def settle (dryRun : Bool) (row : ReportRow) (db : Accounts) : Outcome × Accounts :=
  match executeDirectSellerClaim native row db with
  | .error _ => (.raised, db)
  | .ok (result, after) =>
    if valid row result then if dryRun then (.dryRun, db) else (.claimed, after)
    else (.invalid, db)

def settlementReport (limit : Nat) (db : Accounts) : List ReportRow :=
  let joined := db.orders.filterMap fun order =>
    (fulfilledOf db order.id).map fun fulfilled =>
      (⟨order.id, order.ownerId, order.itemId, order.itemPrice, fulfilled.completionType,
        fulfilled.stackSize, fulfilled.sourceOrderId, fulfilled.originalOrderId,
        db.bank order.ownerId, order.itemPrice * fulfilled.stackSize⟩ : ReportRow)
  (joined.insertionSort fun first second => second.orderId ≤ first.orderId).take limit

def keyPart (value : Int) : String := if value = 0 then "" else toString value

def settlementClaimKey (row : ReportRow) : String :=
  join ":" [keyPart row.orderId, keyPart (row.sourceOrderId.getD 0),
    keyPart (row.originalOrderId.getD 0), keyPart row.completionType]

/-- `claim_all_settlements` passes a row over. -/
def passedOver (row : ReportRow) : Bool :=
  decide ((if row.completionType = 0 then -1 else row.completionType) ≠ native.soldCompletionType) ||
    !noItem row.itemId

end

/-- A call in progress: the rows it still has to handle and `claimed_settlements` as it knows it. -/
structure Process where
  (single dryRun : Bool)
  rows : List ReportRow
  keys : List String

structure Claim where
  (orderId seller amount : Int)
  deriving DecidableEq

inductive Event where
  /-- `claim_settlement_once` has read its report and the state file. -/
  | once (process : Nat) (orderId : Int) (keys : List String)
  /-- `claim_all_settlements` has read its report and the state file. -/
  | all (process : Nat) (limit : Nat) (dryRun : Bool) (keys : List String)
  /-- The process handles its next row. -/
  | turn (process : Nat)

structure System where
  db : Accounts
  process : Nat → Process
  claims : List Claim

def System.started (db : Accounts) : System := ⟨db, fun _ => ⟨false, false, [], []⟩, []⟩

variable (native : Native)

/-- The next row of a process. An exception ends the call, and so does the only row of
`claim_settlement_once`. -/
def handle (process : Process) (db : Accounts) : Process × Accounts × List Claim :=
  match process.rows with
  | [] => (process, db, [])
  | row :: rest =>
    if settlementClaimKey row ∈ process.keys then ({ process with rows := rest }, db, [])
    else if !process.single && passedOver native row then ({ process with rows := rest }, db, [])
    else
      match settle native process.dryRun row db with
      | (.claimed, after) =>
        ({ process with rows := rest, keys := process.keys ++ [settlementClaimKey row] }, after,
          [⟨row.orderId, row.ownerId, row.expectedSolari⟩])
      | (.raised, after) => ({ process with rows := [] }, after, [])
      | (_, after) => ({ process with rows := rest }, after, [])

def step (system : System) (event : Event) : System :=
  match event with
  | .once process orderId keys =>
    let rows := ((settlementReport 1000 system.db).find? fun row => row.orderId = orderId).toList
    { system with process := Function.update system.process process ⟨true, false, rows, keys⟩ }
  | .all process limit dryRun keys =>
    let rows := settlementReport limit system.db
    { system with process := Function.update system.process process ⟨false, dryRun, rows, keys⟩ }
  | .turn process =>
    let (next, db, claims) := handle native (system.process process) system.db
    ⟨db, Function.update system.process process next, system.claims ++ claims⟩

def run (db : Accounts) (events : List Event) : System :=
  events.foldl (step native) (System.started db)

end Settlement

end Dash.Exchange

namespace Dash.Exchange.Settlement

open Dash.Python Dash.Foundation List
open Foundation.Transaction (bind_ok check_bind guard_ok lift_bind pure_ok raise_ok read_bind write_bind)
open Function (injective_id update_of_ne update_self)

variable {native : Native}

variable {db after : Accounts}

theorem mirrorBalance_ok {ownerId afterBalance : Int} {done : Unit}
    (made : mirrorBalance native ownerId afterBalance db = .ok (done, after)) :
    after = { db with
      users := Function.update db.users (native.getUserId ownerId) (some afterBalance) } := by
  rw [mirrorBalance] at made
  split at made
  next =>
    cases made
    rfl
  next => cases made

/-- A credit is positive, adds to the bank, and writes the new balance to the mirror. -/
theorem creditSolarisBank_ok {controllerId amount : Int} {bank : Int × Int}
    (made : creditSolarisBank native controllerId amount db = .ok (bank, after)) :
    (0 < amount ∧ balance db controllerId + amount < 2 ^ 63) ∧
      bank = (balance db controllerId, balance db controllerId + amount) ∧ after = { db with
        bank := Function.update db.bank controllerId (some (balance db controllerId + amount))
        users := Function.update db.users (native.getUserId controllerId)
          (some (balance db controllerId + amount)) } := by
  rw [creditSolarisBank, guard_ok] at made
  obtain ⟨positive, made⟩ := made
  simp only [write_bind, read_bind, check_bind] at made
  have opened : balance { db with
      bank := Function.update db.bank controllerId (some (balance db controllerId)) } controllerId =
        balance db controllerId := by
    simp [balance]
  rw [opened] at made
  obtain ⟨fits, made⟩ := made
  obtain ⟨_, middle, mirrored, rest⟩ := bind_ok.mp made
  obtain rfl := mirrorBalance_ok mirrored
  simp only [read_bind, check_bind] at rest
  obtain ⟨rfl, rfl⟩ := Prod.mk.inj (pure_ok.mp rest.2)
  refine ⟨⟨Int.not_le.mp positive, of_decide_eq_true fits⟩, rfl, ?_⟩
  simp

variable {row : ReportRow} {order : SaleOrder}

theorem checkLocked_ok {fulfilled : Fulfilled} {done : Unit}
    (checked : checkLocked native row order fulfilled = .ok done) :
    order.ownerId = row.ownerId ∧ noItem order.itemId = true ∧ fulfilled.completionType = native.soldCompletionType ∧
      order.itemPrice * fulfilled.stackSize = row.expectedSolari := by
  rw [checkLocked] at checked
  split at checked
  next => cases checked
  split at checked
  next => cases checked
  split at checked
  next => cases checked
  split at checked
  next => cases checked
  next owner item type value =>
    exact ⟨not_not.mp owner, (Bool.not_eq_false _).mp item, not_not.mp type, not_not.mp value⟩

def worthOf (order : SaleOrder) (fulfilled : Fulfilled) : Int :=
  order.itemPrice * fulfilled.stackSize

def Sold (native : Native) (order : SaleOrder) (fulfilled : Fulfilled) : Prop :=
  noItem order.itemId = true ∧ fulfilled.completionType = native.soldCompletionType

structure Paid (native : Native) (order : SaleOrder) (amount : Int) (db after : Accounts) : Prop where
  bank : after.bank = Function.update db.bank order.ownerId (some (balance db order.ownerId + amount))
  users : after.users = Function.update db.users (native.getUserId order.ownerId)
    (some (balance db order.ownerId + amount))
  orders : after.orders = db.orders.filter fun row => row.id ≠ order.id
  fulfilled : ∀ id, id ≠ order.id → fulfilledOf after id = fulfilledOf db id

theorem deleteOrder_fulfilled (native : Native) (orderId : Int) (db : Accounts) {id : Int} (other : id ≠ orderId) :
    (if native.cascades then db.fulfilled.filter fun row => row.orderId ≠ orderId
      else db.fulfilled).find? (fun row => row.orderId = id) = fulfilledOf db id := by
  split
  next =>
    rw [List.find?_filter, fulfilledOf]
    congr 1
    funext row
    by_cases same : row.orderId = id
    · simp [same, other]
    · simp [same]
  next => rfl

variable {result : ClaimResult}

/-- A claim that goes through pays an order that is there to its seller, and removes it. -/
theorem executeDirectSellerClaim_ok (made : executeDirectSellerClaim native row db = .ok (result, after)) :
    ∃ order ∈ db.orders, ∃ fulfilled, fulfilledOf db order.id = some fulfilled ∧
      order.id = row.orderId ∧ order.ownerId = row.ownerId ∧ Sold native order fulfilled ∧
      worthOf order fulfilled = row.expectedSolari ∧
      (0 < row.expectedSolari ∧ balance db row.ownerId + row.expectedSolari < 2 ^ 63) ∧
      Paid native order row.expectedSolari db after := by
  rw [executeDirectSellerClaim, read_bind, lockedRow] at made
  cases found : db.orders.find? fun order => order.id = row.orderId with
  | none =>
    rw [found] at made
    exact (raise_ok.mp made).elim
  | some order =>
    cases matched : fulfilledOf db row.orderId with
    | none =>
      rw [found, matched] at made
      exact (raise_ok.mp made).elim
    | some fulfilled =>
      rw [found, matched] at made
      have name : order.id = row.orderId := by simpa using List.find?_some found
      rw [lift_bind] at made
      obtain ⟨_, checked, made⟩ := made
      obtain ⟨owner, item, type, value⟩ := checkLocked_ok checked
      obtain ⟨bank, middle, credited, rest⟩ := bind_ok.mp made
      obtain ⟨positive, -, rfl⟩ := creditSolarisBank_ok credited
      simp only [deleteOrder, write_bind, read_bind] at rest
      obtain ⟨-, rfl⟩ := Prod.mk.inj (pure_ok.mp rest)
      refine ⟨order, List.mem_of_find?_eq_some found, fulfilled, name ▸ matched, name, owner,
        ⟨item, type⟩, value, positive, ?_, ?_, ?_, ?_⟩
      · rw [owner]
      · rw [owner]
      · rw [name]
      · intro id other
        exact deleteOrder_fulfilled native row.orderId db (name ▸ other)

theorem settle_unchanged (dryRun : Bool) (row : ReportRow) (db : Accounts)
    (other : (settle native dryRun row db).1 ≠ .claimed) : (settle native dryRun row db).2 = db := by
  unfold settle at other ⊢
  split
  next => rfl
  next result after made =>
    rw [made] at other
    split
    next accepted =>
      split
      next => rfl
      next applied => simp [accepted, applied] at other
    next => rfl

theorem settle_dryRun {db : Accounts} : (settle native true row db).1 ≠ .claimed := by
  unfold settle
  split
  next => simp
  next => split <;> simp

theorem settle_claimed {dryRun : Bool} (claimed : settle native dryRun row db = (.claimed, after)) :
    ∃ result, executeDirectSellerClaim native row db = .ok (result, after) := by
  unfold settle at claimed
  split at claimed
  next => cases claimed
  next result last made =>
    split at claimed
    next =>
      split at claimed
      next => cases claimed
      next =>
        cases claimed
        exact ⟨result, made⟩
    next => cases claimed

def worth (db : Accounts) (order : SaleOrder) : Int :=
  match fulfilledOf db order.id with
  | some fulfilled => worthOf order fulfilled
  | none => 0

def worthOfSeller (start : Accounts) (seller : Int) (gone : SaleOrder → Bool) : Int :=
  (start.orders.map fun order =>
    if order.ownerId = seller ∧ gone order = true then worth start order else 0).sum

def isClaimed (claims : List Claim) (order : SaleOrder) : Bool :=
  decide (order.id ∈ claims.map Claim.orderId)

/-- What the committed claims have made of the database they began with. -/
structure Progress (native : Native) (start : Accounts) (claims : List Claim) (db : Accounts) :
    Prop where
  orders : db.orders = start.orders.filter fun order => !isClaimed claims order
  fulfilled : ∀ id, id ∉ claims.map Claim.orderId → fulfilledOf db id = fulfilledOf start id
  once : (claims.map Claim.orderId).Nodup
  real : ∀ claim ∈ claims, ∃ order ∈ start.orders, ∃ fulfilled,
    fulfilledOf start order.id = some fulfilled ∧ order.id = claim.orderId ∧
      order.ownerId = claim.seller ∧ Sold native order fulfilled ∧
      worthOf order fulfilled = claim.amount ∧ 0 < claim.amount
  bank : ∀ seller, balance db seller = balance start seller + worthOfSeller start seller (isClaimed claims)
  mirror : ∀ claim ∈ claims, db.users (native.getUserId claim.seller) = db.bank claim.seller ∧
    (db.bank claim.seller).isSome = true

theorem Progress.start (db : Accounts) : Progress native db [] db where
  orders := by simp [isClaimed]
  fulfilled := fun _ _ => rfl
  once := nodup_nil
  real := by simp
  bank := by simp [worthOfSeller, isClaimed]
  mirror := by simp

variable {claims : List Claim}

/-- One more claim adds the worth of its order to its seller. -/
theorem worthOfSeller_claim {start : Accounts} (claim : Claim) (keyed : (start.orders.map SaleOrder.id).Nodup)
    (member : order ∈ start.orders) (name : order.id = claim.orderId)
    (fresh : claim.orderId ∉ claims.map Claim.orderId) (seller : Int) :
    worthOfSeller start seller (isClaimed (claims ++ [claim])) = worthOfSeller start seller (isClaimed claims) +
        if order.ownerId = seller then worth start order else 0 := by
  rw [worthOfSeller, worthOfSeller]
  generalize worth start = value
  generalize start.orders = rows at keyed member ⊢
  induction rows with
  | nil => cases member
  | cons head rest ih =>
    obtain ⟨absent, keyed⟩ := nodup_cons.mp keyed
    rw [map_cons, map_cons, sum_cons, sum_cons]
    rcases mem_cons.mp member with rfl | later
    · -- the other orders have other identifiers
      have others : ∀ other ∈ rest, isClaimed (claims ++ [claim]) other = isClaimed claims other := by
        intro other present
        have apart : other.id ≠ claim.orderId := by
          rw [← name]
          exact fun same => absent (same ▸ mem_map_of_mem present)
        simp [isClaimed, apart]
      have tail : (rest.map fun other => if other.ownerId = seller ∧
          isClaimed (claims ++ [claim]) other = true then value other else 0) =
          rest.map fun other => if other.ownerId = seller ∧ isClaimed claims other = true then
            value other else 0 :=
        map_congr_left fun other present => by rw [others other present]
      have before : isClaimed claims order = false := by simp [isClaimed, name, fresh]
      have now : isClaimed (claims ++ [claim]) order = true := by simp [isClaimed, name]
      simp only [tail, before, now, Bool.false_eq_true, and_false, if_false, and_true]
      omega
    · have apart : head.id ≠ claim.orderId := by
        rw [← name]
        exact fun same => absent (same ▸ mem_map_of_mem later)
      have same : isClaimed (claims ++ [claim]) head = isClaimed claims head := by
        simp [isClaimed, apart]
      rw [ih keyed later, same]
      omega

/-- What the settlements of both programs have made of the database they began with: every order is
paid once, to its seller, and goes. -/
structure Booked (native : Native) (start : Accounts) (claims : List Claim) (db : Accounts) :
    Prop where
  orders : db.orders = start.orders.filter fun order => !isClaimed claims order
  fulfilled : ∀ id, id ∉ claims.map Claim.orderId → fulfilledOf db id = fulfilledOf start id
  once : (claims.map Claim.orderId).Nodup
  real : ∀ claim ∈ claims, ∃ order ∈ start.orders, ∃ fulfilled,
    fulfilledOf start order.id = some fulfilled ∧ order.id = claim.orderId ∧
      order.ownerId = claim.seller ∧ Sold native order fulfilled ∧
      worthOf order fulfilled = claim.amount
  bank : ∀ seller, balance db seller = balance start seller + worthOfSeller start seller (isClaimed claims)

theorem Booked.start (db : Accounts) : Booked native db [] db where
  orders := by simp [isClaimed]
  fulfilled := fun _ _ => rfl
  once := nodup_nil
  real := by simp
  bank := by simp [worthOfSeller, isClaimed]

structure Settles (native : Native) (claim : Claim) (db after : Accounts) : Prop where
  sold : ∃ order ∈ db.orders, ∃ fulfilled, fulfilledOf db order.id = some fulfilled ∧
    order.id = claim.orderId ∧ order.ownerId = claim.seller ∧ Sold native order fulfilled ∧
    worthOf order fulfilled = claim.amount
  bank : after.bank = Function.update db.bank claim.seller (some (balance db claim.seller + claim.amount))
  orders : after.orders = db.orders.filter fun row => row.id ≠ claim.orderId
  fulfilled : ∀ id, id ≠ claim.orderId → fulfilledOf after id = fulfilledOf db id

theorem Booked.settles {start db after : Accounts} (keyed : (start.orders.map SaleOrder.id).Nodup) {claim : Claim}
    (booked : Booked native start claims db) (settled : Settles native claim db after) :
    Booked native start (claims ++ [claim]) after := by
  obtain ⟨⟨order, member, fulfilled, matched, name, owner, sold, value⟩, bank, orders, other⟩ := settled
  rw [booked.orders] at member
  obtain ⟨member, unclaimed⟩ := mem_filter.mp member
  have fresh : claim.orderId ∉ claims.map Claim.orderId := by
    simpa [isClaimed, name] using unclaimed
  have matched : fulfilledOf start order.id = some fulfilled := booked.fulfilled _ (name ▸ fresh) ▸ matched
  have amount : worth start order = claim.amount := by rw [worth, matched, ← value]
  refine ⟨?_, ?_, ?_, ?_, ?_⟩
  · rw [orders, booked.orders, filter_filter]
    apply filter_congr
    intro row _
    rw [Bool.eq_iff_iff]
    simp only [isClaimed, map_append, map_singleton, mem_append, mem_singleton,
      Bool.and_eq_true, Bool.not_eq_true', decide_eq_false_iff_not, decide_eq_true_eq]
    tauto
  · intro id apart
    simp only [map_append, mem_append, map_cons, map_nil, mem_singleton, not_or] at apart
    rw [other id apart.2, booked.fulfilled id apart.1]
  · rw [map_append, map_singleton]
    refine nodup_append.mpr ⟨booked.once, by simp, fun id listed last new same => ?_⟩
    rw [mem_singleton.mp new] at same
    exact fresh (same ▸ listed)
  · intro one listed
    rcases mem_append.mp listed with old | new
    · exact booked.real one old
    · obtain rfl := mem_singleton.mp new
      exact ⟨order, member, fulfilled, matched, name, owner, sold, value⟩
  · intro seller
    rw [worthOfSeller_claim claim keyed member name fresh seller, amount, ← Int.add_assoc,
      ← booked.bank seller, balance, bank, owner]
    by_cases same : claim.seller = seller
    · subst same
      simp
    · rw [update_of_ne (Ne.symm same), if_neg same, Int.add_zero]
      rfl

theorem executeDirectSellerClaim_settles (made : executeDirectSellerClaim native row db = .ok (result, after)) :
    Settles native ⟨row.orderId, row.ownerId, row.expectedSolari⟩ db after ∧
      after.users = Function.update db.users (native.getUserId row.ownerId) (after.bank row.ownerId) := by
  obtain ⟨order, member, fulfilled, matched, name, owner, sold, value, -, paid⟩ :=
    executeDirectSellerClaim_ok made
  obtain ⟨bank, users, orders, other⟩ := paid
  rw [owner] at bank users
  rw [name] at orders
  refine ⟨⟨⟨order, member, fulfilled, matched, name, owner, sold, value⟩, bank, orders, ?_⟩, ?_⟩
  · exact name ▸ other
  · rw [users, bank, update_self]

theorem Progress.booked {start db : Accounts}
    (progress : Progress native start claims db) : Booked native start claims db where
  orders := progress.orders
  fulfilled := progress.fulfilled
  once := progress.once
  real := fun claim listed => by
    obtain ⟨order, member, fulfilled, matched, name, owner, sold, value, -⟩ := progress.real claim listed
    exact ⟨order, member, fulfilled, matched, name, owner, sold, value⟩
  bank := progress.bank

theorem Progress.claim (injective : Function.Injective native.getUserId) {start db after : Accounts}
    (keyed : (start.orders.map SaleOrder.id).Nodup) (progress : Progress native start claims db)
    (made : executeDirectSellerClaim native row db = .ok (result, after)) :
    Progress native start (claims ++ [⟨row.orderId, row.ownerId, row.expectedSolari⟩]) after := by
  obtain ⟨settles, users⟩ := executeDirectSellerClaim_settles made
  obtain ⟨-, -, -, -, -, -, -, -, ⟨positive, -⟩, -⟩ := executeDirectSellerClaim_ok made
  have kept := progress.booked.settles keyed settles
  refine ⟨kept.orders, kept.fulfilled, kept.once, ?_, kept.bank, ?_⟩
  · intro claim listed
    obtain ⟨order, member, fulfilled, matched, name, owner, sold, value⟩ := kept.real claim listed
    refine ⟨order, member, fulfilled, matched, name, owner, sold, value, ?_⟩
    rcases mem_append.mp listed with old | new
    · obtain ⟨-, -, -, -, -, -, -, -, worthy⟩ := progress.real claim old
      exact worthy
    · rw [mem_singleton.mp new]
      exact positive
  · intro claim listed
    rw [users, settles.bank]
    by_cases same : claim.seller = row.ownerId
    · rw [same, update_self, update_self]
      exact ⟨rfl, rfl⟩
    · have apart : native.getUserId claim.seller ≠ native.getUserId row.ownerId :=
        fun equal => same (injective equal)
      rw [update_of_ne same, update_of_ne apart]
      rcases mem_append.mp listed with old | new
      · exact progress.mirror claim old
      · exact absurd (congrArg Claim.seller (mem_singleton.mp new)) same

theorem handle_progress (injective : Function.Injective native.getUserId) {start db : Accounts}
    (keyed : (start.orders.map SaleOrder.id).Nodup)
    (progress : Progress native start claims db) (process : Process) :
    Progress native start (claims ++ (handle native process db).2.2) (handle native process db).2.1 ∧
      ((handle native process db).2.2 = [] → (handle native process db).2.1 = db) := by
  unfold handle
  cases process.rows with
  | nil => simpa using progress
  | cons row rest =>
    dsimp only
    split
    next => simpa using progress
    split
    next => simpa using progress
    have unchanged := @settle_unchanged native process.dryRun row db
    cases settled : settle native process.dryRun row db with
    | mk outcome after =>
      rw [settled] at unchanged
      cases outcome with
      | claimed =>
        obtain ⟨result, made⟩ := settle_claimed settled
        exact ⟨progress.claim injective keyed made, fun none_ => by simp at none_⟩
      | dryRun =>
        obtain rfl := unchanged (by simp)
        simpa using progress
      | invalid =>
        obtain rfl := unchanged (by simp)
        simpa using progress
      | raised =>
        obtain rfl := unchanged (by simp)
        simpa using progress

theorem step_progress (injective : Function.Injective native.getUserId) {start : Accounts}
    (keyed : (start.orders.map SaleOrder.id).Nodup) {system : System}
    (progress : Progress native start system.claims system.db) (event : Event) :
    Progress native start (step native system event).claims (step native system event).db ∧
      ((step native system event).claims = system.claims → (step native system event).db = system.db) := by
  cases event with
  | once process orderId keys => exact ⟨progress, fun _ => rfl⟩
  | all process limit dryRun keys => exact ⟨progress, fun _ => rfl⟩
  | turn process =>
    obtain ⟨kept, same⟩ := handle_progress injective keyed progress (system.process process)
    refine ⟨kept, fun none_ => same ?_⟩
    exact append_right_eq_self.mp none_

theorem run_progress (injective : Function.Injective native.getUserId) {db : Accounts}
    (keyed : (db.orders.map SaleOrder.id).Nodup) (events : List Event) :
    Progress native db (run native db events).claims (run native db events).db := by
  induction events using List.reverseRecOn with
  | nil => exact Progress.start db
  | append_singleton earlier event ih =>
    rw [run, foldl_append]
    exact (step_progress injective keyed ih event).1

def removed (db : Accounts) (order : SaleOrder) : Bool :=
  decide (order.id ∉ db.orders.map SaleOrder.id)

/-- Between the first database and a system: every bank has grown by the worth of the seller's
removed orders, the others are as they were, and every removed order was sold, has no item and was
claimed once. -/
structure Conserved (native : Native) (start : Accounts) (system : System) : Prop where
  grown : ∀ seller, balance system.db seller =
    balance start seller + worthOfSeller start seller (removed system.db)
  kept : system.db.orders = start.orders.filter fun order => !removed system.db order
  sold : ∀ order ∈ start.orders, removed system.db order = true →
    ∃ fulfilled, fulfilledOf start order.id = some fulfilled ∧ Sold native order fulfilled
  once : (system.claims.map Claim.orderId).Nodup
  claimed : ∀ claim, claim ∈ system.claims ↔ ∃ order ∈ start.orders,
    removed system.db order = true ∧ claim = ⟨order.id, order.ownerId, worth start order⟩
  mirror : ∀ order ∈ start.orders, removed system.db order = true →
    system.db.users (native.getUserId order.ownerId) = some (balance system.db order.ownerId)

theorem Progress.removed_iff {start db : Accounts}
    (keyed : (start.orders.map SaleOrder.id).Nodup) (progress : Progress native start claims db)
    (member : order ∈ start.orders) :
    removed db order = isClaimed claims order := by
  rw [removed, progress.orders, Bool.eq_iff_iff, decide_eq_true_eq]
  constructor
  · intro gone
    by_contra open_
    apply gone
    exact mem_map_of_mem (mem_filter.mpr ⟨member, by simpa using open_⟩)
  · intro claimed listed
    obtain ⟨other, present, same⟩ := mem_map.mp listed
    obtain ⟨present, open_⟩ := mem_filter.mp present
    rw [Table.same_row keyed present member same, claimed] at open_
    cases open_

theorem Progress.conserved {start : Accounts} {system : System} (keyed : (start.orders.map SaleOrder.id).Nodup)
    (progress : Progress native start system.claims system.db) :
    Conserved native start system := by
  have gone : ∀ order ∈ start.orders, removed system.db order = isClaimed system.claims order :=
    fun order member => progress.removed_iff keyed member
  -- the claim of an order that is gone
  have found : ∀ order ∈ start.orders, removed system.db order = true → ∃ claim ∈ system.claims,
      claim.orderId = order.id ∧ claim.seller = order.ownerId ∧ claim.amount = worth start order ∧
      ∃ fulfilled, fulfilledOf start order.id = some fulfilled ∧ Sold native order fulfilled := by
    intro order member away
    rw [gone order member] at away
    obtain ⟨claim, listed, name⟩ := mem_map.mp (of_decide_eq_true away)
    obtain ⟨other, present, fulfilled, matched, same, owner, sold, value, -⟩ := progress.real claim listed
    obtain rfl := Table.same_row keyed present member (same.trans name)
    refine ⟨claim, listed, name, owner.symm, ?_, fulfilled, matched, sold⟩
    rw [worth, matched, ← value]
  refine ⟨fun seller => ?_, ?_, ?_, progress.once, ?_, ?_⟩
  · rw [progress.bank seller, worthOfSeller, worthOfSeller]
    congr 2
    exact map_congr_left fun order member => by rw [gone order member]
  · refine progress.orders.trans (filter_congr fun order member => ?_)
    rw [gone order member]
  · intro order member away
    obtain ⟨-, -, -, -, -, sold⟩ := found order member away
    exact sold
  · intro claim
    constructor
    · intro listed
      obtain ⟨order, member, fulfilled, matched, name, owner, -, value, -⟩ := progress.real claim listed
      refine ⟨order, member, ?_, ?_⟩
      · rw [gone order member]
        exact decide_eq_true (mem_map.mpr ⟨claim, listed, name.symm⟩)
      · have amount : worth start order = claim.amount := by rw [worth, matched, ← value]
        rw [amount, name, owner]
    · rintro ⟨order, member, away, rfl⟩
      obtain ⟨claim, listed, name, owner, amount, -⟩ := found order member away
      rw [← name, ← owner, ← amount]
      exact listed
  · intro order member away
    obtain ⟨claim, listed, -, owner, -⟩ := found order member away
    obtain ⟨same, some_⟩ := progress.mirror claim listed
    rw [owner] at same some_
    obtain ⟨value, has⟩ := Option.isSome_iff_exists.mp some_
    rw [same, balance, has]
    rfl

/-- In every schedule of any number of claiming processes the settlements are conserved, and what
does not commit a claim leaves the database as it was. -/
theorem settlements_conserved (native : Native) (injective : Function.Injective native.getUserId)
    (db : Accounts) (keyed : (db.orders.map SaleOrder.id).Nodup) (events : List Event) :
    Conserved native db (run native db events) ∧
      (∀ event, (step native (run native db events) event).claims = (run native db events).claims →
        (step native (run native db events) event).db = (run native db events).db) ∧
      ∀ dryRun row accounts, dryRun = true ∨ (settle native dryRun row accounts).1 ≠ .claimed →
          (settle native dryRun row accounts).2 = accounts := by
  have progress := run_progress injective keyed events
  refine ⟨progress.conserved keyed, fun event => (step_progress injective keyed progress event).2,
    fun dryRun row accounts reason => settle_unchanged _ _ _ ?_⟩
  rcases reason with rfl | other
  · exact settle_dryRun
  · exact other

def twoSales : Accounts where
  orders := [⟨1, 70, none, 25⟩, ⟨2, 80, some 0, 10⟩, ⟨3, 70, some 900, 5⟩]
  fulfilled := [⟨1, 1, 4, some 11, some 12⟩, ⟨2, 1, 3, none, none⟩, ⟨3, 0, 1, none, none⟩]
  bank controller := if controller = 70 then some 500 else none
  users _ := some 0

def plainNative : Native := ⟨id, false, true, 1⟩

def bothClaim : List Event :=
  [.once 0 1 [], .all 1 100 false [], .turn 0, .turn 1, .turn 1, .turn 1]

theorem bothClaim_conserved : Function.Injective plainNative.getUserId ∧ (twoSales.orders.map SaleOrder.id).Nodup ∧
      Conserved plainNative twoSales (run plainNative twoSales bothClaim) :=
  ⟨injective_id, by decide, (settlements_conserved plainNative injective_id twoSales (by decide) bothClaim).1⟩

example : (run plainNative twoSales bothClaim).claims = [⟨1, 70, 100⟩, ⟨2, 80, 30⟩] := by decide

end Dash.Exchange.Settlement
