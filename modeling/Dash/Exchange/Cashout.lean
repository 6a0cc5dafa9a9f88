import Dash.Exchange.Credits

/-! Settlement of sold orders from the chat: a player's cashout credits the bank and removes the
orders of its batch in one transaction, from candidates that were read earlier.

The bot's claim of the same order writes the Exchange user's mirror too. The two programs agree on
an order exactly where the mirror is right already, or where neither can settle it.
-/

set_option autoImplicit false

namespace Dash.Exchange

open Dash.Python Dash.Foundation List
open Foundation.Transaction (bind_error bind_of_ok bind_ok check_bind check_true_bind guard_ok
  lift_bind lift_value_bind pure_ok raise_ok read_bind write_bind)
open Function (update_of_ne update_self)

/-- A row of `player_exchange_cashout_candidates`. -/
structure Candidate where
  (orderId ownerId : Int)
  itemId : Option Int
  (itemPrice completionType stackSize : Int)
  (sourceOrderId originalOrderId : Option Int)
  expectedSolari : Int
  deriving DecidableEq

/-- What `execute_player_exchange_cashout_row` returns. -/
structure CashoutRow where
  (orderId stackSize credited beforeBalance afterBalance : Int)

/-- What `player_exchange_cashout` returns. -/
structure CashoutResult where
  dryRun : Bool
  claimed : List CashoutRow
  (candidateCount total : Nat)
  /-- `expectedSolari` of a dry run, `credited` otherwise. -/
  solari : Int

namespace Settlement

section

variable (native : Native)

def candidateOf (order : SaleOrder) (fulfilled : Fulfilled) : Candidate :=
  ⟨order.id, order.ownerId, order.itemId, order.itemPrice, fulfilled.completionType,
    fulfilled.stackSize, fulfilled.sourceOrderId, fulfilled.originalOrderId,
    order.itemPrice * fulfilled.stackSize⟩

/-- `player_exchange_cashout_candidates`: the rows, and how many there are without the limit. -/
def playerExchangeCashoutCandidates (limit : Nat) (ownerId : Int) (db : Accounts) : List Candidate × Nat :=
  let joined := db.orders.filterMap fun order =>
    (fulfilledOf db order.id).bind fun fulfilled =>
      if order.ownerId = ownerId ∧ fulfilled.completionType = native.soldCompletionType ∧
          order.itemId = none then some (candidateOf order fulfilled) else none
  ((joined.insertionSort fun first second => first.orderId ≤ second.orderId).take limit, joined.length)

/-- A balance is a `bigint`. -/
def inBigint (value : Int) : Bool := decide (-2 ^ 63 ≤ value ∧ value < 2 ^ 63)

def ownedRow (orderId ownerId : Int) (db : Accounts) : Option (SaleOrder × Fulfilled) :=
  match db.orders.find? (fun row => row.id = orderId ∧ row.ownerId = ownerId),
      fulfilledOf db orderId with
  | some order, some fulfilled => some (order, fulfilled)
  | _, _ => none

def checkOwned (row : Candidate) (order : SaleOrder) (fulfilled : Fulfilled) : Result Unit :=
  if noItem order.itemId = false then
    .error ⟨.runtimeError, "settlement order has item_id; refusing Solari cashout"⟩
  else if fulfilled.completionType ≠ native.soldCompletionType then
    .error ⟨.runtimeError, "settlement completion type is not a seller Solari claim"⟩
  else if order.itemPrice * fulfilled.stackSize ≠ row.expectedSolari then
    .error ⟨.runtimeError, "settlement value changed before cashout: expected " ++
      toString row.expectedSolari ++ ", got " ++ toString (order.itemPrice * fulfilled.stackSize)⟩
  else .ok ()

def executePlayerExchangeCashoutRow (ownerId : Int) (row : Candidate) : Work CashoutRow := do
  Transaction.write fun db => { db with
    bank := Function.update db.bank ownerId (some (balance db ownerId)) }
  let before ← Transaction.read fun db => balance db ownerId
  let locked ← Transaction.read (ownedRow row.orderId ownerId)
  match locked with
  | none => runtimeError ("settlement order " ++ toString row.orderId ++ " was not found")
  | some (order, fulfilled) => do
    Transaction.lift (checkOwned native row order fulfilled)
    Transaction.check (inBigint (before + row.expectedSolari)) ⟨.integrityError, "bigint out of range"⟩
    Transaction.write fun db => { db with
      bank := Function.update db.bank ownerId (some (before + row.expectedSolari)) }
    let after ← Transaction.read fun db => balance db ownerId
    deleteOrder native row.orderId
    let still ← Transaction.read fun db => decide (row.orderId ∈ db.orders.map SaleOrder.id)
    Transaction.check (decide (after - before = row.expectedSolari) && !still)
      ⟨.runtimeError, "cashout failed validation"⟩
    pure ⟨row.orderId, row.stackSize, after - before, before, after⟩

/-- The rows of one cashout, to commit or rollback: no rows where an exception is raised. -/
def cashout (ownerId : Int) (rows : List Candidate) (db : Accounts) : Option (List CashoutRow) × Accounts :=
  match Transaction.each (executePlayerExchangeCashoutRow native ownerId) rows db with
  | .ok (claimed, after) => (some claimed, after)
  | .error _ => (none, db)

/-- `player_exchange_cashout`, from candidates that were read from one database, on a later one. -/
def playerExchangeCashout (limit : Nat) (ownerId : Int) (dryRun : Bool) (seen db : Accounts) :
    Option CashoutResult × Accounts :=
  let (rows, total) := playerExchangeCashoutCandidates native limit ownerId seen
  if dryRun then
    (some ⟨true, [], rows.length, total, (rows.map Candidate.expectedSolari).sum⟩, db)
  else
    match cashout native ownerId rows db with
    | (some claimed, after) =>
      (some ⟨false, claimed, rows.length, total, (claimed.map CashoutRow.credited).sum⟩, after)
    | (none, after) => (none, after)

end

variable {native : Native}

variable {db : Accounts} {fulfilled : Fulfilled} {order : SaleOrder}

theorem ownedRow_some {orderId ownerId : Int} (locked : ownedRow orderId ownerId db = some (order, fulfilled)) :
    order ∈ db.orders ∧ order.id = orderId ∧ order.ownerId = ownerId ∧ fulfilledOf db orderId = some fulfilled := by
  unfold ownedRow at locked
  split at locked
  next found matched =>
    cases locked
    have named := List.find?_some found
    rw [decide_eq_true_eq] at named
    exact ⟨List.mem_of_find?_eq_some found, named.1, named.2, matched⟩
  next => cases locked

variable {row : Candidate}

theorem checkOwned_ok {done : Unit} (checked : checkOwned native row order fulfilled = .ok done) :
    Sold native order fulfilled ∧ worthOf order fulfilled = row.expectedSolari := by
  rw [checkOwned] at checked
  split at checked
  next => cases checked
  split at checked
  next => cases checked
  split at checked
  next => cases checked
  next item type value =>
    exact ⟨⟨(Bool.not_eq_false _).mp item, not_not.mp type⟩, not_not.mp value⟩

structure Credited (native : Native) (order : SaleOrder) (amount : Int) (db after : Accounts) :
    Prop where
  bank : after.bank = Function.update db.bank order.ownerId (some (balance db order.ownerId + amount))
  users : after.users = db.users
  orders : after.orders = db.orders.filter fun row => row.id ≠ order.id
  fulfilled : ∀ id, id ≠ order.id → fulfilledOf after id = fulfilledOf db id

variable {ownerId : Int}

variable {db after : Accounts}

/-- A row that goes through credits an order that is there to the player, and removes it. -/
theorem executePlayerExchangeCashoutRow_ok {result : CashoutRow}
    (made : executePlayerExchangeCashoutRow native ownerId row db = .ok (result, after)) :
    ∃ order ∈ db.orders, ∃ fulfilled, fulfilledOf db order.id = some fulfilled ∧
      order.id = row.orderId ∧ order.ownerId = ownerId ∧ Sold native order fulfilled ∧
      worthOf order fulfilled = row.expectedSolari ∧
      inBigint (balance db ownerId + row.expectedSolari) = true ∧
      Credited native order row.expectedSolari db after ∧ result.credited = row.expectedSolari := by
  rw [executePlayerExchangeCashoutRow, write_bind, read_bind, read_bind] at made
  have opened : balance { db with
      bank := Function.update db.bank ownerId (some (balance db ownerId)) } ownerId =
        balance db ownerId := by
    simp [balance]
  rw [opened] at made
  change (match ownedRow row.orderId ownerId db with
    | none => _
    | some (order, fulfilled) => _ : Work CashoutRow) _ = _ at made
  cases locked : ownedRow row.orderId ownerId db with
  | none =>
    rw [locked] at made
    exact (raise_ok.mp made).elim
  | some pair =>
    obtain ⟨order, fulfilled⟩ := pair
    obtain ⟨member, name, owner, matched⟩ := ownedRow_some locked
    rw [locked] at made
    obtain ⟨_, checked, made⟩ := lift_bind.mp made
    obtain ⟨sold, value⟩ := checkOwned_ok checked
    simp only [check_bind, write_bind, read_bind, deleteOrder] at made
    obtain ⟨fits, -, made⟩ := made
    obtain ⟨rfl, rfl⟩ := Prod.mk.inj (pure_ok.mp made)
    refine ⟨order, member, fulfilled, name ▸ matched, name, owner, sold, value, fits, ⟨?_, rfl, ?_, ?_⟩, ?_⟩
    · rw [owner, Function.update_idem]
    · rw [name]
    · intro id other
      exact deleteOrder_fulfilled native row.orderId db (name ▸ other)
    · simp [balance]

theorem checkOwned_sold (sold : Sold native order fulfilled) :
    checkOwned native (candidateOf order fulfilled) order fulfilled = .ok () := by
  rw [checkOwned, if_neg (by simp [sold.1]), if_neg (not_not.mpr sold.2)]
  exact if_neg (not_not.mpr rfl)

theorem find_keyed (keyed : (db.orders.map SaleOrder.id).Nodup)
    (member : order ∈ db.orders) (passes : SaleOrder → Bool) (own : passes order = true)
    (named : ∀ other, passes other = true → other.id = order.id) :
    db.orders.find? passes = some order := by
  cases found : db.orders.find? passes with
  | none => exact absurd own (List.find?_eq_none.mp found order member)
  | some other =>
    rw [Table.same_row keyed (List.mem_of_find?_eq_some found) member (named other (List.find?_some found))]

/-- Where the new balance is a `bigint`, a sold order is cashed out. -/
theorem cashout_fits (keyed : (db.orders.map SaleOrder.id).Nodup) (member : order ∈ db.orders)
    (matched : fulfilledOf db order.id = some fulfilled) (sold : Sold native order fulfilled)
    (fits : inBigint (balance db order.ownerId + worthOf order fulfilled) = true) :
    ∃ result after, executePlayerExchangeCashoutRow native order.ownerId
      (candidateOf order fulfilled) db = .ok (result, after) := by
  change inBigint (balance db order.ownerId + (candidateOf order fulfilled).expectedSolari) = true
    at fits
  have opened : balance { db with
      bank := Function.update db.bank order.ownerId (some (balance db order.ownerId)) }
        order.ownerId = balance db order.ownerId := by
    simp [balance]
  have locked : ownedRow (candidateOf order fulfilled).orderId order.ownerId { db with
      bank := Function.update db.bank order.ownerId (some (balance db order.ownerId)) } = some (order, fulfilled) := by
    have found := find_keyed keyed member (fun row => row.id = order.id ∧ row.ownerId = order.ownerId) (by simp)
      (fun other passes => (of_decide_eq_true passes).1)
    change (match db.orders.find? (fun row => row.id = order.id ∧ row.ownerId = order.ownerId),
      fulfilledOf db order.id with
      | some order, some fulfilled => some (order, fulfilled)
      | _, _ => none) = _
    rw [found, matched]
  rw [executePlayerExchangeCashoutRow, write_bind, read_bind, read_bind, locked, opened]
  dsimp only
  rw [checkOwned_sold sold, lift_value_bind, check_true_bind fits, write_bind,
    read_bind, deleteOrder, write_bind, read_bind,
    check_true_bind ?_]
  · exact ⟨_, _, rfl⟩
  · have gone : order.id ∉ (db.orders.filter fun row => row.id ≠ order.id).map SaleOrder.id := by
      intro listed
      obtain ⟨other, kept, same⟩ := mem_map.mp listed
      exact of_decide_eq_true (mem_filter.mp kept).2 same
    refine (Bool.and_eq_true _ _).mpr ⟨decide_eq_true (by simp [balance]), ?_⟩
    exact (Bool.not_eq_true' _).mpr (decide_eq_false gone)

theorem creditSolarisBank_goes {controllerId amount : Int} (positive : 0 < amount)
    (fits : balance db controllerId + amount < 2 ^ 63)
    (room : (db.users (native.getUserId controllerId)).isSome = true) :
    ∃ bank after, creditSolarisBank native controllerId amount db = .ok (bank, after) := by
  have opened : balance { db with
      bank := Function.update db.bank controllerId (some (balance db controllerId)) } controllerId =
        balance db controllerId := by
    simp [balance]
  have mirrored (other : Accounts) (same : other.users = db.users) (after : Int) :
      mirrorBalance native controllerId after other = .ok ((), { other with
        users := Function.update other.users (native.getUserId controllerId) (some after) }) :=
    if_pos (by simp [same, room])
  rw [creditSolarisBank, if_neg (Int.not_le.mpr positive), write_bind,
    read_bind, opened, check_true_bind (decide_eq_true fits),
    write_bind]
  rw [bind_of_ok (mirrored _ (by rfl) _), read_bind, check_true_bind (decide_eq_true (update_self ..))]
  exact ⟨_, _, rfl⟩

theorem checkLocked_sold {row : ReportRow} (owner : order.ownerId = row.ownerId) (sold : Sold native order fulfilled)
    (value : worthOf order fulfilled = row.expectedSolari) :
    checkLocked native row order fulfilled = .ok () := by
  rw [checkLocked, if_neg (not_not.mpr owner), if_neg (by simp [sold.1]), if_neg (not_not.mpr sold.2)]
  exact if_neg (not_not.mpr value)

structure Reports (db : Accounts) (row : ReportRow) (order : SaleOrder) (fulfilled : Fulfilled) :
    Prop where
  member : order ∈ db.orders
  matched : fulfilledOf db order.id = some fulfilled
  name : row.orderId = order.id
  owner : row.ownerId = order.ownerId
  original : row.originalOrderId = fulfilled.originalOrderId
  value : row.expectedSolari = worthOf order fulfilled

theorem settlementReport_reports {limit : Nat} {row : ReportRow}
    (listed : row ∈ settlementReport limit db) : ∃ order fulfilled, Reports db row order fulfilled := by
  have joined := (mem_insertionSort _).mp (mem_of_mem_take listed)
  obtain ⟨order, member, found⟩ := mem_filterMap.mp joined
  obtain ⟨fulfilled, matched, rfl⟩ := Option.map_eq_some_iff.mp found
  exact ⟨order, fulfilled, member, matched, rfl, rfl, rfl, rfl⟩

theorem candidates_sold {limit : Nat} (listed : row ∈ (playerExchangeCashoutCandidates native limit ownerId db).1) :
    ∃ order ∈ db.orders, ∃ fulfilled, fulfilledOf db order.id = some fulfilled ∧
      order.ownerId = ownerId ∧ Sold native order fulfilled ∧ row = candidateOf order fulfilled := by
  have joined := (mem_insertionSort _).mp (mem_of_mem_take listed)
  obtain ⟨order, member, found⟩ := mem_filterMap.mp joined
  obtain ⟨fulfilled, matched, found⟩ := Option.bind_eq_some_iff.mp found
  split at found
  next own =>
    obtain ⟨owner, type, item⟩ := own
    cases found
    exact ⟨order, member, fulfilled, matched, owner, ⟨by rw [item]; rfl, type⟩, rfl⟩
  next => cases found

/-- Where the credit is positive and the seller has an Exchange user, a sold order is claimed. -/
theorem settle_goes (keyed : (db.orders.map SaleOrder.id).Nodup) {row : ReportRow}
    (reports : Reports db row order fulfilled)
    (sold : Sold native order fulfilled) (positive : 0 < worthOf order fulfilled)
    (fits : balance db order.ownerId + worthOf order fulfilled < 2 ^ 63)
    (room : (db.users (native.getUserId order.ownerId)).isSome = true) :
    (settle native false row db).1 = .claimed := by
  obtain ⟨member, matched, name, owner, original, value⟩ := reports
  rw [← owner, ← value] at fits
  rw [← owner] at room
  rw [← value] at positive
  have locked : lockedRow row.orderId db = some (order, fulfilled) := by
    have found := find_keyed keyed member (fun other => other.id = row.orderId)
      (decide_eq_true name.symm) (fun other passes => (of_decide_eq_true passes).trans name)
    rw [lockedRow, found, name, matched]
  obtain ⟨bank, middle, credited⟩ := creditSolarisBank_goes positive fits room
  obtain ⟨-, rfl, rfl⟩ := creditSolarisBank_ok credited
  have gone : row.orderId ∉ (db.orders.filter fun other => other.id ≠ row.orderId).map SaleOrder.id := by
    intro listed
    obtain ⟨other, kept, same⟩ := mem_map.mp listed
    exact of_decide_eq_true (mem_filter.mp kept).2 same
  unfold settle
  rw [executeDirectSellerClaim, read_bind, locked]
  dsimp only
  rw [checkLocked_sold owner.symm sold value.symm, lift_value_bind]
  split
  next why failed =>
    obtain failed | ⟨bank, middle, again, failed⟩ := bind_error.mp failed
    · rw [credited] at failed
      cases failed
    · cases failed
  next result after made =>
    obtain ⟨bank, middle, again, rest⟩ := bind_ok.mp made
    cases credited.symm.trans again
    simp only [deleteOrder, write_bind, read_bind] at rest
    obtain ⟨rfl, -⟩ := Prod.mk.inj (pure_ok.mp rest)
    have passes : valid row ⟨row.expectedSolari, fulfilled.originalOrderId, balance db row.ownerId,
        balance db row.ownerId + row.expectedSolari,
        balance db row.ownerId + row.expectedSolari - balance db row.ownerId,
        decide (row.orderId ∈ (db.orders.filter fun other => other.id ≠ row.orderId).map SaleOrder.id)⟩ = true := by
      simp only [valid, original, decide_eq_false gone]
      simp
    rw [if_pos passes]
    rfl

/-- Both settle the order or neither does, and they leave the same orders, the same bank balance of
the seller and the same mirror of it. -/
structure Agree (native : Native) (seller : Int) (chat : Option (List CashoutRow) × Accounts)
    (bot : Outcome × Accounts) : Prop where
  alike : chat.1.isSome = true ↔ bot.1 = .claimed
  orders : chat.2.orders = bot.2.orders
  bank : chat.2.bank seller = bot.2.bank seller
  mirror : chat.2.users (native.getUserId seller) = bot.2.users (native.getUserId seller)

theorem cashout_single (ownerId : Int) (row : Candidate) (db : Accounts) : cashout native ownerId [row] db =
      match executePlayerExchangeCashoutRow native ownerId row db with
      | .ok (claimed, after) => (some [claimed], after)
      | .error _ => (none, db) := by
  unfold cashout
  simp only [Transaction.each, bind, pure]
  cases executePlayerExchangeCashoutRow native ownerId row db <;> rfl

def Mirrored (native : Native) (db : Accounts) (ownerId amount : Int) : Prop :=
  db.users (native.getUserId ownerId) = some (balance db ownerId + amount)

/-- On a completed order the programs agree exactly where neither can settle it, or where it is
worth something and the mirror already is the new balance. -/
theorem agree_iff (keyed : (db.orders.map SaleOrder.id).Nodup) {seller : Int}
    (stored : -2 ^ 63 ≤ balance db seller) {limit seen : Nat}
    (candidate : row ∈ (playerExchangeCashoutCandidates native limit seller db).1)
    {report : ReportRow} (reported : report ∈ settlementReport seen db)
    (same : report.orderId = row.orderId) :
    Agree native seller (cashout native seller [row] db) (settle native false report db) ↔
      inBigint (balance db seller + row.expectedSolari) = false ∨
        (0 < row.expectedSolari ∧ Mirrored native db seller row.expectedSolari) := by
  obtain ⟨order, member, fulfilled, matched, rfl, sold, rfl⟩ := candidates_sold candidate
  obtain ⟨other, also, reports⟩ := settlementReport_reports reported
  obtain rfl := Table.same_row keyed reports.member member (reports.name.symm.trans same)
  obtain rfl := Option.some.inj (reports.matched.symm.trans matched)
  rw [cashout_single]
  cases fits : inBigint (balance db other.ownerId + (candidateOf other also).expectedSolari) with
  | true =>
    obtain ⟨result, after, made⟩ := cashout_fits keyed member matched sold fits
    obtain ⟨found, there, -, -, name, -, -, -, -, credited, -⟩ := executePlayerExchangeCashoutRow_ok made
    obtain rfl := Table.same_row keyed there member name
    rw [made]
    -- what a claim of the order leaves
    have paid : ∀ last, settle native false report db = (.claimed, last) →
        0 < worthOf found also ∧ Paid native found (worthOf found also) db last := by
      intro last claimed
      obtain ⟨_, done⟩ := settle_claimed claimed
      obtain ⟨paidFor, inside, _, -, named, -, -, -, ⟨positive, -⟩, paid⟩ := executeDirectSellerClaim_ok done
      obtain rfl := Table.same_row keyed inside member (named.trans reports.name)
      rw [reports.value] at positive paid
      exact ⟨positive, paid⟩
    constructor
    · intro agree
      obtain ⟨positive, left⟩ := paid _ (Prod.ext (agree.alike.mp rfl) rfl)
      refine .inr ⟨positive, ?_⟩
      have mirror := agree.mirror
      rw [credited.users, left.users, update_self] at mirror
      exact mirror
    · rintro (impossible | ⟨positive, mirrored⟩)
      · cases impossible
      have settled := settle_goes keyed reports sold positive (of_decide_eq_true fits).2
        (by rw [show db.users _ = _ from mirrored]; rfl)
      obtain ⟨-, left⟩ := paid _ (Prod.ext settled rfl)
      refine ⟨⟨fun _ => settled, fun _ => rfl⟩, ?_, ?_, ?_⟩
      · rw [credited.orders, left.orders]
      · rw [credited.bank, left.bank]
        rfl
      · rw [credited.users, left.users, update_self]
        exact mirrored
  | false =>
    have unpaid : (settle native false report db).1 ≠ .claimed := by
      intro claimed
      obtain ⟨_, done⟩ := settle_claimed (Prod.ext claimed rfl)
      obtain ⟨-, -, -, -, -, -, -, -, ⟨positive, room⟩, -⟩ := executeDirectSellerClaim_ok done
      rw [reports.owner, reports.value] at room
      rw [reports.value] at positive
      have inside : inBigint (balance db other.ownerId + worthOf other also) = true :=
        decide_eq_true ⟨by omega, room⟩
      exact Bool.false_ne_true (fits.symm.trans inside)
    have kept : (settle native false report db).2 = db := settle_unchanged _ _ _ unpaid
    refine iff_of_true ?_ (.inl rfl)
    split
    next claimed after made =>
      obtain ⟨-, -, -, -, -, -, -, -, inside, -⟩ := executePlayerExchangeCashoutRow_ok made
      rw [fits] at inside
      cases inside
    next =>
      refine ⟨⟨fun impossible => (nomatch impossible), fun claimed => absurd claimed unpaid⟩, ?_, ?_, ?_⟩
      · rw [kept]
      · rw [kept]
      · rw [kept]

theorem executePlayerExchangeCashoutRow_settles {result : CashoutRow}
    (made : executePlayerExchangeCashoutRow native ownerId row db = .ok (result, after)) :
    Settles native ⟨row.orderId, ownerId, row.expectedSolari⟩ db after ∧ after.users = db.users := by
  obtain ⟨order, member, fulfilled, matched, name, owner, sold, value, -, credited, -⟩ :=
    executePlayerExchangeCashoutRow_ok made
  obtain ⟨bank, users, orders, other⟩ := credited
  rw [owner] at bank
  rw [name] at orders
  exact ⟨⟨⟨order, member, fulfilled, matched, name, owner, sold, value⟩, bank, orders, name ▸ other⟩, users⟩

def claimsOf (ownerId : Int) (rows : List Candidate) : List Claim :=
  rows.map fun row => ⟨row.orderId, ownerId, row.expectedSolari⟩

variable {start : Accounts} {rows : List Candidate}

/-- A batch that goes through credits the player with every row, and writes no other balance. -/
theorem each_paid {results : List CashoutRow}
    (made : Transaction.each (executePlayerExchangeCashoutRow native ownerId) rows db = .ok (results, after)) :
    results.map CashoutRow.credited = rows.map Candidate.expectedSolari ∧ after.users = db.users ∧
      (∀ seller, seller ≠ ownerId → after.bank seller = db.bank seller) ∧
      balance after ownerId = balance db ownerId + (rows.map Candidate.expectedSolari).sum ∧
      (rows ≠ [] → (after.bank ownerId).isSome = true) := by
  induction rows generalizing db results with
  | nil =>
    obtain ⟨rfl, rfl⟩ := Prod.mk.inj (pure_ok.mp made)
    exact ⟨rfl, rfl, fun _ _ => rfl, by simp, fun some_ => absurd rfl some_⟩
  | cons row rest ih =>
    obtain ⟨first, middle, one, made⟩ := bind_ok.mp made
    obtain ⟨others, last, more, made⟩ := bind_ok.mp made
    obtain ⟨rfl, rfl⟩ := Prod.mk.inj (pure_ok.mp made)
    obtain ⟨settled, kept⟩ := executePlayerExchangeCashoutRow_settles one
    obtain ⟨-, -, -, -, -, -, -, -, -, -, own⟩ := executePlayerExchangeCashoutRow_ok one
    obtain ⟨credited, users, apart, sum, some_⟩ := ih more
    refine ⟨?_, users.trans kept, ?_, ?_, ?_⟩
    · rw [map_cons, map_cons, own, credited]
    · intro seller other
      rw [apart seller other, settled.bank, update_of_ne other]
    · rw [sum, balance, settled.bank, update_self, map_cons, sum_cons, Option.getD_some, Int.add_assoc]
    · intro _
      cases rest with
      | nil =>
        obtain ⟨-, rfl⟩ := Prod.mk.inj (pure_ok.mp more)
        rw [settled.bank, update_self]
        rfl
      | cons next rest => exact some_ (cons_ne_nil _ _)

/-- A batch that goes through settles each of its rows. -/
theorem each_booked (keyed : (start.orders.map SaleOrder.id).Nodup) {claims : List Claim}
    {results : List CashoutRow} (booked : Booked native start claims db)
    (made : Transaction.each (executePlayerExchangeCashoutRow native ownerId) rows db = .ok (results, after)) :
    Booked native start (claims ++ claimsOf ownerId rows) after := by
  induction rows generalizing claims db results with
  | nil =>
    obtain ⟨-, rfl⟩ := Prod.mk.inj (pure_ok.mp made)
    simpa [claimsOf] using booked
  | cons row rest ih =>
    obtain ⟨first, middle, one, made⟩ := bind_ok.mp made
    obtain ⟨others, last, more, made⟩ := bind_ok.mp made
    obtain ⟨-, rfl⟩ := Prod.mk.inj (pure_ok.mp made)
    have first := booked.settles keyed (executePlayerExchangeCashoutRow_settles one).1
    have all := ih first more
    rwa [append_assoc] at all

theorem cashout_some
    {results : List CashoutRow} (paid : cashout native ownerId rows db = (some results, after)) :
    Transaction.each (executePlayerExchangeCashoutRow native ownerId) rows db = .ok (results, after) := by
  unfold cashout at paid
  split at paid
  next made =>
    cases paid
    exact made
  next => cases paid

theorem cashout_none (paid : cashout native ownerId rows db = (none, after)) : after = db := by
  unfold cashout at paid
  split at paid
  · cases paid
  · cases paid
    rfl

/-- A dry run changes nothing. The run itself, on candidates however old, credits the player with the
sum that the dry run shows and leaves every other balance alone, or changes nothing either. -/
theorem cashout_previewed (native : Native) (limit : Nat) (ownerId : Int) (seen db : Accounts) :
    ∃ preview, playerExchangeCashout native limit ownerId true seen db = (some preview, db) ∧
      match playerExchangeCashout native limit ownerId false seen db with
      | (none, after) => after = db
      | (some paid, after) =>
        paid.solari = preview.solari ∧ paid.claimed.length = preview.candidateCount ∧
          balance after ownerId = balance db ownerId + preview.solari ∧ after.users = db.users ∧
          ∀ seller, seller ≠ ownerId → after.bank seller = db.bank seller := by
  refine ⟨_, rfl, ?_⟩
  unfold playerExchangeCashout
  dsimp only
  cases paid : cashout native ownerId (playerExchangeCashoutCandidates native limit ownerId seen).1 db with
  | mk results after =>
    cases results with
    | none => exact cashout_none paid
    | some results =>
      obtain ⟨credited, users, apart, sum, -⟩ := each_paid (cashout_some paid)
      have many := congrArg length credited
      rw [length_map, length_map] at many
      exact ⟨congrArg List.sum credited, many, sum, users, apart⟩

inductive Payment where
  | claim (row : ReportRow)
  | cashout (ownerId : Int) (rows : List Candidate)

structure Paying where
  db : Accounts
  claims : List Claim

section

variable (native : Native)

def pay (state : Paying) : Payment → Paying
  | .claim row =>
    match settle native false row state.db with
    | (.claimed, after) => ⟨after, state.claims ++ [⟨row.orderId, row.ownerId, row.expectedSolari⟩]⟩
    | (_, after) => ⟨after, state.claims⟩
  | .cashout ownerId rows =>
    match cashout native ownerId rows state.db with
    | (some _, after) => ⟨after, state.claims ++ claimsOf ownerId rows⟩
    | (none, after) => ⟨after, state.claims⟩

def payments (db : Accounts) (events : List Payment) : Paying := events.foldl (pay native) ⟨db, []⟩

def Aligned (db : Accounts) (seller : Int) : Prop :=
  (db.bank seller).isSome = true ∧ db.users (native.getUserId seller) = db.bank seller

def Ahead (db : Accounts) : Payment → Prop
  | .claim _ => True
  | .cashout ownerId rows => (cashout native ownerId rows db).1.isSome = true → rows ≠ [] →
      Mirrored native db ownerId (rows.map Candidate.expectedSolari).sum

def AheadThroughout (db : Accounts) (events : List Payment) : Prop :=
  ∀ before event after, events = before ++ event :: after → Ahead native (payments native db before).db event

end

/-- A batch is committed as a whole or leaves everything as it was, and what it leaves is aligned
exactly where the mirror was ahead. -/
theorem cashout_whole (keyed : (start.orders.map SaleOrder.id).Nodup)
    {claims : List Claim} (booked : Booked native start claims db) (ownerId : Int)
    (rows : List Candidate) :
    ((cashout native ownerId rows db).1 = none ∧ (cashout native ownerId rows db).2 = db) ∨
      ((cashout native ownerId rows db).1.isSome = true ∧
        Booked native start (claims ++ claimsOf ownerId rows) (cashout native ownerId rows db).2 ∧
        (∀ seller, seller ≠ ownerId → (cashout native ownerId rows db).2.bank seller = db.bank seller) ∧
        (cashout native ownerId rows db).2.users = db.users ∧
        (rows ≠ [] → (Aligned native (cashout native ownerId rows db).2 ownerId ↔
          Mirrored native db ownerId (rows.map Candidate.expectedSolari).sum))) := by
  cases paid : cashout native ownerId rows db with
  | mk results after =>
    cases results with
    | none => exact .inl ⟨rfl, cashout_none paid⟩
    | some results =>
      have kept := each_booked keyed booked (cashout_some paid)
      obtain ⟨-, users, apart, sum, some_⟩ := each_paid (cashout_some paid)
      refine .inr ⟨rfl, kept, apart, users, fun filled => ?_⟩
      have there := some_ filled
      obtain ⟨value, has⟩ := Option.isSome_iff_exists.mp there
      dsimp only at *
      have left : after.bank ownerId = some (balance db ownerId + (rows.map Candidate.expectedSolari).sum) := by
        rw [← sum, balance, has]
        rfl
      rw [Aligned, users, left, Mirrored]
      exact and_iff_right rfl

theorem pay_keeps (injective : Function.Injective native.getUserId)
    (keyed : (start.orders.map SaleOrder.id).Nodup) {state : Paying}
    (booked : Booked native start state.claims state.db) (event : Payment) :
    Booked native start (pay native state event).claims (pay native state event).db ∧
      ((∀ claim ∈ state.claims, Aligned native state.db claim.seller) → Ahead native state.db event →
          ∀ claim ∈ (pay native state event).claims, Aligned native (pay native state event).db claim.seller) := by
  cases event with
  | claim row =>
    have unchanged := @settle_unchanged native false row state.db
    unfold pay
    dsimp only
    cases settled : settle native false row state.db with
    | mk outcome after =>
      rw [settled] at unchanged
      cases outcome with
      | claimed =>
        obtain ⟨result, made⟩ := settle_claimed settled
        obtain ⟨settles, users⟩ := executeDirectSellerClaim_settles made
        refine ⟨booked.settles keyed settles, fun aligned _ claim listed => ?_⟩
        by_cases same : claim.seller = row.ownerId
        · rw [same, Aligned, users, update_self, settles.bank, update_self]
          exact ⟨rfl, rfl⟩
        · have apart : native.getUserId claim.seller ≠ native.getUserId row.ownerId :=
            fun equal => same (injective equal)
          rw [Aligned, users, settles.bank, update_of_ne same, update_of_ne apart]
          rcases mem_append.mp listed with old | new
          · exact aligned claim old
          · exact absurd (congrArg Claim.seller (mem_singleton.mp new)) same
      | dryRun =>
        obtain rfl := unchanged (by simp)
        exact ⟨booked, fun aligned _ => aligned⟩
      | invalid =>
        obtain rfl := unchanged (by simp)
        exact ⟨booked, fun aligned _ => aligned⟩
      | raised =>
        obtain rfl := unchanged (by simp)
        exact ⟨booked, fun aligned _ => aligned⟩
  | cashout ownerId rows =>
    have whole := cashout_whole keyed booked ownerId rows
    unfold pay Ahead
    dsimp only
    cases paid : cashout native ownerId rows state.db with
    | mk results after =>
      rw [paid] at whole
      obtain ⟨rfl, rfl⟩ | ⟨some_, kept, apart, users, exact_⟩ := whole
      · exact ⟨booked, fun aligned _ => aligned⟩
      · obtain ⟨results, rfl⟩ := Option.isSome_iff_exists.mp some_
        refine ⟨kept, fun aligned ahead claim listed => ?_⟩
        dsimp only at *
        rcases mem_append.mp listed with old | new
        · by_cases same : claim.seller = ownerId
          · cases rows with
            | nil =>
              obtain ⟨-, rfl⟩ := Prod.mk.inj (pure_ok.mp (cashout_some paid))
              exact aligned claim old
            | cons first rest =>
              rw [same]
              exact (exact_ (cons_ne_nil _ _)).mpr (ahead rfl (cons_ne_nil _ _))
          · rw [Aligned, users, apart _ same]
            exact aligned claim old
        · obtain ⟨row, member, rfl⟩ := mem_map.mp new
          have filled : rows ≠ [] := ne_nil_of_mem member
          exact (exact_ filled).mpr (ahead rfl filled)

/-- A cashout changes nothing, or settles every row of its batch. -/
theorem pay_whole (keyed : (start.orders.map SaleOrder.id).Nodup) {state : Paying}
    (booked : Booked native start state.claims state.db) (ownerId : Int) (rows : List Candidate) :
    pay native state (.cashout ownerId rows) = state ∨
      (pay native state (.cashout ownerId rows)).claims = state.claims ++ claimsOf ownerId rows ∧
        Booked native start (pay native state (.cashout ownerId rows)).claims
          (pay native state (.cashout ownerId rows)).db ∧
        (rows ≠ [] → (Aligned native (pay native state (.cashout ownerId rows)).db ownerId ↔
          Mirrored native state.db ownerId (rows.map Candidate.expectedSolari).sum)) := by
  have whole := cashout_whole keyed booked ownerId rows
  unfold pay
  dsimp only
  cases paid : cashout native ownerId rows state.db with
  | mk results after =>
    rw [paid] at whole
    obtain ⟨rfl, rfl⟩ | ⟨some_, kept, -, -, exact_⟩ := whole
    · exact .inl rfl
    · obtain ⟨results, rfl⟩ := Option.isSome_iff_exists.mp some_
      exact .inr ⟨rfl, kept, exact_⟩

theorem payments_keeps (injective : Function.Injective native.getUserId)
    (keyed : (db.orders.map SaleOrder.id).Nodup) (events : List Payment) :
    Booked native db (payments native db events).claims (payments native db events).db ∧
      (AheadThroughout native db events → ∀ claim ∈ (payments native db events).claims,
        Aligned native (payments native db events).db claim.seller) := by
  induction events using List.reverseRecOn with
  | nil => exact ⟨Booked.start db, fun _ claim listed => absurd listed not_mem_nil⟩
  | append_singleton earlier event ih =>
    obtain ⟨booked, aligned⟩ := ih
    obtain ⟨kept, keeps⟩ := pay_keeps injective keyed booked event
    have last : payments native db (earlier ++ [event]) = pay native (payments native db earlier) event := by
      rw [payments, foldl_append]
      rfl
    rw [last]
    refine ⟨kept, fun ahead => keeps (aligned fun before other after parts => ?_) (ahead earlier event [] rfl)⟩
    exact ahead before other (after ++ [event]) (by rw [parts]; simp)

/-- The programs agree on a completed order exactly where neither can settle it or the mirror is
ahead by a positive worth. In every run of both, each order is paid once and a batch goes through as
a whole, and where every committed batch finds the mirror ahead, the mirror of every paid seller is
the bank balance. -/
theorem cashout_claim_agreement (native : Native) (injective : Function.Injective native.getUserId) (db : Accounts)
    (keyed : (db.orders.map SaleOrder.id).Nodup) :
    (∀ seller limit seen row report, -2 ^ 63 ≤ balance db seller →
      row ∈ (playerExchangeCashoutCandidates native limit seller db).1 →
      report ∈ settlementReport seen db → report.orderId = row.orderId →
      (Agree native seller (cashout native seller [row] db) (settle native false report db) ↔
        inBigint (balance db seller + row.expectedSolari) = false ∨
          (0 < row.expectedSolari ∧ Mirrored native db seller row.expectedSolari))) ∧
    ∀ events, Booked native db (payments native db events).claims (payments native db events).db ∧ (∀ ownerId rows,
        let before := payments native db events
        let after := pay native before (.cashout ownerId rows)
        after = before ∨ after.claims = before.claims ++ claimsOf ownerId rows ∧
          Booked native db after.claims after.db ∧
          (rows ≠ [] → (Aligned native after.db ownerId ↔
            Mirrored native before.db ownerId (rows.map Candidate.expectedSolari).sum))) ∧
      (AheadThroughout native db events → ∀ claim ∈ (payments native db events).claims,
        Aligned native (payments native db events).db claim.seller) := by
  refine ⟨fun seller limit seen row report stored candidate reported same =>
    agree_iff keyed stored candidate reported same, fun events => ?_⟩
  obtain ⟨booked, aligned⟩ := payments_keeps injective keyed events
  refine ⟨booked, fun ownerId rows => ?_, aligned⟩
  exact pay_whole keyed booked ownerId rows

/-- The first sale is settled from the chat while the mirror says nothing of it yet. -/
theorem cashout_leaves_mirror : ∃ row ∈ (playerExchangeCashoutCandidates plainNative 50 70 twoSales).1,
    ∃ report ∈ settlementReport 100 twoSales, report.orderId = row.orderId ∧
      (settle plainNative false report twoSales).2.users 70 = some 600 ∧
      (cashout plainNative 70 [row] twoSales).2.users 70 = some 0 ∧
      ¬ Agree plainNative 70 (cashout plainNative 70 [row] twoSales) (settle plainNative false report twoSales) := by
  refine ⟨⟨1, 70, none, 25, 1, 4, some 11, some 12, 100⟩, by decide,
    ⟨1, 70, none, 25, 1, 4, some 11, some 12, some 500, 100⟩, ?_, rfl, by decide, by decide, fun agree => ?_⟩
  · exact List.mem_iff_getElem?.mpr ⟨2, rfl⟩
  · exact absurd agree.mirror (by decide)

def aheadSales : Accounts := { twoSales with users := fun user => some (if user = 70 then 600 else 0) }

def aheadPayments : List Payment :=
  [.cashout 70 [⟨1, 70, none, 25, 1, 4, some 11, some 12, 100⟩],
    .claim ⟨2, 80, some 0, 10, 1, 3, none, none, none, 30⟩]

theorem cashout_claim_agreement_ahead :
    (payments plainNative aheadSales aheadPayments).claims = [⟨1, 70, 100⟩, ⟨2, 80, 30⟩] ∧
      ∀ claim ∈ (payments plainNative aheadSales aheadPayments).claims,
        Aligned plainNative (payments plainNative aheadSales aheadPayments).db claim.seller := by
  refine ⟨by decide, ((cashout_claim_agreement plainNative Function.injective_id aheadSales
    (by decide)).2 aheadPayments).2.2 ?_⟩
  intro before event after parts
  rcases before with - | ⟨first, - | ⟨second, rest⟩⟩
  · obtain ⟨rfl, -⟩ := List.cons.inj parts
    intro _ _
    rfl
  · obtain ⟨-, parts⟩ := List.cons.inj parts
    obtain ⟨rfl, -⟩ := List.cons.inj parts
    trivial
  · obtain ⟨-, parts⟩ := List.cons.inj parts
    obtain ⟨-, parts⟩ := List.cons.inj parts
    cases rest <;> cases parts

end Settlement

end Dash.Exchange
