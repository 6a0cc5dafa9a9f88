import Dash.Foundation.Table
import Dash.Foundation.Transaction
import Dash.Python.Value

/-! The populator of the Exchange: it lists orders of its own up to a target and expires some, and how many it
keeps.

The rows of the catalog come as the category gates leave them. Random draws, prices, and what the
native functions answer are given with each run; the native recurring-sell function lists one order
a call, and native expiry has nothing to do. A run selects by the orders it fetched, no more than the
scan limit.
-/

set_option autoImplicit false

namespace Dash.Exchange

open Dash.Python Dash.Foundation

structure Order where
  (id exchangeId ownerId : Int)
  isNpcOrder : Bool
  itemId : Option Int
  templateId : Option String
  itemPrice : Option Int
  expirationTime : Int
  (categoryMask categoryDepth : Option Int)

/-- `dune.dune_exchange_orders` -/
structure Book where
  orders : List Order
  distinct : (orders.map Order.id).Nodup

/-- A row of the catalog, with the values of `populator_category_mask`, `populator_category_depth`
and `populator_is_stackable`. -/
structure CatalogRow where
  (templateId category : String)
  (categoryMask categoryDepth : Int)
  stackable : Bool

structure CategoryKey where
  category : String
  (mask depth : Int)
  deriving DecidableEq

structure Settings where
  (enabled dryRun confirmed : Bool)
  (exchangeId ownerId sourceInventoryId : Int)
  limit : Nat
  (targetMin targetMax hardMax stackableTarget singletonCategoryTarget maxPerTemplate : Int)
  forcePrice : Option Int
  (positionStart positionMax : Int)
  expireSeeded : Bool

structure Draws where
  /-- `random.choice` -/
  choice : Nat → Nat
  /-- `random.random() < probability` -/
  expires : Nat → Bool
  /-- `planned_unique_price` for a template with these prices in use; `none` raises. -/
  price : CatalogRow → List Int → Option Int
  /-- `jitter_expiration` -/
  expiration : Nat → Int
  /-- The item and the order of a listing. -/
  itemId : Nat → Int
  orderId : Nat → Int
  /-- The native function has added the listing. -/
  added : Nat → Bool
  /-- The positions that the source inventory uses. -/
  occupied : List Int
  /-- The checks of the preflight that only read. -/
  checks : Bool

namespace Populator

abbrev Work (α : Type) : Type := Transaction Book Exception α

def runtimeError {α : Type} (message : String) : Work α :=
  Transaction.raise ⟨.runtimeError, message⟩

section

variable (args : Settings)

def isSeeded (row : Order) : Bool :=
  row.exchangeId = args.exchangeId && row.ownerId = args.ownerId && row.isNpcOrder

def seeded (db : Book) : List Order := db.orders.filter (isSeeded args)

def orderLe (first second : Order) : Prop :=
  first.expirationTime < second.expirationTime ∨
    (first.expirationTime = second.expirationTime ∧ first.id ≤ second.id)

instance : DecidableRel orderLe := fun first second => by
  unfold orderLe
  infer_instance

def fetchSeededOrders (db : Book) : List Order :=
  ((seeded args db).insertionSort orderLe).take args.limit

/-- `require_populator_preflight`: the range of the targets and the other checks. -/
def requirePopulatorPreflight (checks : Bool) : Work Unit :=
  Transaction.check (decide (0 < args.ownerId) && (decide (0 ≤ args.targetMin) &&
      decide (args.targetMin ≤ args.targetMax) && decide (args.targetMax ≤ args.hardMax)) && checks)
    ⟨.runtimeError, "populator preflight failed"⟩

def categoryOf (row : CatalogRow) : String := if row.category = "" then "unknown" else row.category

def categoryKey (row : CatalogRow) : CategoryKey :=
  ⟨categoryOf row, row.categoryMask, row.categoryDepth⟩

def templateCategoryKey (row : CatalogRow) : String × CategoryKey := (row.templateId, categoryKey row)

def catalogRow (catalog : List CatalogRow) (order : Order) : Option CatalogRow :=
  catalog.find? fun row => order.templateId = some row.templateId

def activeByTemplate (active : List Order) (template : String) : Nat :=
  active.countP fun order => order.templateId = some template

def activeByCategory (catalog : List CatalogRow) (active : List Order) (key : CategoryKey) : Nat :=
  active.countP fun order =>
    match catalogRow catalog order with
    | some row => decide (⟨categoryOf row, order.categoryMask.getD 0, order.categoryDepth.getD 0⟩ = key)
    | none => false

def activeByTemplateCategory (catalog : List CatalogRow) (active : List Order) (key : String × CategoryKey) : Nat :=
  active.countP fun order =>
    match catalogRow catalog order with
    | some row => decide (templateCategoryKey row = key)
    | none => false

def keyLe (first second : CategoryKey) : Prop :=
  first.category < second.category ∨ (first.category = second.category ∧
    (first.mask < second.mask ∨ (first.mask = second.mask ∧ first.depth ≤ second.depth)))

instance : DecidableRel keyLe := fun first second => by
  unfold keyLe
  infer_instance

/-- The draws for one group of rows, at most `needed` of them. -/
def fill (choice : Nat → Nat) (counted : CatalogRow → Nat) (most : Nat) (rows : List CatalogRow) :
    Nat → List CatalogRow → List CatalogRow
  | 0, picked => picked
  | needed + 1, picked =>
    let candidates := rows.filter fun row => counted row +
      picked.countP (fun other => templateCategoryKey other = templateCategoryKey row) < most
    match candidates[choice picked.length % candidates.length]? with
    | some row => fill choice counted most rows needed (picked ++ [row])
    | none => picked

def desiredPopulateAllRows (choice : Nat → Nat) (catalog eligible : List CatalogRow)
    (active : List Order) : List CatalogRow :=
  let stackable := eligible.flatMap fun row =>
    if row.stackable then
      List.replicate (max 1 args.stackableTarget - activeByTemplate active row.templateId).toNat row
    else []
  let singletons := eligible.filter fun row => !row.stackable
  let keys := ((singletons.map categoryKey).dedup).insertionSort keyLe
  keys.foldl (fun selected key =>
    selected ++ fill (fun draw => choice (selected.length + draw))
      (fun row => activeByTemplateCategory catalog active (templateCategoryKey row))
      (max 1 args.maxPerTemplate).toNat (singletons.filter fun row => categoryKey row = key)
      (max 1 args.singletonCategoryTarget - activeByCategory catalog active key).toNat []) stackable

/-- The rows that `populate_once` lists: no more than it believes to be free. -/
def selectedRows (choice : Nat → Nat) (catalog eligible : List CatalogRow) (active : List Order) :
    List CatalogRow :=
  (desiredPopulateAllRows args choice catalog eligible active).take
    (max 0 (min args.targetMax args.hardMax - active.length)).toNat

/-- `free_position_candidates` from a position on, through so many positions. -/
def freePositions (occupied : List Int) : Nat → Int → Nat → List Int
  | 0, _, _ => []
  | _ + 1, _, 0 => []
  | fuel + 1, position, needed + 1 =>
    if position ∈ occupied then freePositions occupied fuel (position + 1) (needed + 1)
    else position :: freePositions occupied fuel (position + 1) needed

def fetchFreeInventoryPositions (occupied : List Int) (needed : Nat) : Work (List Int) :=
  let positions := freePositions occupied (args.positionMax + 1 - args.positionStart).toNat
    args.positionStart needed
  if positions.length < needed then
    runtimeError ("not enough free staging inventory positions: needed " ++ toString needed)
  else pure positions

structure Listing where
  row : CatalogRow
  (price expirationTime positionIndex : Int)

/-- `used_prices` of a template. -/
def usedPrices (active : List Order) (planned : List Listing) (template : String) : List Int :=
  (active.filter fun order => order.templateId = some template).filterMap Order.itemPrice ++
    (planned.filter fun listing => listing.row.templateId = template).map Listing.price

def plannedPrice (draws : Draws) (active : List Order) (planned : List Listing) (row : CatalogRow) :
    Result Int :=
  match args.forcePrice with
  | some price => .ok (price + planned.length)
  | none =>
    match draws.price row (usedPrices active planned row.templateId) with
    | some price => .ok price
    | none => .error ⟨.runtimeError, "not enough unique prices for " ++ row.templateId⟩

/-- The loop of `plan_seed_events`. -/
def planFrom (draws : Draws) (active : List Order) : List Listing → List CatalogRow → List Int → Work (List Listing)
  | planned, [], _ => pure planned
  | planned, row :: rows, positions => do
    let price ← Transaction.lift (plannedPrice args draws active planned row)
    planFrom draws active (planned ++ [⟨row, price, draws.expiration planned.length, positions.headD 0⟩]) rows
      positions.tail

def planSeedEvents (draws : Draws) (active : List Order) (rows : List CatalogRow)
    (positions : List Int) : Work (List Listing) :=
  if active.any fun order => order.itemPrice.isNone then
    Transaction.raise ⟨.typeError, "int() argument must be a string or a real number"⟩
  else planFrom args draws active [] rows positions

/-- The order that the native function lists. -/
def listed (draws : Draws) (index : Nat) (listing : Listing) : Order where
  id := draws.orderId index
  exchangeId := args.exchangeId
  ownerId := args.ownerId
  isNpcOrder := true
  itemId := some (draws.itemId index)
  templateId := some listing.row.templateId
  itemPrice := some listing.price
  expirationTime := listing.expirationTime
  categoryMask := some listing.row.categoryMask
  categoryDepth := some listing.row.categoryDepth

def insertOrder (row : Order) : Work Unit := fun db =>
  if fresh : row.id ∉ db.orders.map Order.id then
    .ok ((), ⟨db.orders ++ [row], Table.insert_keys db.distinct fresh⟩)
  else .error ⟨.integrityError, "duplicate key value violates unique constraint"⟩

def executeSeedListing (draws : Draws) (index : Nat) (listing : Listing) : Work Unit := do
  insertOrder (listed args draws index listing)
  Transaction.check (draws.added index) ⟨.runtimeError, "seed listing did not add inventory"⟩

/-- One round of `apply_seed_events`. -/
def applySeedEvent (draws : Draws) (index : Nat) (listing : Listing) : Work Unit :=
  if args.dryRun then pure ()
  else do
    Transaction.check args.confirmed ⟨.runtimeError, "confirmation phrase required"⟩
    executeSeedListing args draws index listing

/-- `apply_seed_events` from an index on. -/
def applySeedEvents (draws : Draws) : Nat → List Listing → Work Unit
  | _, [] => pure ()
  | index, listing :: rest => do
    applySeedEvent args draws index listing
    applySeedEvents draws (index + 1) rest

def expireProbabilitySelected (expires : Nat → Bool) (ids : List Int) : List Int :=
  (ids.zipIdx.filter fun entry => expires entry.2).map Prod.fst

def cleanupCandidateIds (expires : Nat → Bool) (active : List Order) (targetMax targetMin : Int) : List Int :=
  let overCap := (max 0 (active.length - max 0 targetMax)).toNat
  let overCapIds := (active.take overCap).map Order.id
  let capacity := (max 0 (active.length - overCapIds.length - max 0 targetMin)).toNat
  let randomIds := (expireProbabilitySelected expires ((active.drop overCap).map Order.id)).take capacity
  (overCapIds ++ randomIds).dedup.insertionSort (· ≤ ·)

def deleteSeededOrders (ids : List Int) : Work Unit := fun db =>
  .ok ((), ⟨db.orders.filter fun row => !(decide (row.id ∈ ids) && isSeeded args row),
    db.distinct.sublist (List.filter_sublist.map _)⟩)

/-- The transaction of `expire_seeded_once`. -/
def expireBody (draws : Draws) : Work Unit := do
  requirePopulatorPreflight args draws.checks
  let active ← Transaction.read (fetchSeededOrders args)
  let candidates := cleanupCandidateIds draws.expires active args.targetMax args.targetMin
  if args.dryRun then pure ()
  else do
    Transaction.check args.confirmed ⟨.runtimeError, "confirmation phrase required"⟩
    deleteSeededOrders args candidates

/-- `expire_seeded_once`: the orders afterwards. -/
def expireSeededOnce (draws : Draws) (db : Book) : Book :=
  if args.enabled && decide (0 < args.ownerId) then (expireBody args draws).commit db else db

/-- The transaction of `populate_once` with category targets. -/
def populateBody (draws : Draws) (catalog eligible : List CatalogRow) : Work Unit := do
  requirePopulatorPreflight args draws.checks
  let active ← Transaction.read (fetchSeededOrders args)
  let rows := selectedRows args draws.choice catalog eligible active
  let positions ← fetchFreeInventoryPositions args draws.occupied rows.length
  let planned ← planSeedEvents args draws active rows positions
  applySeedEvents args draws 0 planned

/-- `populate_once`: the orders afterwards. A run that raises does not go on to the expiry. -/
def populateOnce (draws later : Draws) (catalog eligible : List CatalogRow) (db : Book) : Book :=
  if args.enabled && decide (0 < args.ownerId) && decide (0 < args.sourceInventoryId) &&
      !eligible.isEmpty then
    match populateBody args draws catalog eligible db with
    | .error _ => db
    | .ok (_, after) => if args.expireSeeded then expireSeededOnce args later after else after
  else db

end

end Populator

end Dash.Exchange

namespace Dash.Exchange.Populator

open Dash.Python Dash.Foundation List
open Foundation.Transaction (bind_ok check_bind check_ok commit_induction guard_ok lift_bind pure_ok read_bind)

variable {args : Settings}

def count (args : Settings) (db : Book) : Nat := (seeded args db).length

def ceiling (args : Settings) : Int := min args.targetMax args.hardMax

theorem length_fetch (args : Settings) (db : Book) :
    (fetchSeededOrders args db).length = min args.limit (count args db) := by
  rw [fetchSeededOrders, length_take, length_insertionSort, count]

variable {draws : Draws} {done : Unit} {index : Nat}

theorem executeSeedListing_ok {listing : Listing} {db after : Book}
    (made : executeSeedListing args draws index listing db = .ok (done, after)) :
    count args after = count args db + 1 := by
  obtain ⟨_, middle, inserted, checked⟩ := bind_ok.mp made
  obtain ⟨-, same⟩ := check_ok.mp checked
  obtain rfl := (Prod.mk.inj same).2
  rw [insertOrder] at inserted
  split at inserted
  next fresh =>
    cases inserted
    simp [count, seeded, isSeeded, listed]
  next => cases inserted

theorem applySeedEvent_ok {listing : Listing} {db after : Book}
    (made : applySeedEvent args draws index listing db = .ok (done, after)) :
    count args after = count args db + if args.dryRun then 0 else 1 := by
  rw [applySeedEvent] at made
  cases dry : args.dryRun with
  | true =>
    rw [dry, if_pos rfl] at made
    obtain ⟨-, rfl⟩ := Prod.mk.inj (pure_ok.mp made)
    rfl
  | false =>
    rw [dry, if_neg Bool.false_ne_true, check_bind] at made
    rw [executeSeedListing_ok made.2]
    rfl

theorem applySeedEvents_ok {planned : List Listing} {db after : Book}
    (made : applySeedEvents args draws index planned db = .ok (done, after)) :
    count args after = count args db + if args.dryRun then 0 else planned.length := by
  induction planned generalizing index db with
  | nil =>
    obtain ⟨-, rfl⟩ := Prod.mk.inj (pure_ok.mp made)
    simp
  | cons listing rest ih =>
    rw [applySeedEvents] at made
    obtain ⟨_, middle, first, others⟩ := bind_ok.mp made
    rw [ih others, applySeedEvent_ok first, length_cons]
    split <;> omega

theorem planFrom_ok {active : List Order} {planned result : List Listing}
    {rows : List CatalogRow} {positions : List Int} {db after : Book}
    (made : planFrom args draws active planned rows positions db = .ok (result, after)) :
    after = db ∧ result.length = planned.length + rows.length := by
  induction rows generalizing planned positions with
  | nil =>
    obtain ⟨rfl, rfl⟩ := Prod.mk.inj (pure_ok.mp made)
    exact ⟨rfl, rfl⟩
  | cons row rest ih =>
    rw [planFrom, lift_bind] at made
    obtain ⟨price, -, others⟩ := made
    obtain ⟨kept, length⟩ := ih others
    refine ⟨kept, ?_⟩
    rw [length, length_append, length_singleton, length_cons]
    omega

theorem populateBody_ok {catalog eligible : List CatalogRow} {db after : Book}
    (made : populateBody args draws catalog eligible db = .ok (done, after)) :
    count args after = count args db + if args.dryRun then 0 else
      (selectedRows args draws.choice catalog eligible (fetchSeededOrders args db)).length := by
  simp only [populateBody, requirePopulatorPreflight, check_bind, read_bind]
    at made
  obtain ⟨-, made⟩ := made
  obtain ⟨positions, first, fetched, rest⟩ := bind_ok.mp made
  rw [fetchFreeInventoryPositions, runtimeError, guard_ok] at fetched
  obtain ⟨-, rfl⟩ := Prod.mk.inj (pure_ok.mp fetched.2)
  obtain ⟨planned, second, made, applied⟩ := bind_ok.mp rest
  rw [planSeedEvents, guard_ok] at made
  obtain ⟨rfl, length⟩ := planFrom_ok made.2
  rw [applySeedEvents_ok applied, length, length_nil, Nat.zero_add]

theorem length_cleanup (expires : Nat → Bool) (active : List Order) (targetMax targetMin : Int)
    (range : 0 ≤ targetMin ∧ targetMin ≤ targetMax) :
    ((cleanupCandidateIds expires active targetMax targetMin).length : Int) ≤ max 0 (active.length - targetMin) := by
  rw [cleanupCandidateIds]
  simp only [length_insertionSort]
  refine le_trans (Int.ofNat_le.mpr (List.Sublist.length_le (dedup_sublist _))) ?_
  simp only [length_append, length_map, length_take]
  omega

theorem length_delete (ids : List Int) {db after : Book}
    (deleted : deleteSeededOrders args ids db = .ok (done, after)) :
    count args after ≤ count args db ∧ count args db ≤ count args after + ids.length := by
  cases deleted
  have split : ((seeded args db).filter fun row => row.id ∈ ids).length +
      ((seeded args db).filter fun row => !decide (row.id ∈ ids)).length = count args db :=
    (length_eq_length_filter_add _).symm
  have kept : seeded args ⟨db.orders.filter fun row => !(decide (row.id ∈ ids) && isSeeded args row),
      db.distinct.sublist (filter_sublist.map _)⟩ =
      (seeded args db).filter fun row => !decide (row.id ∈ ids) := by
    simp only [seeded, filter_filter]
    apply filter_congr
    intro row _
    cases isSeeded args row <;> cases decide (row.id ∈ ids) <;> rfl
  have gone : ((seeded args db).filter fun row => row.id ∈ ids).length ≤ ids.length := by
    rw [← length_map Order.id]
    refine (subperm_of_subset (db.distinct.sublist ?_) ?_).length_le
    · exact ((filter_sublist.trans filter_sublist).map _)
    · intro id listed
      obtain ⟨row, member, rfl⟩ := mem_map.mp listed
      simpa using (mem_filter.mp member).2
  simp only [count, kept] at split ⊢
  omega

/-- An expiry adds nothing, and does not go below the minimum. -/
theorem expireBody_ok {db after : Book} (made : expireBody args draws db = .ok (done, after)) :
    count args after ≤ count args db ∧ min (count args db : Int) args.targetMin ≤ count args after := by
  simp only [expireBody, requirePopulatorPreflight, check_bind, read_bind, Bool.and_eq_true, decide_eq_true_eq] at made
  obtain ⟨⟨⟨-, range⟩, -⟩, made⟩ := made
  cases dry : args.dryRun with
  | true =>
    rw [dry, if_pos rfl] at made
    obtain ⟨-, rfl⟩ := Prod.mk.inj (pure_ok.mp made)
    omega
  | false =>
    rw [dry, if_neg Bool.false_ne_true, check_bind] at made
    obtain ⟨fewer, bound⟩ := length_delete _ made.2
    have candidates := length_cleanup draws.expires (fetchSeededOrders args db)
      args.targetMax args.targetMin ⟨range.1.1, range.1.2⟩
    rw [length_fetch] at candidates
    omega

theorem expireSeededOnce_count (args : Settings) (draws : Draws) (db : Book) :
    count args (expireSeededOnce args draws db) ≤ count args db ∧
      min (count args db : Int) args.targetMin ≤ count args (expireSeededOnce args draws db) := by
  rw [expireSeededOnce]
  split
  next =>
    refine commit_induction (fun after => count args after ≤ count args db ∧
      min (count args db : Int) args.targetMin ≤ count args after) (by omega) ?_
    exact fun _ _ made => expireBody_ok made
  next => omega

/-- A run of the populator, with what it is given from outside. -/
inductive Run where
  | populate (draws later : Draws) (catalog eligible : List CatalogRow)
  | expire (draws : Draws)

def apply (args : Settings) (db : Book) : Run → Book
  | .populate draws later catalog eligible => populateOnce args draws later catalog eligible db
  | .expire draws => expireSeededOnce args draws db

def after (args : Settings) (db : Book) (runs : List Run) : Book := runs.foldl (apply args) db

/-- The scan limit reaches all orders, or there is room for all that is selected. -/
def Fits (args : Settings) (db : Book) : Run → Prop
  | .populate draws _ catalog eligible => count args db ≤ args.limit ∨
    ((desiredPopulateAllRows args draws.choice catalog eligible
      (fetchSeededOrders args db)).length : Int) ≤ ceiling args - count args db
  | .expire _ => True

theorem populateOnce_count {draws later : Draws} {catalog eligible : List CatalogRow} {db : Book}
    (below : (count args db : Int) ≤ ceiling args)
    (fits : Fits args db (.populate draws later catalog eligible)) :
    (count args (populateOnce args draws later catalog eligible db) : Int) ≤ ceiling args := by
  rw [populateOnce]
  split
  next =>
    cases made : populateBody args draws catalog eligible db with
    | error why => exact below
    | ok result =>
      obtain ⟨_, filled⟩ := result
      -- what was listed is what was selected, cut to what looked free
      have listed : (count args filled : Int) ≤ ceiling args := by
        have added := populateBody_ok made
        have room := length_fetch args db
        have chosen : (selectedRows args draws.choice catalog eligible
            (fetchSeededOrders args db)).length ≤ (max 0 (ceiling args -
              (fetchSeededOrders args db).length)).toNat := length_take_le _ _
        have wanted : (selectedRows args draws.choice catalog eligible
            (fetchSeededOrders args db)).length ≤ (desiredPopulateAllRows args draws.choice catalog
              eligible (fetchSeededOrders args db)).length := length_take_le' _ _
        simp only [Fits] at fits
        split at added <;> omega
      dsimp only
      split
      next =>
        have fewer := (expireSeededOnce_count args later filled).1
        omega
      next => exact listed
  next => exact below

theorem apply_count {db : Book} {run : Run} (below : (count args db : Int) ≤ ceiling args)
    (fits : Fits args db run) : (count args (apply args db run) : Int) ≤ ceiling args := by
  cases run with
  | populate draws later catalog eligible => exact populateOnce_count below fits
  | expire draws =>
    have fewer := (expireSeededOnce_count args draws db).1
    simp only [apply]
    omega

def narrow : Settings where
  enabled := true
  dryRun := false
  confirmed := true
  exchangeId := 1
  ownerId := 7
  sourceInventoryId := 9
  limit := 1
  targetMin := 0
  targetMax := 2
  hardMax := 20000
  stackableTarget := 13
  singletonCategoryTarget := 125
  maxPerTemplate := 8
  forcePrice := none
  positionStart := 0
  positionMax := 100000
  expireSeeded := false

def spice : CatalogRow := ⟨"spice", "resources/raw", 1, 1, true⟩

def spiceOrder (id : Int) : Order :=
  ⟨id, 1, 7, true, some id, some "spice", some (100 + id), 500 + id, some 1, some 1⟩

def drawsFrom (first : Int) : Draws where
  choice _ := 0
  expires _ := false
  price _ used := some (1000 + used.length)
  expiration index := 900 + index
  itemId index := first + index
  orderId index := first + index
  added _ := true
  occupied := []
  checks := true

def twoOrders : Book := ⟨[spiceOrder 1, spiceOrder 2], by decide⟩

end Dash.Exchange.Populator
