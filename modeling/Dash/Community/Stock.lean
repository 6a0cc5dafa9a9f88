import Dash.Community.Agreement
import Mathlib.Algebra.Order.BigOperators.Group.List

/-! Stock across versions of the catalog.

What a run has written to the catalog says which version an offer is at and which
stock that version was configured with. Remaining stock and sold units add up to
it as long as no order of an earlier version is refunded; such a refund goes to
the stock of the current version.
-/

set_option autoImplicit false

namespace Dash.Community

open Dash.Python Dash.Foundation List
open Option (getD_none none_or some_or)

variable {F : Type}

/-- The offers a call writes to the catalog; none if it raises. -/
def Platform.writes (rt : Platform F) (db : Db F) (call : Call F) : List Offer :=
  match rt.perform call.operation ⟨db, call.supply⟩ with
  | .ok _ => (rt.offersOf call.supply call.operation).getD []
  | .error _ => []

def Platform.history (rt : Platform F) : Db F → List (Call F) → List Offer
  | _, [] => []
  | db, call :: rest => rt.writes db call ++ history rt (rt.apply db call) rest

def currentVersion (writes : List Offer) (id : String) : Option Int :=
  ((writes.filter fun row => row.id = id).getLast?).map Offer.version

def configured (writes : List Offer) (id : String) (version : Int) : Option (Option Int) :=
  (writes.find? fun row => row.id = id && row.version = version).map Offer.stock

def FreshWrite (before : List Offer) (write : Offer) : Prop :=
  currentVersion before write.id = some write.version ∨
    ∀ earlier ∈ before, earlier.id = write.id → earlier.version ≠ write.version

def FreshVersions (writes : List Offer) : Prop :=
  ∀ before write after, writes = before ++ write :: after → FreshWrite before write

instance (before : List Offer) (write : Offer) : Decidable (FreshWrite before write) :=
  inferInstanceAs (Decidable (_ ∨ _))

variable {writes : List Offer}

theorem freshVersions_iff : FreshVersions writes ↔ ∀ index (bound : index < writes.length),
      FreshWrite (writes.take index) (writes.get ⟨index, bound⟩) := by
  constructor
  · intro fresh index bound
    refine fresh _ _ (writes.drop (index + 1)) ?_
    rw [get_eq_getElem, getElem_cons_drop bound, take_append_drop]
  · rintro fresh before write after rfl
    have place : before.length < (before ++ write :: after).length := by simp
    simpa using fresh before.length place

instance : DecidablePred FreshVersions := fun _ => decidable_of_iff _ freshVersions_iff.symm

def Purchase.units (row : Purchase) (id : String) (version : Int) : Int :=
  if row.offerId = id ∧ row.offerVersion = version ∧ row.status ≠ .refunded then row.quantity
  else 0

def sold (purchases : List Purchase) (id : String) (version : Int) : Int :=
  (purchases.map fun row => row.units id version).sum

/-- Remaining and sold units of every offer make up what its version was configured
with, and no version is sold more often than that. -/
structure Conserved (offers : List Offer) (purchases : List Purchase) (writes : List Offer) :
    Prop where
  exact : ∀ offer ∈ offers, ∀ configuredStock,
    configured writes offer.id offer.version = some (some configuredStock) → ∃ stock, offer.stock = some stock ∧
        stock + sold purchases offer.id offer.version = configuredStock ∧ stock ≤ configuredStock
  bounded : ∀ id version configuredStock, configured writes id version = some (some configuredStock) →
      sold purchases id version ≤ configuredStock

structure Stocked (offers : List Offer) (purchases : List Purchase) (writes : List Offer) :
    Prop where
  offerIds : (offers.map Offer.id).Nodup
  latest : ∀ offer ∈ offers, currentVersion writes offer.id = some offer.version
  known : ∀ write ∈ writes, write.id ∈ offers.map Offer.id
  bought : ∀ row ∈ purchases, ∃ write ∈ writes, write.id = row.offerId ∧ write.version = row.offerVersion
  limited : ∀ offer ∈ offers, ∃ stock, configured writes offer.id offer.version = some stock ∧
    stock.isSome = offer.stock.isSome
  positive : ∀ row ∈ purchases, 0 < row.quantity
  stocks : ∀ write ∈ writes, ∀ stock ∈ write.stock, 0 ≤ stock

theorem currentVersion_append (writes : List Offer) (write : Offer) (id : String) :
    currentVersion (writes ++ [write]) id =
      if write.id = id then some write.version else currentVersion writes id := by
  by_cases same : write.id = id <;> simp [currentVersion, same]

theorem configured_append (writes : List Offer) (write : Offer) (id : String) (version : Int) :
    configured (writes ++ [write]) id version = (configured writes id version).or
      (if write.id = id ∧ write.version = version then some write.stock else none) := by
  rw [configured, configured, List.find?_append]
  cases writes.find? fun row => row.id = id && row.version = version with
  | some row => rfl
  | none => by_cases same : write.id = id ∧ write.version = version <;> simp [same]

variable {id : String} {version : Int}

theorem configured_mem {stock : Option Int} (found : configured writes id version = some stock) :
    ∃ write ∈ writes, write.id = id ∧ write.version = version ∧ write.stock = stock := by
  obtain ⟨write, first, same⟩ := Option.map_eq_some_iff.mp found
  have holds := List.find?_some first
  simp only [Bool.and_eq_true, decide_eq_true_eq] at holds
  exact ⟨write, List.mem_of_find?_eq_some first, holds.1, holds.2, same⟩

theorem configured_none (fresh : ∀ earlier ∈ writes, earlier.id = id → earlier.version ≠ version) :
    configured writes id version = none := by
  rw [configured, List.find?_eq_none.mpr fun earlier member selected => ?_]
  · rfl
  · simp only [Bool.and_eq_true, decide_eq_true_eq] at selected
    exact fresh earlier member selected.1 selected.2

theorem sold_append (purchases : List Purchase) (row : Purchase) (id : String) (version : Int) :
    sold (purchases ++ [row]) id version = sold purchases id version + row.units id version := by
  simp [sold]

variable {purchases : List Purchase}

theorem sold_nonneg (positive : ∀ row ∈ purchases, 0 < row.quantity)
    (id : String) (version : Int) : 0 ≤ sold purchases id version := by
  refine sum_nonneg fun units member => ?_
  obtain ⟨row, bought, rfl⟩ := mem_map.mp member
  unfold Purchase.units
  split
  · exact (positive row bought).le
  · exact le_refl 0

theorem sold_zero (none : ∀ row ∈ purchases, row.offerId = id → row.offerVersion ≠ version) :
    sold purchases id version = 0 := by
  refine sum_eq_zero fun units member => ?_
  obtain ⟨row, bought, rfl⟩ := mem_map.mp member
  exact if_neg fun same => none row bought same.1 same.2.1

theorem sold_update (distinct : (purchases.map Purchase.id).Nodup)
    {purchase : Purchase} (bought : purchase ∈ purchases) (settle : Purchase → Purchase)
    (id : String) (version : Int) :
    sold (update Purchase.id purchase.id settle purchases) id version + purchase.units id version =
      sold purchases id version + (settle purchase).units id version :=
  Table.sum_update distinct bought fun row => row.units id version

variable {row : Purchase}

theorem units_other (other : ¬ (row.offerId = id ∧ row.offerVersion = version)) : row.units id version = 0 :=
  if_neg fun same => other ⟨same.1, same.2.1⟩

theorem units_pending (pending : row.status = .queued) : row.units row.offerId row.offerVersion = row.quantity :=
  if_pos ⟨rfl, rfl, by rw [pending]; decide⟩

theorem units_delivered {settle : Purchase → Purchase}
    (pending : row.status = .queued) (settled : PurchaseChange .delivered settle) (id : String)
    (version : Int) : (settle row).units id version = row.units id version := by
  rw [settled row]
  simp [Purchase.units, pending]

theorem units_refunded {settle : Purchase → Purchase}
    (settled : PurchaseChange .refunded settle) (id : String) (version : Int) :
    (settle row).units id version = 0 := by
  rw [settled row]
  simp [Purchase.units]

def restock (id : String) (quantity : Int) (offers : List Offer) : List Offer :=
  update Offer.id id (fun row => { row with stock := row.stock.map fun stock => stock + quantity }) offers

theorem restock_keys (id : String) (quantity : Int) (offers : List Offer) :
    (restock id quantity offers).map Offer.id = offers.map Offer.id :=
  Table.update_keys fun _ => rfl

variable {offers : List Offer}

theorem mem_restock {quantity : Int} {after : Offer} (present : after ∈ restock id quantity offers) :
    ∃ old ∈ offers, after.id = old.id ∧ after.version = old.version ∧
      after.stock = if old.id = id then old.stock.map fun stock => stock + quantity else old.stock := by
  rcases Table.mem_update.mp present with ⟨old, member, hit, rfl⟩ | ⟨member, miss⟩
  · exact ⟨old, member, rfl, rfl, by rw [if_pos hit]⟩
  · exact ⟨after, member, rfl, rfl, by rw [if_neg miss]⟩

def upsert (write : Offer) (offers : List Offer) : List Offer :=
  if offers.any fun row => row.id = write.id then
    update Offer.id write.id (fun row => row.replacedBy write) offers
  else offers ++ [write]

theorem mem_upsert {write after : Offer} (present : after ∈ upsert write offers) :
    (∃ old ∈ offers, old.id = write.id ∧ old.replacedBy write = after) ∨ (after ∈ offers ∧ after.id ≠ write.id) ∨
      (after = write ∧ ∀ old ∈ offers, old.id ≠ write.id) := by
  unfold upsert at present
  split at present
  · rcases Table.mem_update.mp present with changed | kept
    · exact .inl changed
    · exact .inr (.inl kept)
  · rename_i absent
    have other : ∀ old ∈ offers, old.id ≠ write.id := by simpa using absent
    rcases mem_append.mp present with old | new
    · exact .inr (.inl ⟨old, other after old⟩)
    · exact .inr (.inr ⟨mem_singleton.mp new, other⟩)

theorem upsert_updated (write : Offer) (offers : List Offer) :
    (update Offer.id write.id (fun row => row.replacedBy write) offers).map Offer.id = offers.map Offer.id := by
  rw [update, map_map]
  refine map_congr_left fun row _ => ?_
  by_cases hit : row.id = write.id
  · simp [hit, Offer.replacedBy]
  · simp [hit]

theorem upsert_ids {write : Offer} :
    id ∈ (upsert write offers).map Offer.id ↔ id ∈ offers.map Offer.id ∨ id = write.id := by
  unfold upsert
  split
  · rename_i present
    rw [upsert_updated]
    refine ⟨.inl, fun either => either.elim (fun member => member) fun same => ?_⟩
    simpa [same] using present
  · simp

theorem upsert_keys (distinct : (offers.map Offer.id).Nodup) (write : Offer) :
    ((upsert write offers).map Offer.id).Nodup := by
  unfold upsert
  split
  · rw [upsert_updated]
    exact distinct
  · rename_i absent
    exact Table.insert_keys distinct fun member => absent (by simpa using member)

namespace Stocked

variable {offers : List Offer} {purchases : List Purchase} {writes : List Offer}
  (stocked : Stocked offers purchases writes)
include stocked

theorem similar {others : List Offer} (keys : others.map Offer.id = offers.map Offer.id)
    (twin : ∀ after ∈ others, ∃ old ∈ offers, after.id = old.id ∧ after.version = old.version ∧
      after.stock.isSome = old.stock.isSome) : Stocked others purchases writes :=
  { stocked with
    offerIds := keys ▸ stocked.offerIds
    latest := fun after present => by
      obtain ⟨old, member, sameId, sameVersion, -⟩ := twin after present
      rw [sameId, sameVersion]
      exact stocked.latest old member
    known := fun write member => keys ▸ stocked.known write member
    limited := fun after present => by
      obtain ⟨old, member, sameId, sameVersion, sameStock⟩ := twin after present
      obtain ⟨stock, found, same⟩ := stocked.limited old member
      exact ⟨stock, by rw [sameId, sameVersion, found], same.trans sameStock.symm⟩ }

theorem restock (id : String) (quantity : Int) : Stocked (restock id quantity offers) purchases writes := by
  refine stocked.similar (restock_keys id quantity offers) fun after present => ?_
  obtain ⟨old, member, sameId, sameVersion, sameStock⟩ := mem_restock present
  refine ⟨old, member, sameId, sameVersion, ?_⟩
  rw [sameStock]
  split
  · exact Option.isSome_map
  · rfl

theorem buy {row : Purchase} {offer : Offer} (offered : offer ∈ offers)
    (sameId : row.offerId = offer.id) (sameVersion : row.offerVersion = offer.version)
    (positive : 0 < row.quantity) : Stocked offers (purchases ++ [row]) writes :=
  { stocked with
    bought := fun other member => by
      rcases mem_append.mp member with old | new
      · exact stocked.bought other old
      · obtain ⟨stock, found, -⟩ := stocked.limited offer offered
        obtain ⟨write, written, same, version, -⟩ := configured_mem found
        rw [mem_singleton.mp new, sameId, sameVersion]
        exact ⟨write, written, same, version⟩
    positive := fun other member => by
      rcases mem_append.mp member with old | new
      · exact stocked.positive other old
      · rw [mem_singleton.mp new]
        exact positive }

theorem settle {id : String} {status : PurchaseStatus} {settle : Purchase → Purchase}
    (settled : PurchaseChange status settle) :
    Stocked offers (update Purchase.id id settle purchases) writes :=
  { stocked with
    bought := fun after present => by
      rcases Table.mem_update.mp present with ⟨old, member, -, rfl⟩ | ⟨member, -⟩
      · rw [settled old]
        exact stocked.bought old member
      · exact stocked.bought after member
    positive := fun after present => by
      rcases Table.mem_update.mp present with ⟨old, member, -, rfl⟩ | ⟨member, -⟩
      · rw [settled old]
        exact stocked.positive old member
      · exact stocked.positive after member }

/-- A write leaves an offer alone, keeps its stock with its version, or gives it the
stock of a version that was never written before. -/
theorem upsert_cases {write after : Offer} (fresh : FreshWrite writes write) (present : after ∈ upsert write offers) :
    (after ∈ offers ∧ after.id ≠ write.id) ∨
      (∃ old ∈ offers, after.id = old.id ∧ after.version = old.version ∧ after.stock = old.stock ∧
        old.id = write.id ∧ old.version = write.version) ∨
      (after.id = write.id ∧ after.version = write.version ∧ after.stock = write.stock ∧
        ∀ earlier ∈ writes, earlier.id = write.id → earlier.version ≠ write.version) := by
  rcases mem_upsert present with ⟨old, member, same, rfl⟩ | other | ⟨rfl, absent⟩
  · by_cases version : old.version = write.version
    · refine .inr (.inl ⟨old, member, same.symm, version.symm, ?_, same, version⟩)
      rw [Offer.replacedBy, if_pos version]
    · refine .inr (.inr ⟨rfl, rfl, by rw [Offer.replacedBy, if_neg version], ?_⟩)
      rcases fresh with kept | fresh
      · rw [← same, stocked.latest old member] at kept
        exact absurd (Option.some.inj kept) version
      · exact fresh
  · exact .inl other
  · refine .inr (.inr ⟨rfl, rfl, rfl, fun earlier written same => ?_⟩)
    obtain ⟨old, member, sameId⟩ := mem_map.mp (stocked.known earlier written)
    exact absurd (sameId.trans same) (absent old member)

theorem upsert {write : Offer} (fresh : FreshWrite writes write) (stocks : ∀ stock ∈ write.stock, 0 ≤ stock) :
    Stocked (upsert write offers) purchases (writes ++ [write]) where
  offerIds := upsert_keys stocked.offerIds write
  latest := fun after present => by
    rw [currentVersion_append]
    rcases stocked.upsert_cases fresh present with ⟨member, other⟩ |
      ⟨old, member, sameId, sameVersion, -, hit, version⟩ | ⟨sameId, sameVersion, -, -⟩
    · rw [if_neg (Ne.symm other)]
      exact stocked.latest after member
    · rw [if_pos (hit.symm.trans sameId.symm), sameVersion, version]
    · rw [if_pos sameId.symm, sameVersion]
  known := fun other member => by
    rw [upsert_ids]
    rcases mem_append.mp member with old | new
    · exact .inl (stocked.known other old)
    · exact .inr (congrArg Offer.id (mem_singleton.mp new))
  bought := fun row member => by
    obtain ⟨other, written, same⟩ := stocked.bought row member
    exact ⟨other, mem_append_left _ written, same⟩
  limited := fun after present => by
    rw [configured_append]
    rcases stocked.upsert_cases fresh present with ⟨member, other⟩ |
      ⟨old, member, sameId, sameVersion, sameStock, -, -⟩ | ⟨sameId, sameVersion, sameStock, new⟩
    · obtain ⟨stock, found, same⟩ := stocked.limited after member
      exact ⟨stock, by rw [found, some_or], same⟩
    · obtain ⟨stock, found, same⟩ := stocked.limited old member
      rw [sameId, sameVersion, sameStock]
      exact ⟨stock, by rw [found, some_or], same⟩
    · rw [sameId, sameVersion, sameStock, configured_none new]
      exact ⟨write.stock, by rw [none_or, if_pos ⟨rfl, rfl⟩], rfl⟩
  positive := stocked.positive
  stocks := fun other member => by
    rcases mem_append.mp member with old | new
    · exact stocked.stocks other old
    · rw [mem_singleton.mp new]
      exact stocks

theorem unsold {id : String} {version : Int} (fresh : ∀ earlier ∈ writes, earlier.id = id → earlier.version ≠ version) :
    sold purchases id version = 0 := by
  refine sold_zero fun row bought same => ?_
  obtain ⟨write, written, sameId, sameVersion⟩ := stocked.bought row bought
  rw [← sameVersion]
  exact fresh write written (sameId.trans same)

end Stocked

section Conservation

variable {offers : List Offer} {purchases : List Purchase} {writes : List Offer}

theorem Conserved.order (stocked : Stocked offers purchases writes)
    (conserved : Conserved offers purchases writes) {offer : Offer} {row : Purchase}
    (offered : offer ∈ offers) (sameId : row.offerId = offer.id)
    (sameVersion : row.offerVersion = offer.version) (queued : row.status = .queued)
    (positive : 0 < row.quantity) (inStock : ∀ stock ∈ offer.stock, row.quantity ≤ stock) :
    Conserved (restock row.offerId (-row.quantity) offers) (purchases ++ [row]) writes := by
  have own := units_pending queued
  constructor
  · intro after present total found
    obtain ⟨old, member, afterId, afterVersion, afterStock⟩ := mem_restock present
    rw [afterId, afterVersion] at found ⊢
    obtain ⟨stock, remaining, sum, most⟩ := conserved.exact old member total found
    rw [sold_append]
    by_cases same : old.id = row.offerId
    · have isOffer : old = offer :=
        Table.same_row stocked.offerIds member offered (same.trans sameId)
      subst isOffer
      rw [if_pos same, remaining] at afterStock
      rw [← sameId, ← sameVersion] at sum ⊢
      exact ⟨stock + -row.quantity, afterStock, by omega, by omega⟩
    · rw [if_neg same] at afterStock
      rw [units_other fun both => same both.1.symm]
      exact ⟨stock, afterStock.trans remaining, by omega, most⟩
  · intro id version total found
    have before := conserved.bounded id version total found
    rw [sold_append]
    by_cases same : row.offerId = id ∧ row.offerVersion = version
    · obtain ⟨rfl, rfl⟩ := same
      rw [sameId, sameVersion] at found
      obtain ⟨stock, remaining, sum, -⟩ := conserved.exact offer offered total found
      have enough := inStock stock remaining
      rw [← sameId, ← sameVersion] at sum
      omega
    · rw [units_other same]
      omega

variable {settle : Purchase → Purchase} {purchase : Purchase}

theorem Conserved.deliver (conserved : Conserved offers purchases writes) (distinct : (purchases.map Purchase.id).Nodup)
    (bought : purchase ∈ purchases) (pending : purchase.status = .queued)
    (settled : PurchaseChange .delivered settle) :
    Conserved offers (update Purchase.id purchase.id settle purchases) writes := by
  have same : ∀ id version, sold (update Purchase.id purchase.id settle purchases) id version =
        sold purchases id version := by
    intro id version
    have changed := sold_update distinct bought settle id version
    rw [units_delivered pending settled] at changed
    omega
  constructor
  · intro offer member total found
    rw [same]
    exact conserved.exact offer member total found
  · intro id version total found
    rw [same]
    exact conserved.bounded id version total found

section

variable (stocked : Stocked offers purchases writes) (conserved : Conserved offers purchases writes)
include stocked conserved

/-- A refund at the version the offer is at gives back what was taken. -/
theorem Conserved.refund (distinct : (purchases.map Purchase.id).Nodup)
    (bought : purchase ∈ purchases) (pending : purchase.status = .queued)
    (settled : PurchaseChange .refunded settle)
    (current : ∀ offer ∈ offers, offer.id = purchase.offerId → offer.stock ≠ none →
      offer.version = purchase.offerVersion) :
    Conserved (restock purchase.offerId purchase.quantity offers)
      (update Purchase.id purchase.id settle purchases) writes := by
  have changed := sold_update distinct bought settle
  have positive : ∀ row ∈ update Purchase.id purchase.id settle purchases, 0 < row.quantity :=
    (stocked.settle settled).positive
  constructor
  · intro after present total found
    obtain ⟨old, member, afterId, afterVersion, afterStock⟩ := mem_restock present
    rw [afterId, afterVersion] at found ⊢
    obtain ⟨stock, remaining, sum, most⟩ := conserved.exact old member total found
    have units := changed old.id old.version
    rw [units_refunded settled] at units
    by_cases same : old.id = purchase.offerId
    · have version := current old member same (by rw [remaining]; exact Option.some_ne_none stock)
      rw [if_pos same, remaining] at afterStock
      have own := units_pending pending
      have nonneg := sold_nonneg positive old.id old.version
      rw [same, version] at units sum nonneg ⊢
      exact ⟨stock + purchase.quantity, afterStock, by omega, by omega⟩
    · rw [if_neg same] at afterStock
      rw [units_other fun both => same both.1.symm] at units
      exact ⟨stock, afterStock.trans remaining, by omega, most⟩
  · intro id version total found
    have before := conserved.bounded id version total found
    have units := changed id version
    rw [units_refunded settled] at units
    have nonneg : 0 ≤ purchase.units id version := by
      unfold Purchase.units
      split
      · exact (stocked.positive purchase bought).le
      · exact le_refl 0
    omega

/-- A refund at another version gives the current one more than it had. -/
theorem Conserved.not_stale (distinct : (purchases.map Purchase.id).Nodup) (bought : purchase ∈ purchases)
    (settled : PurchaseChange .refunded settle) {offer : Offer} (offered : offer ∈ offers)
    (same : offer.id = purchase.offerId) (stale : offer.version ≠ purchase.offerVersion)
    (finite : offer.stock ≠ none) :
    ¬ Conserved (restock purchase.offerId purchase.quantity offers)
      (update Purchase.id purchase.id settle purchases) writes := by
  intro after
  obtain ⟨limit, found, some⟩ := stocked.limited offer offered
  obtain ⟨stock, remaining⟩ := Option.ne_none_iff_exists'.mp finite
  rw [remaining] at some
  obtain ⟨total, rfl⟩ := Option.isSome_iff_exists.mp some
  obtain ⟨left, leftStock, sum, -⟩ := conserved.exact offer offered total found
  have present : { offer with stock := offer.stock.map fun stock => stock + purchase.quantity } ∈
      restock purchase.offerId purchase.quantity offers :=
    Table.mem_update.mpr (.inl ⟨offer, offered, same, rfl⟩)
  obtain ⟨right, rightStock, total, -⟩ := after.exact _ present total found
  have units := sold_update distinct bought settle offer.id offer.version
  rw [units_refunded settled, units_other fun both => stale both.2.symm] at units
  rw [leftStock] at rightStock
  have moved : left + purchase.quantity = right := Option.some.inj rightStock
  have positive := stocked.positive purchase bought
  simp only at total
  omega

theorem Conserved.upsert {write : Offer} (fresh : FreshWrite writes write) (stocks : ∀ stock ∈ write.stock, 0 ≤ stock) :
    Conserved (upsert write offers) purchases (writes ++ [write]) := by
  constructor
  · intro after present total found
    rw [configured_append] at found
    rcases stocked.upsert_cases fresh present with ⟨member, other⟩ |
      ⟨old, member, sameId, sameVersion, sameStock, -, -⟩ | ⟨sameId, sameVersion, sameStock, new⟩
    · rw [if_neg fun both => other both.1.symm, Option.or_none] at found
      exact conserved.exact after member total found
    · obtain ⟨stock, earlier, -⟩ := stocked.limited old member
      rw [sameId, sameVersion, earlier, some_or, ← earlier] at found
      rw [sameId, sameVersion, sameStock]
      exact conserved.exact old member total found
    · rw [sameId, sameVersion, configured_none new, none_or, if_pos ⟨rfl, rfl⟩] at found
      rw [sameId, sameVersion, sameStock, stocked.unsold new]
      exact ⟨total, Option.some.inj found, by omega, le_refl total⟩
  · intro id version total found
    rw [configured_append] at found
    cases earlier : configured writes id version with
    | some stock =>
      rw [earlier, some_or] at found
      exact conserved.bounded id version total (earlier.trans found)
    | none =>
      have new : ∀ other ∈ writes, other.id = id → other.version ≠ version := by
        intro other written same sameVersion
        have missing := Option.map_eq_none_iff.mp earlier
        exact absurd (List.find?_eq_none.mp missing other written) (by simp [same, sameVersion])
      rw [earlier, none_or] at found
      rw [stocked.unsold new]
      split at found
      · exact stocks total (Option.some.inj found)
      · cases found

end

theorem Conserved.similar (conserved : Conserved offers purchases writes) {others : List Offer}
    (twin : ∀ after ∈ others, ∃ old ∈ offers, after.id = old.id ∧ after.version = old.version ∧
      after.stock = old.stock) : Conserved others purchases writes := by
  refine ⟨fun after present total found => ?_, conserved.bounded⟩
  obtain ⟨old, member, sameId, sameVersion, sameStock⟩ := twin after present
  rw [sameId, sameVersion] at found ⊢
  rw [sameStock]
  exact conserved.exact old member total found

end Conservation

def Db.Stocked (db : Db F) (writes : List Offer) : Prop :=
  Community.Stocked db.offers db.purchases writes

def Db.Conserved (db : Db F) (writes : List Offer) : Prop :=
  Community.Conserved db.offers db.purchases writes

def Keeps (db other : Db F) (writes : List Offer) : Prop :=
  other.Stocked writes ∧ (db.Conserved writes → other.Conserved writes)

theorem Keeps.of_same {db other : Db F} (stocked : db.Stocked writes)
    (offers : other.offers = db.offers) (purchases : other.purchases = db.purchases) :
    Keeps db other writes := by
  unfold Keeps Db.Stocked Db.Conserved
  rw [offers, purchases]
  exact ⟨stocked, id⟩

namespace Platform

variable {rt : Platform F} {db other : Db F} {writes : List Offer}

theorem order_offers (row : Purchase) (entry : Option LedgerRow) (delivery : Delivery) :
    (db.order row entry delivery).offers = restock row.offerId (-row.quantity) db.offers :=
  congrArg (restock row.offerId (-row.quantity)) (postAll_offers (db.appendPurchase row) entry)

theorem Step.stock {allowed : String → Prop} (step : rt.Step allowed db other) (paired : db.Paired)
    (stocked : db.Stocked writes) : Keeps db other writes := by
  cases step with
  | openAccount account now => exact .of_same stocked rfl rfl
  | post row posted free => exact .of_same stocked rfl rfl
  | queue row other fresh freshSource => exact .of_same stocked rfl rfl
  | side _ same => exact .of_same stocked same.offers same.purchases
  | order offer row entry delivery ordered =>
    have offered : offer ∈ db.offers := List.mem_of_find?_eq_some ordered.offered
    unfold Keeps Db.Stocked Db.Conserved
    rw [order_offers, order_purchases]
    exact ⟨(Stocked.buy stocked offered ordered.offerId ordered.offerVersion ordered.positive).restock _ _,
      fun conserved => Conserved.order stocked conserved offered ordered.offerId
        ordered.offerVersion ordered.queued ordered.positive ordered.inStock⟩
  | move row status change member moves changed => exact .of_same stocked rfl rfl
  | deliver row change settle member opened changed settled =>
    unfold Db.settle
    by_cases source : row.sourceType = .purchase
    · obtain ⟨purchase, bought, isFor, pending⟩ := paired.pending member source opened
      rw [if_pos source, isFor.2]
      exact ⟨Stocked.settle stocked settled,
        fun conserved => conserved.deliver paired.purchaseIds bought pending settled⟩
    · rw [if_neg source]
      exact .of_same stocked rfl rfl

theorem path_stock {allowed : String → Prop}
    (path : Relation.ReflTransGen (rt.Step allowed) db other) (paired : db.Paired)
    (stocked : db.Stocked writes) : Keeps db other writes := by
  have all : other.Paired ∧ Keeps db other writes := by
    induction path with
    | refl => exact ⟨paired, stocked, id⟩
    | tail _ edge ih =>
      obtain ⟨paired, stocked, conserved⟩ := ih
      obtain ⟨nextStocked, nextConserved⟩ := edge.stock paired stocked
      exact ⟨edge.paired paired, nextStocked, fun before => nextConserved (conserved before)⟩
  exact all.2

variable (rt)

theorem readOffer_stock {raw : Value F} {now : String} {offer : Offer}
    (read : rt.readOffer raw now = .ok offer) : ∀ stock ∈ offer.stock, 0 ≤ stock := by
  simp only [readOffer, result_bind, result_refuse, Except.ok.injEq] at read
  obtain ⟨-, id, -, version, -, price, -, -, stock, -, limit, rewards, -, name, -, json, -, rfl⟩ := read
  intro number limited
  change stock = some number at limited
  simpa [limited] using limit

theorem readOffers_stock {raws : List (Value F)} {now : String} {offers : List Offer}
    (read : rt.readOffers now raws = .ok offers) : ∀ offer ∈ offers, ∀ stock ∈ offer.stock, 0 ≤ stock := by
  induction raws generalizing offers with
  | nil =>
    cases read
    exact fun _ member => absurd member not_mem_nil
  | cons raw rest ih =>
    simp only [readOffers, result_bind, Except.ok.injEq] at read
    obtain ⟨offer, first, later, others, rfl⟩ := read
    intro other member
    rcases mem_cons.mp member with rfl | present
    · exact rt.readOffer_stock first
    · exact ih others other present

end Platform

theorem FreshVersions.left {first second : List Offer} (fresh : FreshVersions (first ++ second)) :
    FreshVersions first := fun before write after split =>
  fresh before write (after ++ second) (by rw [split, append_assoc, cons_append])

theorem upserts_stock {db : Db F} {offers writes : List Offer}
    (fresh : FreshVersions (writes ++ offers)) (stocks : ∀ offer ∈ offers, ∀ stock ∈ offer.stock, 0 ≤ stock)
    (stocked : db.Stocked writes) :
    (offers.foldl Db.upsertOffer db).Stocked (writes ++ offers) ∧
      (db.Conserved writes → (offers.foldl Db.upsertOffer db).Conserved (writes ++ offers)) := by
  induction offers generalizing db writes with
  | nil =>
    rw [append_nil]
    exact ⟨stocked, id⟩
  | cons offer rest ih =>
    have new : FreshWrite writes offer := fresh writes offer rest rfl
    have nonneg := stocks offer mem_cons_self
    rw [append_cons] at fresh ⊢
    have next : (db.upsertOffer offer).Stocked (writes ++ [offer]) := Stocked.upsert stocked new nonneg
    obtain ⟨last, conserved⟩ := ih fresh (fun other member => stocks other (mem_cons_of_mem _ member)) next
    exact ⟨last, fun before => conserved (Conserved.upsert stocked before new nonneg)⟩

theorem disableOffers_twin (db : Db F) (kept : List String) :
    ∀ after ∈ (db.disableOffers kept).offers, ∃ old ∈ db.offers, after.id = old.id ∧
      after.version = old.version ∧ after.stock = old.stock := by
  intro after present
  obtain ⟨old, member, rfl⟩ := mem_map.mp present
  refine ⟨old, member, ?_⟩
  split <;> exact ⟨rfl, rfl, rfl⟩

theorem disableOffers_keys (db : Db F) (kept : List String) :
    (db.disableOffers kept).offers.map Offer.id = db.offers.map Offer.id := by
  rw [Db.disableOffers, map_map]
  refine map_congr_left fun row _ => ?_
  by_cases hit : row.id ∈ kept <;> simp [hit]

theorem synced_stock {db other : Db F} {offers writes : List Offer} (fresh : FreshVersions (writes ++ offers))
    (stocks : ∀ offer ∈ offers, ∀ stock ∈ offer.stock, 0 ≤ stock) (stocked : db.Stocked writes)
    (synced : Platform.Synced db other offers) :
    other.Stocked (writes ++ offers) ∧ (db.Conserved writes → other.Conserved (writes ++ offers)) := by
  obtain ⟨upserted, conserved⟩ := upserts_stock fresh stocks stocked
  have twin := disableOffers_twin (offers.foldl Db.upsertOffer db) (offers.map Offer.id)
  have samePurchases : other.purchases = (offers.foldl Db.upsertOffer db).purchases := synced.purchases
  unfold Db.Stocked Db.Conserved
  rw [synced.offers, samePurchases]
  refine ⟨Stocked.similar upserted (disableOffers_keys _ _) fun after present => ?_,
    fun before => Conserved.similar (conserved before) twin⟩
  obtain ⟨old, member, sameId, sameVersion, sameStock⟩ := twin after present
  exact ⟨old, member, sameId, sameVersion, congrArg Option.isSome sameStock⟩

namespace Platform

variable (rt : Platform F)

/-- The call commits the failure of a delivery whose pending purchase was made at another
version than its offer, of finite stock, is at now. -/
def StaleRefund (db : Db F) (call : Call F) : Prop :=
  (∃ result, rt.perform call.operation ⟨db, call.supply⟩ = .ok result) ∧
    ∃ delivery ∈ db.deliveries, ∃ purchase ∈ db.purchases, ∃ offer ∈ db.offers,
      rt.failure? call.operation = some delivery.id ∧ delivery.isFor purchase ∧
        purchase.status = .queued ∧ offer.id = purchase.offerId ∧
        offer.version ≠ purchase.offerVersion ∧ offer.stock ≠ none

theorem offersOf_stock {supply : Supply} {operation : Operation F} {offers : List Offer}
    (read : rt.offersOf supply operation = some offers) :
    ∀ offer ∈ offers, ∀ stock ∈ offer.stock, 0 ≤ stock := by
  cases operation with
  | syncConfig file =>
    simp only [offersOf] at read
    split at read
    · rename_i raws _ _
      cases parsed : rt.readOffers (supply.now 0) raws with
      | error why =>
        rw [parsed] at read
        cases read
      | ok rows =>
        rw [parsed] at read
        cases read
        exact rt.readOffers_stock parsed
    · cases read
  | _ => cases read

variable {db : Db F}

/-- The failure of a delivery conserves the stock unless it is a stale refund. -/
theorem failed_stock {call : Call F} {after : Session F} {writes : List Offer}
    {id : String} (paired : db.Paired) (stocked : db.Stocked writes)
    (success : rt.perform call.operation ⟨db, call.supply⟩ = .ok ((), after))
    (fails : rt.failure? call.operation = some id) (failed : rt.Failed db id after.db) :
    after.db.Stocked writes ∧ (db.Conserved writes → (after.db.Conserved writes ↔ ¬ rt.StaleRefund db call)) := by
  rcases failed_cases failed paired with ⟨row, member, change, rfl, -, -, source, same⟩ |
    ⟨row, member, purchase, bought, change, settle, entry, rfl, -, -, isFor, pending, settled, -, same⟩
  · rw [same]
    refine ⟨stocked, fun conserved => ⟨fun _ stale => ?_, fun _ => conserved⟩⟩
    obtain ⟨-, delivery, present, other, -, offer, -, fails', isFor, -⟩ := stale
    have sameId : row.id = delivery.id := Option.some.inj (fails.symm.trans fails')
    rw [Table.same_row paired.deliveryIds member present sameId] at source
    exact source isFor.1
  · have offers : after.db.offers = restock purchase.offerId purchase.quantity db.offers := by
      rw [same]
      exact congrArg (restock purchase.offerId purchase.quantity) (postAll_offers db entry)
    have purchases : after.db.purchases = update Purchase.id purchase.id settle db.purchases := by
      rw [same]
      exact congrArg (update Purchase.id purchase.id settle) (postAll_purchases db entry)
    unfold Db.Stocked Db.Conserved
    rw [offers, purchases]
    refine ⟨(Stocked.settle stocked settled).restock _ _, fun conserved => ⟨?_, fun current => ?_⟩⟩
    · rintro after ⟨-, delivery, present, other, otherBought, offer, offered, fails', otherFor, -,
        sameOffer, stale, finite⟩
      have sameId : row.id = delivery.id := Option.some.inj (fails.symm.trans fails')
      have sameRow := Table.same_row paired.deliveryIds member present sameId
      subst sameRow
      have samePurchase := Table.same_row paired.purchaseIds bought otherBought (isFor.2.symm.trans otherFor.2)
      subst samePurchase
      exact Conserved.not_stale stocked conserved paired.purchaseIds bought settled offered sameOffer stale finite after
    · refine Conserved.refund stocked conserved paired.purchaseIds bought pending settled
        fun offer offered sameOffer finite => ?_
      by_contra stale
      exact current ⟨⟨_, success⟩, row, member, purchase, bought, offer, offered, fails, isFor,
        pending, sameOffer, stale, finite⟩

/-- A call keeps tables and history together, and conserves the stock exactly when it is
no stale refund. -/
theorem apply_stock {call : Call F} {writes : List Offer} (paired : db.Paired)
    (stocked : db.Stocked writes) (fresh : FreshVersions (writes ++ rt.writes db call)) :
    (rt.apply db call).Stocked (writes ++ rt.writes db call) ∧
      (db.Conserved writes → ((rt.apply db call).Conserved (writes ++ rt.writes db call) ↔
        ¬ rt.StaleRefund db call)) := by
  unfold Platform.writes apply at *
  cases outcome : rt.perform call.operation ⟨db, call.supply⟩ with
  | error why =>
    rw [Transaction.commit_error outcome, append_nil]
    refine ⟨stocked, fun conserved => ⟨fun _ stale => ?_, fun _ => conserved⟩⟩
    obtain ⟨⟨result, success⟩, -⟩ := stale
    rw [outcome] at success
    cases success
  | ok pair =>
    obtain ⟨value, after⟩ := pair
    rw [Transaction.commit_ok outcome]
    rw [outcome] at fresh
    have plain (none : rt.failure? call.operation = none) : ¬ rt.StaleRefund db call := by
      rintro ⟨-, delivery, -, purchase, -, offer, -, fails, -⟩
      rw [none] at fails
      cases fails
    cases rt.perform_ok (fun _ _ => trivial) (rt.allows_all call.operation) outcome with
    | steps none silent path =>
      obtain ⟨kept, conserved⟩ := path_stock path paired stocked
      simp only [silent, getD_none, append_nil]
      exact ⟨kept, fun before => ⟨fun _ => plain none, fun _ => conserved before⟩⟩
    | sync offers none read synced =>
      simp only [read, Option.getD_some] at fresh ⊢
      obtain ⟨kept, conserved⟩ := synced_stock fresh (rt.offersOf_stock read) stocked synced
      exact ⟨kept, fun before => ⟨fun _ => plain none, fun _ => conserved before⟩⟩
    | fail id fails silent failed =>
      simp only [silent, getD_none, append_nil]
      exact rt.failed_stock paired stocked outcome fails failed

theorem apply_paired (call : Call F) (paired : db.Paired) : (rt.apply db call).Paired := by
  rcases rt.apply_effect (fun _ _ => trivial) (rt.allows_all call.operation) with unchanged | effect
  · rwa [unchanged]
  · exact effect.paired paired

theorem history_append (db : Db F) (first second : List (Call F)) :
    rt.history db (first ++ second) = rt.history db first ++ rt.history (rt.run db first) second := by
  induction first generalizing db with
  | nil => rfl
  | cons call rest ih =>
    rw [cons_append, history, ih, history, append_assoc]
    rfl

theorem run_append (db : Db F) (first second : List (Call F)) :
    rt.run db (first ++ second) = rt.run (rt.run db first) second :=
  foldl_append

theorem stocked_run {calls : List (Call F)} (fresh : FreshVersions (rt.history (Db.empty F) calls)) :
    (rt.run (Db.empty F) calls).Paired ∧ (rt.run (Db.empty F) calls).Stocked (rt.history (Db.empty F) calls) := by
  induction calls using List.reverseRecOn with
  | nil =>
    exact ⟨Paired.empty, .nil, fun _ member => absurd member not_mem_nil,
      fun _ member => absurd member not_mem_nil, fun _ member => absurd member not_mem_nil,
      fun _ member => absurd member not_mem_nil, fun _ member => absurd member not_mem_nil,
      fun _ member => absurd member not_mem_nil⟩
  | append_singleton calls call ih =>
    rw [history_append] at fresh ⊢
    obtain ⟨paired, stocked⟩ := ih fresh.left
    rw [run_append]
    simp only [history, append_nil] at fresh ⊢
    exact ⟨rt.apply_paired call paired, (rt.apply_stock paired stocked fresh).1⟩

/-- In every run that never returns an offer to an earlier version, the stock of every
offer is conserved in every state exactly when no call of the run is a stale refund. -/
theorem stock_conserved_iff (calls : List (Call F)) (fresh : FreshVersions (rt.history (Db.empty F) calls)) :
    (∀ before, before <+: calls → (rt.run (Db.empty F) before).Conserved (rt.history (Db.empty F) before)) ↔
      ∀ before call, before ++ [call] <+: calls → ¬ rt.StaleRefund (rt.run (Db.empty F) before) call := by
  have freshPrefix : ∀ {before}, before <+: calls → FreshVersions (rt.history (Db.empty F) before) := by
    rintro before ⟨after, rfl⟩
    rw [history_append] at fresh
    exact fresh.left
  have step : ∀ before call, before ++ [call] <+: calls →
      (rt.run (Db.empty F) before).Conserved (rt.history (Db.empty F) before) →
      ((rt.run (Db.empty F) (before ++ [call])).Conserved (rt.history (Db.empty F) (before ++ [call])) ↔
        ¬ rt.StaleRefund (rt.run (Db.empty F) before) call) := by
    intro before call inside conserved
    have whole := freshPrefix inside
    obtain ⟨paired, stocked⟩ := rt.stocked_run (freshPrefix ((prefix_append _ _).trans inside))
    rw [history_append, run_append] at *
    simp only [history, append_nil] at whole ⊢
    exact (rt.apply_stock paired stocked whole).2 conserved
  constructor
  · intro conserved before call inside
    have earlier := conserved before ((prefix_append _ _).trans inside)
    exact (step before call inside earlier).mp (conserved _ inside)
  · intro current before inside
    induction before using List.reverseRecOn with
    | nil =>
      exact ⟨fun _ member => absurd member not_mem_nil, fun _ _ _ found => by cases found⟩
    | append_singleton before call ih =>
      have earlier := ih ((prefix_append _ _).trans inside)
      exact (step before call inside earlier).mpr (current before call inside)

end Platform

theorem stock_conserved_kit : (plain.run (Db.empty FloatText) freeOrder).Conserved
    (plain.history (Db.empty FloatText) freeOrder) := by
  refine (plain.stock_conserved_iff freeOrder (by decide +kernel)).mpr ?_ freeOrder (prefix_refl _)
  rintro before call inside ⟨-, delivery, -, purchase, -, offer, -, fails, -⟩
  have member : call ∈ freeOrder := inside.subset (mem_append_right _ mem_cons_self)
  rcases mem_cons.mp member with rfl | rest
  · cases fails
  · rw [mem_singleton.mp rest] at fails
    cases fails

def staleOrder : List (Call FloatText) :=
  freeOrder ++
    [⟨.syncConfig (some (kitCatalog "2" "10")), supplyOf "2024-01-02T00:00:00Z" []⟩,
      ⟨.claimDelivery .none, supplyOf "2024-01-02T00:00:01Z" []⟩,
      ⟨.failDelivery (.str (Uuid.repeated 'b' (.refl true)).text) (.str "secret")
        (.str "inventory is full") (.bool true), supplyOf "2024-01-02T00:00:02Z" []⟩]

/-- Two units bought at version 1 come back as units of version 2. -/
theorem stale_refund_exceeds_stock :
    let db := plain.run (Db.empty FloatText) staleOrder
    let writes := plain.history (Db.empty FloatText) staleOrder
    FreshVersions writes ∧ ¬ db.Conserved writes := by
  intro db writes
  have found : ∃ offer ∈ db.offers, offer.stock = some 12 ∧
      configured writes offer.id offer.version = some (some 10) := by decide +kernel
  refine ⟨by decide +kernel, fun conserved => ?_⟩
  obtain ⟨offer, offered, stock, total⟩ := found
  obtain ⟨remaining, same, -, most⟩ := conserved.exact offer offered 10 total
  rw [stock] at same
  have twelve : (12 : Int) = remaining := Option.some.inj same
  omega

end Dash.Community
