import Dash.Community.Effects
import Dash.Foundation.Chain

/-! Wallets and ledger agree, and the ledger verifies, after any run.

`Books` is what the check of the ledger carries along: the hash of the last row
and the running balance of each account. The invariant says that the rows are
accepted from the empty books on and that the wallets hold what the books say.
-/

set_option autoImplicit false

namespace Dash.Community

open Dash.Python Dash.Foundation List
open Function (update_of_ne update_self)

variable {F : Type}

structure Books where
  head : String
  balances : Int → Int

def Books.start : Books := ⟨ZERO_HASH, fun _ => 0⟩

def Books.enter (books : Books) (row : LedgerRow) : Books :=
  ⟨row.entryHash, Function.update books.balances row.duneAccountId row.balanceAfter⟩

def booksOf (rows : List LedgerRow) : Books := rows.foldl Books.enter Books.start

structure Platform.Continues (rt : Platform F) (books : Books) (row : LedgerRow) : Prop where
  isSealed : rt.Sealed row
  follows : row.previousHash = books.head
  after : row.balanceAfter = books.balances row.duneAccountId + row.delta

def Platform.Verified (rt : Platform F) (rows : List LedgerRow) : Prop :=
  Sound Books.enter rt.Continues Books.start rows

def entriesOf (rows : List LedgerRow) (account : Int) : List LedgerRow :=
  rows.filter fun row => row.duneAccountId = account

def lastBalance (rows : List LedgerRow) : Int :=
  (rows.getLast?.map LedgerRow.balanceAfter).getD 0

def deltaSum (rows : List LedgerRow) : Int := (rows.map LedgerRow.delta).sum

variable (rows : List LedgerRow)

theorem booksOf_append (row : LedgerRow) : booksOf (rows ++ [row]) = (booksOf rows).enter row := by
  simp [booksOf]

theorem entriesOf_append (row : LedgerRow) (account : Int) : entriesOf (rows ++ [row]) account =
      if row.duneAccountId = account then entriesOf rows account ++ [row]
      else entriesOf rows account := by
  by_cases same : row.duneAccountId = account <;> simp [entriesOf, same]

theorem booksOf_head : (booksOf rows).head = headHash rows := by
  induction rows using List.reverseRecOn with
  | nil => rfl
  | append_singleton rows row _ => simp [booksOf_append, Books.enter, headHash]

theorem booksOf_last (account : Int) :
    (booksOf rows).balances account = lastBalance (entriesOf rows account) := by
  induction rows using List.reverseRecOn with
  | nil => rfl
  | append_singleton rows row ih =>
    rw [booksOf_append, entriesOf_append, Books.enter]
    by_cases same : row.duneAccountId = account
    · subst same
      simp [lastBalance]
    · rw [if_neg same, ← ih]
      exact update_of_ne (Ne.symm same) _ _

namespace Platform

variable (rt : Platform F)

theorem booksOf_sum {rows : List LedgerRow} (verified : rt.Verified rows) (account : Int) :
    (booksOf rows).balances account = deltaSum (entriesOf rows account) := by
  induction rows using List.reverseRecOn with
  | nil => rfl
  | append_singleton rows row ih =>
    obtain ⟨before, continues, -⟩ := Sound.append.mp verified
    rw [booksOf_append, entriesOf_append, Books.enter]
    by_cases same : row.duneAccountId = account
    · subst same
      rw [if_pos rfl, deltaSum, map_append, sum_append]
      have earlier := ih before
      have after := continues.after
      simp only [booksOf, deltaSum, update_self, map_cons, map_nil, sum_cons, sum_nil] at earlier ⊢
      omega
    · rw [if_neg same, ← ih before]
      exact update_of_ne (Ne.symm same) _ _

theorem verifyRows_sound {rows : List LedgerRow} {books : Books} (sound : Sound Books.enter rt.Continues books rows) :
    ∃ head, rt.verifyRows books.head books.balances rows = .ok (head, []) := by
  induction rows generalizing books with
  | nil => exact ⟨books.head, rfl⟩
  | cons row rest ih =>
    obtain ⟨⟨⟨metadata, material, read, encoded, hashed⟩, follows, after⟩, later⟩ := sound
    obtain ⟨head, accepted⟩ := ih later
    refine ⟨head, ?_⟩
    change rt.verifyRows row.entryHash
      (Function.update books.balances row.duneAccountId row.balanceAfter) rest = _ at accepted
    simp only [verifyRows, read, encoded, accepted, bind, Except.bind]
    rw [if_neg]
    simp [follows, hashed, after]

end Platform

structure Platform.Balanced (rt : Platform F) (db : Db F) : Prop where
  owned : ∀ account ∈ db.accounts.map Account.duneAccountId, account ∈ db.wallets.map Wallet.duneAccountId
  distinct : (db.wallets.map Wallet.duneAccountId).Nodup
  verified : rt.Verified db.ledger
  agrees : ∀ account, db.balance account = (booksOf db.ledger).balances account
  solvent : ∀ account, 0 ≤ db.balance account

variable {db : Db F}

theorem balance_mem (distinct : (db.wallets.map Wallet.duneAccountId).Nodup)
    {wallet : Wallet} (member : wallet ∈ db.wallets) :
    db.balance wallet.duneAccountId = wallet.balance := by
  rw [Db.balance, Db.wallet?, Table.find_mem distinct member]
  rfl

theorem wallet_known {account : Int}
    (known : account ∈ db.wallets.map Wallet.duneAccountId) : (db.wallet? account).isSome := by
  obtain ⟨wallet, member, same⟩ := mem_map.mp known
  rw [Db.wallet?, List.find?_isSome]
  exact ⟨wallet, member, by simpa using same⟩

variable {now : String}

theorem balance_set {account amount : Int} (known : account ∈ db.wallets.map Wallet.duneAccountId) (wanted : Int) :
    (db.setBalance account amount now).balance wanted = Function.update db.balance account amount wanted := by
  simp only [Db.balance, Db.wallet?, Db.setBalance]
  rw [Table.find_update]
  · by_cases same : wanted = account
    · subst same
      obtain ⟨wallet, found⟩ := Option.isSome_iff_exists.mp (wallet_known known)
      rw [Db.wallet?] at found
      simp [found]
    · rw [if_neg same, update_of_ne same]
      rfl
  · exact fun _ same => same

theorem opened_keys {ρ : Type} (key : ρ → Int) {rows : List ρ} (row : ρ) {id : Int} :
    id ∈ (if rows.any fun old => key old = key row then rows else rows ++ [row]).map key ↔
      id ∈ rows.map key ∨ id = key row := by
  by_cases known : rows.any fun old => key old = key row
  · simp only [known, if_true]
    refine ⟨.inl, fun either => either.elim (fun member => member) fun same => ?_⟩
    simpa [same] using known
  · simp [known]

theorem open_accounts {account id : Int} : id ∈ (db.openAccount account now).accounts.map Account.duneAccountId ↔
    id ∈ db.accounts.map Account.duneAccountId ∨ id = account :=
  opened_keys Account.duneAccountId ⟨account, none, none, now⟩

theorem open_wallets {account id : Int} : id ∈ (db.openAccount account now).wallets.map Wallet.duneAccountId ↔
    id ∈ db.wallets.map Wallet.duneAccountId ∨ id = account :=
  opened_keys Wallet.duneAccountId ⟨account, 0, now⟩

theorem open_distinct (distinct : (db.wallets.map Wallet.duneAccountId).Nodup) (account : Int) (now : String) :
    ((db.openAccount account now).wallets.map Wallet.duneAccountId).Nodup := by
  unfold Db.openAccount
  by_cases known : db.wallets.any fun row => row.duneAccountId = account
  · simpa only [known, if_true] using distinct
  · simp only [known, Bool.false_eq_true, if_false]
    exact Table.insert_keys distinct fun member => known (by simpa using member)

theorem balance_open (db : Db F) (account : Int) (now : String) (wanted : Int) :
    (db.openAccount account now).balance wanted = db.balance wanted := by
  simp only [Db.balance, Db.wallet?, Db.openAccount]
  split
  · rfl
  · rename_i absent
    rw [List.find?_append]
    by_cases same : wanted = account
    · subst same
      have missing : db.wallets.find? (fun row => row.duneAccountId = wanted) = none :=
        List.find?_eq_none.mpr (by simpa using absent)
      simp [missing]
    · simp [Ne.symm same]

namespace Platform.Balanced

variable {rt : Platform F} {db other : Db F}

theorem congr (balanced : rt.Balanced db)
    (accounts : other.accounts.map Account.duneAccountId = db.accounts.map Account.duneAccountId)
    (wallets : other.wallets = db.wallets) (ledger : other.ledger = db.ledger) :
    rt.Balanced other := by
  have same : ∀ account, other.balance account = db.balance account := by
    intro account
    rw [Db.balance, Db.wallet?, wallets]
    rfl
  exact {
    owned := by rw [accounts, wallets]; exact balanced.owned
    distinct := by rw [wallets]; exact balanced.distinct
    verified := by rw [ledger]; exact balanced.verified
    agrees := fun account => by rw [same, ledger]; exact balanced.agrees account
    solvent := fun account => by rw [same]; exact balanced.solvent account }

theorem empty : rt.Balanced (Db.empty F) where
  owned := fun _ member => member
  distinct := .nil
  verified := trivial
  agrees := fun _ => rfl
  solvent := fun _ => le_refl 0

theorem openAccount (balanced : rt.Balanced db) (account : Int) (now : String) :
    rt.Balanced (db.openAccount account now) where
  owned := fun id member =>
    open_wallets.mpr ((open_accounts.mp member).imp_left (balanced.owned id))
  distinct := open_distinct balanced.distinct account now
  verified := balanced.verified
  agrees := fun wanted => by rw [balance_open]; exact balanced.agrees wanted
  solvent := fun wanted => by rw [balance_open]; exact balanced.solvent wanted

theorem post (balanced : rt.Balanced db) {row : LedgerRow} (posted : rt.Posted db row) : rt.Balanced (db.post row) := by
  have keys : (db.post row).wallets.map Wallet.duneAccountId =
      db.wallets.map Wallet.duneAccountId := Table.update_keys fun _ => rfl
  have known : row.duneAccountId ∈ db.wallets.map Wallet.duneAccountId := by
    obtain ⟨account, member, same⟩ := posted.known
    exact balanced.owned _ (mem_map.mpr ⟨account, member, same⟩)
  have balance : ∀ account, (db.post row).balance account =
      Function.update db.balance row.duneAccountId row.balanceAfter account :=
    balance_set known
  have continues : rt.Continues (booksOf db.ledger) row := {
    isSealed := posted.isSealed
    follows := by rw [booksOf_head]; exact posted.follows
    after := by rw [← balanced.agrees]; exact posted.after }
  exact {
    owned := by rw [keys]; exact balanced.owned
    distinct := by rw [keys]; exact balanced.distinct
    verified := Sound.concat balanced.verified continues
    agrees := fun account => by
      rw [balance, show (db.post row).ledger = db.ledger ++ [row] from rfl, booksOf_append, Books.enter]
      exact congrFun (congrArg (fun balances => Function.update balances row.duneAccountId
        row.balanceAfter) (funext balanced.agrees)) account
    solvent := fun account => by
      rw [balance]
      by_cases same : account = row.duneAccountId
      · rw [same, update_self]
        exact posted.solvent
      · rw [update_of_ne same]
        exact balanced.solvent account }

theorem postAll (balanced : rt.Balanced db) {amount : Int} {reference : String}
    {entry : Option LedgerRow} (entered : rt.Entered db amount reference entry) :
    rt.Balanced (db.postAll entry) := by
  cases entry with
  | none => exact balanced
  | some row => exact balanced.post entered.1

theorem aside (balanced : rt.Balanced db) (trade : SameTrade db other) : rt.Balanced other :=
  balanced.congr trade.accounts trade.wallets trade.ledger

theorem step {allowed : String → Prop} (balanced : rt.Balanced db)
    (step : rt.Step allowed db other) : rt.Balanced other := by
  cases step with
  | openAccount account now => exact balanced.openAccount account now
  | post row posted free => exact balanced.post posted
  | queue row => exact balanced.congr rfl rfl rfl
  | side _ same => exact balanced.aside same
  | order offer row entry delivery ordered =>
    have posted := balanced.postAll ordered.entered
    cases entry <;> exact posted.congr rfl rfl rfl
  | move row status change => exact balanced.congr rfl rfl rfl
  | deliver row change settle =>
    unfold Db.settle
    split
    · exact balanced.congr rfl rfl rfl
    · exact balanced.congr rfl rfl rfl

theorem failed {id : String} (balanced : rt.Balanced db) (failed : rt.Failed db id other) :
    rt.Balanced other := by
  obtain ⟨middle, row, change, -, -, -, refunded, -⟩ := failed
  cases refunded with
  | refund purchase entry change source found pending entered changed =>
    exact (balanced.postAll entered).congr rfl rfl rfl
  | _ => exact balanced.congr rfl rfl rfl

theorem effect {allowed : String → Prop} {call : Call F} (balanced : rt.Balanced db)
    (effect : rt.Effect allowed call db other) : rt.Balanced other := by
  cases effect with
  | steps plain silent path =>
    induction path with
    | refl => exact balanced
    | tail _ edge ih => exact ih.step edge
  | sync offers plain read synced =>
    rw [Synced, Platform.upserted] at synced
    exact (balanced.congr (by rfl) (by rfl) (by rfl)).aside synced
  | fail id fails silent failed => exact balanced.failed failed

end Platform.Balanced

variable (rt : Platform F)

theorem Platform.balanced_run (calls : List (Call F)) : rt.Balanced (rt.run (Db.empty F) calls) := by
  refine rt.run_induction rt.Balanced .empty fun call _ db balanced => ?_
  rcases rt.apply_effect (fun _ _ => trivial) (rt.allows_all call.operation) with unchanged | effect
  · rwa [unchanged]
  · exact balanced.effect effect

/-- After any run every wallet holds what its ledger rows add up to, which is the
balance after the last of them, and the check of the ledger finds no error. -/
theorem Platform.wallet_ledger_conservation (calls : List (Call F)) :
    let db := rt.run (Db.empty F) calls
    (∀ account ∈ db.accounts, ∃ wallet ∈ db.wallets, wallet.duneAccountId = account.duneAccountId) ∧
      (∀ wallet ∈ db.wallets, 0 ≤ wallet.balance ∧
        wallet.balance = deltaSum (entriesOf db.ledger wallet.duneAccountId) ∧
        wallet.balance = lastBalance (entriesOf db.ledger wallet.duneAccountId)) ∧
      ∃ head, rt.verifyLedger db = .ok ⟨true, db.ledger.length, head, []⟩ := by
  intro db
  have balanced : rt.Balanced db := rt.balanced_run calls
  refine ⟨fun account member => ?_, fun wallet member => ?_, ?_⟩
  · exact mem_map.mp (balanced.owned _ (mem_map_of_mem member))
  · have held := balance_mem balanced.distinct member
    have agrees := balanced.agrees wallet.duneAccountId
    refine ⟨held ▸ balanced.solvent _, ?_, ?_⟩
    · rw [← held, agrees, rt.booksOf_sum balanced.verified]
    · rw [← held, agrees, booksOf_last]
  · obtain ⟨head, accepted⟩ := rt.verifyRows_sound balanced.verified
    refine ⟨head, ?_⟩
    change rt.verifyRows ZERO_HASH (fun _ => 0) db.ledger = _ at accepted
    simp only [verifyLedger, accepted, bind, Except.bind]
    rfl

end Dash.Community
