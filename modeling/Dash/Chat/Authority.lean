import Dash.Foundation.Table
import Dash.Python.Text
import Mathlib.Data.List.Infix
import Mathlib.Data.List.Sort

/-! Who a chat message comes from: the resolvers of senders and what commands do with them.

A message's sender field is text. Rows keep the columns that select them; the actor and the partition
of a character are left out, since their joins neither add nor drop rows.
-/

set_option autoImplicit false

namespace Dash.Chat

open Dash.Python

def Plain (text : String) : Prop := ∀ char ∈ text.toList, char.toNat < 128 ∧ char.isUpper = false

instance : DecidablePred Plain := fun text =>
  inferInstanceAs (Decidable (∀ char ∈ text.toList, char.toNat < 128 ∧ char.isUpper = false))

theorem plain_of_all {text : String}
    (passes : (text.toList.all fun char => decide (char.toNat < 128 ∧ char.isUpper = false)) = true) :
    Plain text :=
  fun char member => of_decide_eq_true (List.all_eq_true.mp passes char member)

structure Platform where
  /-- `lower` of the database. -/
  sqlLower : String → String
  sqlLower_plain : ∀ text, Plain text → sqlLower text = text
  /-- `str.lower` -/
  lower : String → String
  lower_plain : ∀ text, Plain text → lower text = text
  /-- The order of names in the database. -/
  collate : String → String → Bool
  /-- `shlex.split`; `none` raises. -/
  split : String → Option (List String)
  split_word : ∀ word, word ≠ "" → word.toList.all Char.isAlpha = true → split word = some [word]
  /-- Whether the arguments of a command are well formed. -/
  exchangeListLimit : List String → Bool
  auctionArgs : List String → Bool

/-- A row of `dune.accounts`. -/
structure Account where
  id : Int
  (user funcomId : String)

/-- A row of `dune.player_state`. -/
structure Player where
  accountId : Int
  characterName : Option String
  playerControllerId : Int

structure Database where
  accounts : List Account
  players : List Player

/-- A row of `character_row`. -/
structure Row where
  characterName : String
  (accountId playerControllerId : Int)
  (flsId funcomId : String)
  deriving DecidableEq

/-- A row of `character_by_fls_id`. -/
structure Identity where
  characterName : Option String
  (flsId funcomId : String)

structure Settings where
  /-- `DUNE_CHAT_COMMAND_PREFIX` -/
  start : String
  /-- `DUNE_CHAT_COMMAND_ADMINS` -/
  admins : String
  /-- `DUNE_CHAT_COMMAND_ADMIN_FLS_IDS` -/
  adminFlsIds : String

/-- `text.split(",")` -/
def splitComma : List Char → List (List Char)
  | [] => [[]]
  | ',' :: rest => [] :: splitComma rest
  | char :: rest =>
    match splitComma rest with
    | [] => [[char]]
    | word :: words => (char :: word) :: words

def splitCsv (value : String) : List String :=
  ((splitComma value.toList).map fun item => strip (String.ofList item)).filter fun item => item ≠ ""

/-- `text LIKE pattern` -/
def like : List Char → List Char → Bool
  | [], text => text.isEmpty
  | '%' :: rest, text => text.tails.any fun tail => like rest tail
  | '_' :: rest, text => match text with
    | _ :: tail => like rest tail
    | [] => false
  | ['\\'], _ => false
  | '\\' :: char :: rest, text => match text with
    | head :: tail => char = head && like rest tail
    | [] => false
  | char :: rest, text => match text with
    | head :: tail => char = head && like rest tail
    | [] => false

namespace Database

variable (db : Database)

/-- `player_state ps join accounts acc` -/
def candidates : List Row :=
  db.players.flatMap fun player => match player.characterName with
    | none => []
    | some name => (db.accounts.filter fun account => account.id = player.accountId).map
        fun account => ⟨name, player.accountId, player.playerControllerId, account.user, account.funcomId⟩

/-- The names of an account's rows in `accounts acc left join player_state ps`. -/
def names (account : Account) : List (Option String) :=
  match db.players.filter fun player => player.accountId = account.id with
  | [] => [none]
  | players => players.map Player.characterName

def identities : List Identity :=
  db.accounts.flatMap fun account => (db.names account).map fun name =>
    ⟨name, account.user, account.funcomId⟩

end Database

namespace Platform

variable (rt : Platform) (settings : Settings) (db : Database)

/-- `order by character_name nulls last` -/
def nullsLast : Option String → Option String → Prop
  | some first, some second => rt.collate first second = true
  | none, some _ => False
  | _, none => True

instance : DecidableRel rt.nullsLast := fun first second =>
  match first, second with
  | some _, some _ => inferInstanceAs (Decidable (_ = true))
  | none, some _ => isFalse id
  | some _, none => isTrue trivial
  | none, none => isTrue trivial

/-- The condition of `character_row`. -/
def matches_ (name : String) (row : Row) : Bool :=
  rt.sqlLower row.characterName = rt.sqlLower name ||
    like ((rt.sqlLower name).toList ++ ['%']) (rt.sqlLower row.characterName).toList

/-- `order by match_rank, character_name` -/
def ranked (name : String) (first second : Row) : Prop :=
  let exact_ (row : Row) := rt.sqlLower row.characterName = rt.sqlLower name
  (exact_ first ∧ ¬ exact_ second) ∨
    ((exact_ first ↔ exact_ second) ∧ rt.collate first.characterName second.characterName = true)

instance (name : String) : DecidableRel (rt.ranked name) := fun _ _ =>
  inferInstanceAs (Decidable (_ ∨ _))

def candidateRows (name : String) : List Row :=
  ((db.candidates.filter (rt.matches_ name)).insertionSort (rt.ranked name)).take 5

def characterRow (name : String) : Option Row × List Row :=
  let rows := rt.candidateRows db name
  match rows.filter fun row => rt.lower row.characterName = rt.lower name with
  | row :: _ => (some row, rows)
  | [] => match rows with
    | [row] => (some row, rows)
    | _ => (none, rows)

def characterByFlsId (flsId : String) : Option Identity :=
  ((db.identities.filter fun identity => identity.flsId = flsId).insertionSort fun first second =>
    rt.nullsLast first.characterName second.characterName).head?

def flsIdForSender (senderName : String) : String :=
  if senderName = "" then ""
  else
    let named (identity : Identity) : Bool :=
      (identity.characterName.map rt.sqlLower) = some (rt.sqlLower senderName)
    let found := db.identities.filter fun identity => identity.flsId = senderName ||
      rt.sqlLower identity.funcomId = rt.sqlLower senderName || named identity
    let sorted := found.insertionSort fun first second =>
      (named first = true ∧ named second = false) ∨
        (named first = named second ∧ rt.nullsLast first.characterName second.characterName)
    (sorted.head?.map Identity.flsId).getD ""

/-- `resolved["character_name"]`, where it is not empty. -/
def named? (identity : Option Identity) : Option String :=
  (identity.bind Identity.characterName).filter fun name => name ≠ ""

def resolveSenderCharacter (senderName senderFlsId : String) : String :=
  match (if senderFlsId = "" then none else named? (rt.characterByFlsId db senderFlsId)) with
  | some name => name
  | none =>
    match (if senderName = "" then none else named? (rt.characterByFlsId db senderName)) with
    | some name => name
    | none =>
      match (if senderName = "" then none else (rt.characterRow db senderName).1) with
      | some target => target.characterName
      | none =>
        if senderName ≠ "" then senderName else if senderFlsId ≠ "" then senderFlsId else "unknown"

def adminNames : List String := (splitCsv settings.admins).map rt.lower

def adminIds : List String := splitCsv settings.adminFlsIds

/-- The name that `is_admin` looks up in the list. -/
def adminName (senderName senderFlsId : String) : String :=
  let own := if senderFlsId = "" then none else rt.characterByFlsId db senderFlsId
  let resolved := match own with
    | some identity => some identity
    | none => if senderName = "" then none else rt.characterByFlsId db senderName
  (named? resolved).getD senderName

def isAdmin (senderName senderFlsId : String) : Bool :=
  let name := rt.adminName db senderName senderFlsId
  (name ≠ "" && decide (rt.lower name ∈ rt.adminNames settings)) ||
    (senderFlsId ≠ "" && decide (senderFlsId ∈ adminIds settings)) ||
    (senderName ≠ "" && decide (senderName ∈ adminIds settings))

def selfPlayer (senderName senderFlsId : String) : Option Row :=
  (rt.characterRow db (rt.resolveSenderCharacter db senderName senderFlsId)).1

end Platform

inductive SelfService where
  | inventory | exchangeList | exchangeCashout | auctionHelp | auctionConfirm | auction | dd1Backup | dd1Restore
  deriving DecidableEq

inductive Handled where
  | ignored
  | badSyntax
  | list
  | usage
  | acts (command : SelfService) (player : Row)
  | unresolved (command : SelfService)
  | noSuggestion
  | suggestionCancelled
  | denied
  | admin (command : String) (args : List String)
  deriving DecidableEq

namespace Platform

variable (rt : Platform) (settings : Settings) (db : Database)

def serve (command : SelfService) (senderName senderFlsId : String) : Handled :=
  match rt.selfPlayer db senderName senderFlsId with
  | some player => .acts command player
  | none => .unresolved command

def auctionConfirmationKey (senderName senderFlsId resolvedName : String) : String :=
  rt.lower (if senderFlsId ≠ "" then senderFlsId
    else if resolvedName ≠ "" then resolvedName
    else if senderName ≠ "" then senderName else "unknown")

/-- The commands of `handle_command`. `pending` says which senders have a suggested auction that has
not expired. -/
def dispatch (pending : String → Bool) (command : String) (args : List String)
    (senderName senderFlsId : String) : Handled :=
  if command ∈ ["list", "players", "online"] then .list
  else if command ∈ ["inv_list", "inventory", "inv"] then
    rt.serve db .inventory senderName senderFlsId
  else if command ∈ ["exchange_list", "auction_list", "my_auctions", "sales"] then
    if rt.exchangeListLimit args then rt.serve db .exchangeList senderName senderFlsId else .usage
  else if command ∈ ["exchange_cashout", "cashout"] then
    if args = [] then rt.serve db .exchangeCashout senderName senderFlsId else .usage
  else if command = "auction" then
    match args with
    | [] => rt.serve db .auctionHelp senderName senderFlsId
    | [answer] =>
      if rt.lower answer ∈ ["yes", "y", "no", "n"] then
        let resolvedName := rt.resolveSenderCharacter db senderName senderFlsId
        if pending (rt.auctionConfirmationKey senderName senderFlsId resolvedName) = false then
          .noSuggestion
        else if rt.lower answer ∈ ["no", "n"] then .suggestionCancelled
        else rt.serve db .auctionConfirm senderName senderFlsId
      else if rt.auctionArgs args then rt.serve db .auction senderName senderFlsId
      else .usage
    | _ => if rt.auctionArgs args then rt.serve db .auction senderName senderFlsId else .usage
  else if command ∈ ["dd1_backup", "dd1backup", "dd_backup"] then
    rt.serve db .dd1Backup senderName senderFlsId
  else if command ∈ ["dd1_restore", "dd1restore", "dd_restore"] then
    rt.serve db .dd1Restore senderName senderFlsId
  else if rt.isAdmin settings db senderName senderFlsId then .admin command args
  else .denied

def handleCommand (pending : String → Bool) (text senderName senderFlsId : String) : Handled :=
  if startsWith settings.start text = false then .ignored
  else
    match rt.split (String.ofList (text.toList.drop settings.start.toList.length)) with
    | none => .badSyntax
    | some [] => .ignored
    | some (command :: args) =>
      let senderFlsId := if senderFlsId = "" ∧ senderName ≠ "" then rt.flsIdForSender db senderName
        else senderFlsId
      rt.dispatch settings db pending (rt.lower command) args senderName senderFlsId

end Platform

open List

theorem like_length {letters text : List Char} (letter : ∀ char ∈ letters, char ≠ '%' ∧ char ≠ '_' ∧ char ≠ '\\')
    (matched : like (letters ++ ['%']) text = true) : letters.length ≤ text.length := by
  induction letters generalizing text with
  | nil => exact Nat.zero_le _
  | cons char rest ih =>
    obtain ⟨percent, any_, back⟩ := letter char mem_cons_self
    rw [cons_append] at matched
    cases text with
    | nil =>
      rw [like.eq_def] at matched
      split at matched <;> simp_all
    | cons head tail =>
      have next : like (rest ++ ['%']) tail = true := by
        rw [like.eq_def] at matched
        split at matched <;> simp_all
      exact Nat.succ_le_succ (ih (fun other member => letter other (mem_cons_of_mem _ member)) next)

theorem like_everything (text : List Char) : like ['%', '%'] text = true := by
  simp only [like, any_eq_true, mem_tails, List.isEmpty_iff]
  exact ⟨[], nil_suffix, [], nil_suffix, rfl⟩

/-- What goes before every other element is first, whatever the order of the others. -/
theorem insertionSort_first {α : Type} (before : α → α → Prop) [DecidableRel before] {first : α}
    {rows : List α} (member : first ∈ rows)
    (others : ∀ row ∈ rows, row ≠ first → before first row ∧ ¬ before row first) :
    ∃ rest, rows.insertionSort before = first :: rest := by
  classical
  induction rows with
  | nil => cases member
  | cons row rest ih =>
    rw [insertionSort_cons]
    by_cases same : row = first
    · subst same
      cases sorted : rest.insertionSort before with
      | nil => exact ⟨[], rfl⟩
      | cons head tail =>
        rw [orderedInsert_cons]
        split
        · exact ⟨_, rfl⟩
        · rename_i late
          have inside : head ∈ rest := by
            rw [← mem_insertionSort before, sorted]
            exact mem_cons_self
          have equal : head = row := by
            by_contra different
            exact late (others head (mem_cons_of_mem _ inside) different).1
          exact ⟨_, by rw [equal]⟩
    · have inside : first ∈ rest := (mem_cons.mp member).resolve_left (Ne.symm same)
      obtain ⟨tail, sorted⟩ := ih inside fun other there =>
        others other (mem_cons_of_mem _ there)
      have late := (others row mem_cons_self same).2
      exact ⟨tail.orderedInsert before row, by rw [sorted, orderedInsert_cons, if_neg late]⟩

def Unique (rt : Platform) (db : Database) : Prop :=
  (db.candidates.map fun row => rt.sqlLower row.characterName).Nodup

namespace Platform

variable {rt : Platform} {settings : Settings} {db : Database}

def ownName (rt : Platform) (db : Database) (user : String) : Option String :=
  named? (rt.characterByFlsId db user)

variable {name : String}

theorem named?_some {identity : Option Identity} (found : named? identity = some name) :
    name ≠ "" ∧ ∃ row, identity = some row ∧ row.characterName = some name := by
  obtain ⟨bound, filled⟩ := Option.filter_eq_some_iff.mp found
  obtain ⟨row, same, character⟩ := Option.bind_eq_some_iff.mp bound
  exact ⟨of_decide_eq_true filled, row, same, character⟩

theorem characterByFlsId_mem {user : String} {identity : Identity}
    (found : rt.characterByFlsId db user = some identity) :
    identity ∈ db.identities ∧ identity.flsId = user := by
  have member := List.mem_of_mem_head? found
  rw [mem_insertionSort] at member
  obtain ⟨inside, same⟩ := mem_filter.mp member
  exact ⟨inside, of_decide_eq_true same⟩

theorem identity_candidate {identity : Identity} (member : identity ∈ db.identities)
    (named : identity.characterName = some name) :
    ∃ row ∈ db.candidates, row.characterName = name := by
  obtain ⟨account, inside, listed⟩ := mem_flatMap.mp member
  obtain ⟨one, among, rfl⟩ := mem_map.mp listed
  unfold Database.names at among
  split at among
  · rw [mem_singleton.mp among] at named
    cases named
  · obtain ⟨player, present, rfl⟩ := mem_map.mp among
    obtain ⟨stored, same⟩ := mem_filter.mp present
    have own : account.id = player.accountId := (of_decide_eq_true same).symm
    refine ⟨⟨name, player.accountId, player.playerControllerId, account.user, account.funcomId⟩,
      mem_flatMap.mpr ⟨player, stored, ?_⟩, rfl⟩
    dsimp only at named
    rw [named]
    exact mem_map.mpr ⟨account, mem_filter.mpr ⟨inside, decide_eq_true own⟩, rfl⟩

theorem ownName_candidate {user name : String} (own : rt.ownName db user = some name) :
    ∃ row ∈ db.candidates, row.characterName = name := by
  obtain ⟨-, identity, found, named⟩ := named?_some own
  exact identity_candidate (characterByFlsId_mem found).1 named

theorem ownName_empty {user : String} (empty : db.candidates = []) : rt.ownName db user = none := by
  cases own : rt.ownName db user with
  | none => rfl
  | some name =>
    obtain ⟨row, member, -⟩ := ownName_candidate own
    rw [empty] at member
    cases member

theorem characterRow_exact (unique : Unique rt db) {row : Row} (member : row ∈ db.candidates) :
    (rt.characterRow db row.characterName).1 = some row := by
  have found : row ∈ db.candidates.filter (rt.matches_ row.characterName) :=
    mem_filter.mpr ⟨member, by simp [matches_]⟩
  obtain ⟨rest, sorted⟩ := insertionSort_first (rt.ranked row.characterName) found fun other there different => by
      have stored := (mem_filter.mp there).1
      have apart : ¬ rt.sqlLower other.characterName = rt.sqlLower row.characterName := fun same =>
        different (Foundation.Table.same_row unique stored member same)
      simp [ranked, apart]
  have rows : rt.candidateRows db row.characterName = row :: rest.take 4 := by
    rw [candidateRows, sorted]
    rfl
  simp [characterRow, rows]

theorem characterRow_empty (empty : db.candidates = []) (name : String) : rt.characterRow db name = (none, []) := by
  simp [characterRow, candidateRows, empty]

theorem characterRow_long (letters : ∀ char ∈ name.toList, char = 'a') (long : ∀ row ∈ db.candidates,
      (rt.sqlLower row.characterName).toList.length < name.toList.length) :
    rt.characterRow db name = (none, []) := by
  have kept : rt.sqlLower name = name := rt.sqlLower_plain name fun char member => by
    rw [letters char member]
    decide
  have none_ : db.candidates.filter (rt.matches_ name) = [] := by
    refine filter_eq_nil_iff.mpr fun row member found => ?_
    have shorter := long row member
    rw [matches_, kept, Bool.or_eq_true] at found
    rcases found with same | matched
    · rw [of_decide_eq_true same] at shorter
      exact absurd shorter (lt_irrefl _)
    · exact absurd (like_length (fun char inside => by
        rw [letters char inside]
        decide) matched) (not_le.mpr shorter)
  simp [characterRow, candidateRows, none_]

variable {user : String}

theorem resolve_own (own : rt.ownName db user = some name) (filled : user ≠ "")
    (sender : String) : rt.resolveSenderCharacter db sender user = name := by
  rw [ownName] at own
  rw [resolveSenderCharacter, if_neg filled, own]

theorem selfPlayer_empty (empty : db.candidates = []) (sender : String) : rt.selfPlayer db sender user = none := by
  rw [selfPlayer, characterRow_empty empty]

theorem bounded {α : Type} (rows : List α) (size : α → Nat) : ∃ bound, ∀ row ∈ rows, size row < bound := by
  induction rows with
  | nil => exact ⟨0, fun row member => absurd member not_mem_nil⟩
  | cons head rest ih =>
    obtain ⟨bound, below⟩ := ih
    refine ⟨max bound (size head + 1), fun row member => ?_⟩
    rcases mem_cons.mp member with rfl | inside
    · omega
    · have := below row inside
      omega

theorem selfPlayer_nobody (rt : Platform) (db : Database) (own : rt.ownName db user = none) :
    ∃ sender, rt.selfPlayer db sender user = none := by
  obtain ⟨names, longer⟩ := bounded db.candidates fun row => (rt.sqlLower row.characterName).toList.length
  obtain ⟨ids, longerId⟩ := bounded db.identities fun identity => identity.flsId.toList.length
  let sender := String.ofList (List.replicate (names + ids + 1) 'a')
  have chars : sender.toList = List.replicate (names + ids + 1) 'a' := String.toList_ofList
  have length : sender.toList.length = names + ids + 1 := by rw [chars, length_replicate]
  have nobody : rt.characterRow db sender = (none, []) := by
    refine characterRow_long (fun char member => ?_) fun row member => ?_
    · rw [chars] at member
      exact eq_of_mem_replicate member
    · have := longer row member
      rw [length]
      omega
  have unknown : named? (rt.characterByFlsId db sender) = none := by
    cases found : rt.characterByFlsId db sender with
    | none => rfl
    | some identity =>
      obtain ⟨member, same⟩ := characterByFlsId_mem found
      have := longerId identity member
      rw [same, length] at this
      omega
  have filled : sender ≠ "" := fun empty => by
    rw [empty] at length
    exact absurd length (by simp)
  rw [ownName] at own
  refine ⟨sender, ?_⟩
  have resolved : rt.resolveSenderCharacter db sender user = sender := by
    unfold resolveSenderCharacter
    rw [own, unknown, nobody]
    simp [filled]
  rw [selfPlayer, resolved, nobody]

theorem characterRow_mem {row : Row} (found : (rt.characterRow db name).1 = some row) : row ∈ db.candidates := by
  have inside : ∀ other ∈ rt.candidateRows db name, other ∈ db.candidates := fun other member =>
    (mem_filter.mp ((mem_insertionSort _).mp (mem_of_mem_take member))).1
  unfold characterRow at found
  dsimp only at found
  split at found
  · rename_i head tail exact_
    cases found
    refine inside row (mem_of_mem_filter (p := fun row => rt.lower row.characterName = rt.lower name) ?_)
    rw [exact_]
    exact mem_cons_self
  · split at found
    · rename_i single
      cases found
      exact inside row (single ▸ mem_singleton_self row)
    · cases found

variable {sender : String}

theorem selfPlayer_found (unique : Unique rt db) (own : rt.ownName db user = none)
    (filled : sender ≠ "") {target : Row} (found : (rt.characterRow db sender).1 = some target) :
    rt.selfPlayer db sender user ≠ none := by
  have acts : ∀ row ∈ db.candidates, (rt.characterRow db row.characterName).1 ≠ none :=
    fun row member => by
      rw [characterRow_exact unique member]
      exact Option.some_ne_none row
  rw [ownName] at own
  unfold selfPlayer resolveSenderCharacter
  simp only [own, ite_self, if_neg filled, found]
  cases other : named? (rt.characterByFlsId db sender) with
  | none => exact acts target (characterRow_mem found)
  | some name =>
    obtain ⟨row, member, same⟩ := ownName_candidate other
    rw [← same]
    exact acts row member

/-- Where there are characters, some sender's field acts on one of them. -/
theorem selfPlayer_somebody (unique : Unique rt db) (own : rt.ownName db user = none)
    (some_ : db.candidates ≠ []) : ∃ sender, rt.selfPlayer db sender user ≠ none := by
  by_cases named : ∃ row ∈ db.candidates, row.characterName ≠ ""
  · obtain ⟨row, member, filled⟩ := named
    exact ⟨row.characterName, selfPlayer_found unique own filled (characterRow_exact unique member)⟩
  · -- A single character without a name is found by a pattern.
    push Not at named
    obtain ⟨row, rest, rows⟩ := exists_cons_of_ne_nil some_
    have single : rest = [] := by
      refine eq_nil_iff_forall_not_mem.mpr fun other member => ?_
      rw [Unique, rows, map_cons, nodup_cons] at unique
      refine unique.1 (mem_map.mpr ⟨other, member, ?_⟩)
      rw [named row (by rw [rows]; exact mem_cons_self), named other (by rw [rows]; exact mem_cons_of_mem _ member)]
    have percent : rt.sqlLower "%" = "%" := rt.sqlLower_plain "%" (plain_of_all rfl)
    have passes : rt.matches_ "%" row = true := by
      rw [matches_, percent, Bool.or_eq_true]
      exact .inr (like_everything _)
    have listed : rt.candidateRows db "%" = [row] := by
      rw [candidateRows, rows, single, filter_cons_of_pos passes]
      rfl
    have found : (rt.characterRow db "%").1 = some row := by
      unfold characterRow
      rw [listed]
      by_cases same : rt.lower row.characterName = rt.lower "%" <;> simp [same]
    exact ⟨"%", selfPlayer_found unique own (by decide) found⟩

theorem adminName_own (own : rt.ownName db user = some name) (filled : user ≠ "")
    (sender : String) : rt.adminName db sender user = name := by
  obtain ⟨-, identity, found, -⟩ := named?_some own
  rw [ownName, found] at own
  rw [adminName, if_neg filled, found]
  rw [own, Option.getD_some]

theorem adminName_empty (empty : db.candidates = []) (sender : String) : rt.adminName db sender user = sender := by
  have unnamed : ∀ id, named? (rt.characterByFlsId db id) = none := fun id => ownName_empty empty
  unfold adminName
  dsimp only
  split
  · rename_i identity same
    split at same
    · cases same
    · rw [← same, unnamed]
      rfl
  · split
    · rfl
    · rw [unnamed]
      rfl

section Commands

variable {pending : String → Bool} {first second : String}

section

variable (filled : user ≠ "") (player : rt.selfPlayer db first user = rt.selfPlayer db second user)
  (allowed : rt.isAdmin settings db first user = rt.isAdmin settings db second user)
include filled player allowed

theorem dispatch_congr

    (command : String) (args : List String) :
    rt.dispatch settings db pending command args first user =
      rt.dispatch settings db pending command args second user := by
  have key : ∀ sender resolved, rt.auctionConfirmationKey sender user resolved = rt.lower user :=
    fun sender resolved => by rw [auctionConfirmationKey, if_pos filled]
  unfold dispatch serve
  simp [key, player, allowed]

theorem handle_congr

    (text : String) : rt.handleCommand settings db pending text first user =
      rt.handleCommand settings db pending text second user := by
  have same (sender : String) : (if user = "" ∧ sender ≠ "" then rt.flsIdForSender db sender
      else user) = user := if_neg fun both => filled both.1
  unfold handleCommand
  simp only [same]
  split
  · rfl
  · split
    · rfl
    · rfl
    · exact dispatch_congr filled player allowed _ _

end

theorem dispatch_admin {command name : String} {args rest : List String}
    (admitted : rt.dispatch settings db pending command args first user = .admin name rest) :
    rt.isAdmin settings db first user = true := by
  unfold dispatch serve at admitted
  dsimp only at admitted
  repeat' split at admitted
  all_goals first | assumption | cases admitted

theorem handle_admin (filled : user ≠ "") {text name : String} {rest : List String}
    (admitted : rt.handleCommand settings db pending text first user = .admin name rest) :
    rt.isAdmin settings db first user = true := by
  have same : (if user = "" ∧ first ≠ "" then rt.flsIdForSender db first else user) = user :=
    if_neg fun both => filled both.1
  unfold handleCommand at admitted
  simp only [same] at admitted
  split at admitted
  · cases admitted
  · split at admitted
    · cases admitted
    · cases admitted
    · exact dispatch_admin admitted

theorem handle_word (filled : user ≠ "") {word : String} (some_ : word ≠ "")
    (letters : word.toList.all Char.isAlpha = true) (plain : Plain word) :
    rt.handleCommand settings db pending (settings.start ++ word) first user =
      rt.dispatch settings db pending word [] first user := by
  have same : (if user = "" ∧ first ≠ "" then rt.flsIdForSender db first else user) = user :=
    if_neg fun both => filled both.1
  have rest : String.ofList ((settings.start ++ word).toList.drop settings.start.toList.length) = word := by
    rw [String.toList_append, drop_left, String.ofList_toList]
  rw [handleCommand, startsWith_append, rest, rt.split_word word some_ letters]
  simp [same, rt.lower_plain word plain]

theorem handle_inventory (filled : user ≠ "") :
    rt.handleCommand settings db pending (settings.start ++ "inv") first user = rt.serve db .inventory first user := by
  rw [handle_word filled (by decide) rfl (plain_of_all rfl), dispatch, if_neg (by decide), if_pos (by decide)]

theorem handle_test (filled : user ≠ "") : rt.handleCommand settings db pending (settings.start ++ "test") first user =
      if rt.isAdmin settings db first user then .admin "test" [] else .denied := by
  rw [handle_word filled (by decide) rfl (plain_of_all rfl), dispatch, if_neg (by decide),
    if_neg (by decide), if_neg (by decide), if_neg (by decide), if_neg (by decide),
    if_neg (by decide), if_neg (by decide)]

end Commands

def Entitled (rt : Platform) (settings : Settings) (db : Database) (user : String) : Prop :=
  user ∈ adminIds settings ∨ ∃ identity ∈ db.identities, identity.flsId = user ∧
    ∃ name, identity.characterName = some name ∧ rt.lower name ∈ rt.adminNames settings

/-- Commands depend on the authenticated user alone, and only entitled accounts administer. -/
structure FromUser (rt : Platform) (settings : Settings) (db : Database) (user : String) : Prop where
  same : ∀ pending text first second, rt.handleCommand settings db pending text first user =
    rt.handleCommand settings db pending text second user
  entitled : ∀ pending text sender command args,
    rt.handleCommand settings db pending text sender user = .admin command args → rt.Entitled settings db user

/-- The user has a character, and is listed or no ids are listed; or no character exists, and the
user's id is listed or nothing is. -/
def Settled (rt : Platform) (settings : Settings) (db : Database) (user : String) : Prop :=
  match rt.ownName db user with
  | some name => rt.lower name ∈ rt.adminNames settings ∨ user ∈ adminIds settings ∨
      adminIds settings = []
  | none => db.candidates = [] ∧ (user ∈ adminIds settings ∨
      splitCsv settings.admins = [] ∧ adminIds settings = [])

theorem isAdmin_iff (filled : user ≠ "") : rt.isAdmin settings db sender user = true ↔
      (rt.adminName db sender user ≠ "" ∧ rt.lower (rt.adminName db sender user) ∈ rt.adminNames settings) ∨
      user ∈ adminIds settings ∨ (sender ≠ "" ∧ sender ∈ adminIds settings) := by
  simp [isAdmin, filled, or_assoc]

theorem listed_filled {value item : String} (member : item ∈ splitCsv value) : item ≠ "" :=
  of_decide_eq_true (mem_filter.mp member).2

theorem own_entitled (own : rt.ownName db user = some name)
    (listed : rt.lower name ∈ rt.adminNames settings) : rt.Entitled settings db user := by
  obtain ⟨-, identity, found, named⟩ := named?_some own
  obtain ⟨member, same⟩ := characterByFlsId_mem found
  exact .inr ⟨identity, member, same, name, named, listed⟩

section

variable (filled : user ≠ "") (settled : rt.Settled settings db user)
include filled settled

theorem settled_isAdmin (sender : String) : rt.isAdmin settings db sender user = true ↔ rt.Entitled settings db user ∧
      rt.isAdmin settings db "" user = true := by
  rw [isAdmin_iff filled, isAdmin_iff filled]
  cases own : rt.ownName db user with
  | some name =>
    have some_ : name ≠ "" := (named?_some own).1
    rw [Settled, own] at settled
    rw [adminName_own own filled, adminName_own own filled]
    rcases settled with listed | member | unlisted
    · exact ⟨fun _ => ⟨own_entitled own listed, .inl ⟨some_, listed⟩⟩, fun _ => .inl ⟨some_, listed⟩⟩
    · exact ⟨fun _ => ⟨.inl member, .inr (.inl member)⟩, fun _ => .inr (.inl member)⟩
    · rw [unlisted]
      constructor
      · rintro (⟨-, listed⟩ | none_ | ⟨-, none_⟩)
        · exact ⟨own_entitled own listed, .inl ⟨some_, listed⟩⟩
        · cases none_
        · cases none_
      · rintro ⟨-, listed | none_ | ⟨-, none_⟩⟩
        · exact .inl listed
        · cases none_
        · cases none_
  | none =>
    rw [Settled, own] at settled
    obtain ⟨empty, member | ⟨admins, ids⟩⟩ := settled
    · exact ⟨fun _ => ⟨.inl member, .inr (.inl member)⟩, fun _ => .inr (.inl member)⟩
    · have names : rt.adminNames settings = [] := by rw [adminNames, admins, map_nil]
      rw [names, ids]
      simp

theorem settled_same (first second : String) :
    rt.isAdmin settings db first user = rt.isAdmin settings db second user := by
  rw [Bool.eq_iff_iff, settled_isAdmin filled settled first, settled_isAdmin filled settled second]

theorem settled_player (first second : String) : rt.selfPlayer db first user = rt.selfPlayer db second user := by
  cases own : rt.ownName db user with
  | some name =>
    rw [selfPlayer, selfPlayer, resolve_own own filled, resolve_own own filled]
  | none =>
    rw [Settled, own] at settled
    rw [selfPlayer_empty settled.1, selfPlayer_empty settled.1]

end

section

variable (authority : rt.FromUser settings db user) (filled : user ≠ "")
include authority filled

theorem FromUser.player (first second : String) (found : rt.selfPlayer db first user = none) :
    rt.selfPlayer db second user = none := by
  have same := authority.same (fun _ => false) (settings.start ++ "inv") first second
  rw [handle_inventory filled, handle_inventory filled, serve, serve, found] at same
  cases other : rt.selfPlayer db second user with
  | none => rfl
  | some player =>
    rw [other] at same
    cases same

theorem FromUser.admin {first : String} (second : String) (admitted : rt.isAdmin settings db first user = true) :
    rt.isAdmin settings db second user = true := by
  have same := authority.same (fun _ => false) (settings.start ++ "test") first second
  rw [handle_test filled, handle_test filled, if_pos admitted] at same
  by_contra refused
  rw [if_neg refused] at same
  cases same

theorem FromUser.listed (admitted : rt.isAdmin settings db sender user = true) : rt.Entitled settings db user :=
  authority.entitled (fun _ => false) (settings.start ++ "test") sender "test" [] (by
    rw [handle_test filled, if_pos admitted])

theorem FromUser.settled (unique : Unique rt db) : rt.Settled settings db user := by
  -- An id on the list, sent as the sender's field, is admitted.
  have claimed : ∀ id ∈ adminIds settings, rt.isAdmin settings db id user = true := fun id member =>
    (isAdmin_iff filled).mpr (.inr (.inr ⟨listed_filled member, member⟩))
  cases own : rt.ownName db user with
  | some name =>
    rw [Settled, own]
    by_cases ids : adminIds settings = []
    · exact .inr (.inr ids)
    · obtain ⟨id, rest, first⟩ := exists_cons_of_ne_nil ids
      have admitted := authority.admin filled "" (claimed id (first ▸ mem_cons_self))
      rw [isAdmin_iff filled, adminName_own own filled] at admitted
      rcases admitted with ⟨-, listed⟩ | member | ⟨absurd_, -⟩
      · exact .inl listed
      · exact .inr (.inl member)
      · exact absurd rfl absurd_
  | none =>
    rw [Settled, own]
    have empty : db.candidates = [] := by
      by_contra some_
      obtain ⟨nobody, none_⟩ := selfPlayer_nobody rt db own
      obtain ⟨somebody, acts⟩ := selfPlayer_somebody unique own some_
      exact acts (authority.player filled nobody somebody none_)
    refine ⟨empty, ?_⟩
    by_cases member : user ∈ adminIds settings
    · exact .inl member
    · have refused : ∀ sender, rt.isAdmin settings db sender user ≠ true := fun sender admitted => by
        rcases authority.listed filled admitted with listed | ⟨identity, inside, -, name, named, -⟩
        · exact member listed
        · obtain ⟨row, there, -⟩ := identity_candidate inside named
          rw [empty] at there
          cases there
      refine .inr ⟨eq_nil_iff_forall_not_mem.mpr fun name listed => refused name ?_,
        eq_nil_iff_forall_not_mem.mpr fun id listed => refused id (claimed id listed)⟩
      rw [isAdmin_iff filled, adminName_empty empty]
      exact .inl ⟨listed_filled listed, mem_map_of_mem listed⟩

end

/-- Authority comes from the authenticated user alone exactly where the lists settle it. -/
theorem authority_from_user_iff (rt : Platform) (settings : Settings) (db : Database) (user : String)
    (filled : user ≠ "") (unique : Unique rt db) :
    rt.FromUser settings db user ↔ rt.Settled settings db user := by
  constructor
  · intro authority
    exact authority.settled filled unique
  · intro settled
    refine ⟨fun pending text first second => ?_, fun pending text sender command args admitted => ?_⟩
    · exact handle_congr filled (settled_player filled settled first second)
        (settled_same filled settled first second) text
    · exact ((settled_isAdmin filled settled sender).mp (handle_admin filled admitted)).1

end Platform

def lowered (text : String) : String := String.ofList (text.toList.map Char.toLower)

theorem lowered_plain (text : String) (plain : Plain text) : lowered text = text := by
  have kept : text.toList.map Char.toLower = text.toList.map id :=
    map_congr_left fun char member => by
      have small : char.isUpper = false := (plain char member).2
      exact dif_neg (of_decide_eq_false small)
  rw [lowered, kept, map_id, String.ofList_toList]

def words : Platform where
  sqlLower := lowered
  sqlLower_plain := lowered_plain
  lower := lowered
  lower_plain := lowered_plain
  collate first second := decide (first ≤ second)
  split text := if text ≠ "" ∧ text.toList.all Char.isAlpha = true then some [text] else none
  split_word _ some_ letters := if_pos ⟨some_, letters⟩
  exchangeListLimit _ := true
  auctionArgs _ := true

def defaults : Settings := ⟨"&", "AdminUser", "TEST_FLS_ID"⟩

def oneCharacter : Database := ⟨[⟨1, "A1", "Tester#1"⟩], [⟨1, some "Tester", 7⟩]⟩

theorem sender_becomes_admin :
    words.handleCommand defaults oneCharacter (fun _ => false) "&test" "Tester" "A1" = .denied ∧
      words.handleCommand defaults oneCharacter (fun _ => false) "&test" "TEST_FLS_ID" "A1" = .admin "test" [] := by
  decide

theorem oneCharacter_unique : Unique words oneCharacter := by
  unfold Unique
  decide

theorem authority_from_sender : ¬ words.FromUser defaults oneCharacter "A1" := by
  intro authority
  have same := authority.same (fun _ => false) "&test" "Tester" "TEST_FLS_ID"
  rw [sender_becomes_admin.1, sender_becomes_admin.2] at same
  cases same

theorem authority_condition : words.FromUser defaults oneCharacter "A1" ↔ words.Settled defaults oneCharacter "A1" :=
  words.authority_from_user_iff defaults oneCharacter "A1" (by decide) oneCharacter_unique

end Dash.Chat
