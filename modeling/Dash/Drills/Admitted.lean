import Mathlib.Data.List.Induction
import Mathlib.Data.String.Basic

/-! The receipts of RabbitMQ restore drills: each names the hash of the one before it, and an anchor
signs the newest and the oldest that are kept.

A file that is replaced is replaced as a whole. The hash of a receipt and the signature of an anchor
are functions of the document; the owner and the modes of the files are left out.
-/

set_option autoImplicit false

namespace Dash.Drills

def isHex (char : Char) : Bool := char.isDigit || (decide ('a' ≤ char) && decide (char ≤ 'f'))

def isSha (text : String) : Bool := decide (text.toList.length = 64) && text.toList.all isHex

/-- `re.fullmatch(r"[0-9]{8}T[0-9]{6}Z-[0-9a-f]{12}", text)` -/
def isReceiptId (text : String) : Bool :=
  let chars := text.toList
  decide (chars.length = 29) && (chars.take 8).all Char.isDigit && decide (chars[8]? = some 'T') &&
    ((chars.drop 9).take 6).all Char.isDigit && decide ((chars.drop 15).take 2 = ['Z', '-']) &&
    (chars.drop 17).all isHex

structure Receipt (Body : Type) where
  id : String
  body : Body
  previousReceiptSha256 : Option String
  receiptSha256 : String

structure AnchorFields where
  (headId headSha256 : Option String)
  retainedCount : Nat
  (oldestRetainedSha256 oldestPreviousSha256 : Option String)
  updatedAt : String
  deriving DecidableEq

structure Anchor extends AnchorFields where
  hmacSha256 : String

/-- The hash of a receipt's other fields, the signature of an anchor, and the size of a receipt's
file. -/
structure Hashes (Body Key : Type) where
  receiptHash : String → Body → Option String → String
  anchorHmac : Key → AnchorFields → String
  fileSize : Receipt Body → Nat
  receiptHash_sha : ∀ id body previous, isSha (receiptHash id body previous) = true
  anchorHmac_sha : ∀ key fields, isSha (anchorHmac key fields) = true

/-- The directory of the receipts. Their files are named by their ids, and kept here by descending
name. -/
structure Root (Body Key : Type) where
  receipts : List (Receipt Body)
  latest : Option (Receipt Body)
  key : Option Key
  anchor : Option Anchor

def Root.empty (Body Key : Type) : Root Body Key := ⟨[], none, none, none⟩

def fileName (id : String) : String := id ++ ".json"

/-- A row of `list_receipts` as it was read. -/
structure Row where
  id : String
  (receiptSha256 previousReceiptSha256 : Option String)
  receiptHashValid : Bool

variable {Body Key : Type} (hashes : Hashes Body Key)

def verifyReceiptDocument (receipt : Receipt Body) : Bool :=
  isReceiptId receipt.id && isSha receipt.receiptSha256 &&
    decide (hashes.receiptHash receipt.id receipt.body receipt.previousReceiptSha256 = receipt.receiptSha256)

def readRow (receipt : Receipt Body) : Row :=
  if 1 ≤ hashes.fileSize receipt ∧ hashes.fileSize receipt ≤ 2 * 1024 * 1024 then
    ⟨receipt.id, some receipt.receiptSha256, receipt.previousReceiptSha256, verifyReceiptDocument hashes receipt⟩
  else ⟨receipt.id, none, none, false⟩

/-- The rows with their `receiptChainValid`. -/
def chained : List Row → List (Row × Bool)
  | [] => []
  | [row] => [(row, row.receiptHashValid)]
  | row :: next :: rest =>
    (row, row.receiptHashValid && decide (row.previousReceiptSha256 = next.receiptSha256)) :: chained (next :: rest)

def listReceipts (limit : Nat) (root : Root Body Key) : List (Row × Bool) :=
  (chained (root.receipts.map (readRow hashes))).take (max 1 (min limit 100000))

/-- What `_anchor_document` takes from the rows. -/
def anchorFields (rows : List (Row × Bool)) (updatedAt : String) : AnchorFields where
  headId := rows.head?.map fun row => row.1.id
  headSha256 := rows.head?.bind fun row => row.1.receiptSha256
  retainedCount := rows.length
  oldestRetainedSha256 := rows.getLast?.bind fun row => row.1.receiptSha256
  oldestPreviousSha256 := rows.getLast?.bind fun row => row.1.previousReceiptSha256
  updatedAt := updatedAt

def anchorDocument (rows : List (Row × Bool)) (key : Key) (updatedAt : String) : Anchor :=
  { toAnchorFields := anchorFields rows updatedAt
    hmacSha256 := hashes.anchorHmac key (anchorFields rows updatedAt) }

/-- `verify_history(root)["ok"]` -/
def verifyHistory (root : Root Body Key) : Bool :=
  let rows := listReceipts hashes 100000 root
  match root.key, root.anchor with
  | some key, some anchor =>
    -- the signature, the binding and the chain
    (isSha anchor.hmacSha256 && decide (anchor.hmacSha256 = hashes.anchorHmac key anchor.toAnchorFields)) &&
    decide ({ anchor.toAnchorFields with updatedAt := "" } = anchorFields rows "") &&
    rows.all fun row => row.1.receiptHashValid && row.2
  | _, anchor => rows.isEmpty && anchor.isNone

def admitted (root : Root Body Key) : Bool :=
  (listReceipts hashes 100000 root).isEmpty || verifyHistory hashes root

def insertReceipt (receipt : Receipt Body) : List (Receipt Body) → List (Receipt Body)
  | [] => [receipt]
  | row :: rest =>
    if fileName row.id < fileName receipt.id then receipt :: row :: rest
    else row :: insertReceipt receipt rest

def putReceipt (receipt : Receipt Body) (root : Root Body Key) : Root Body Key :=
  { root with
    receipts := insertReceipt receipt (root.receipts.filter fun row => row.id ≠ receipt.id) }

def putLatest (receipt : Receipt Body) (root : Root Body Key) : Root Body Key :=
  { root with latest := some receipt }

def unlink (id : String) (root : Root Body Key) : Root Body Key :=
  { root with receipts := root.receipts.filter fun row => row.id ≠ id }

def createKey (secret : Key) (root : Root Body Key) : Root Body Key :=
  { root with key := some (root.key.getD secret) }

def putAnchor (updatedAt : String) (root : Root Body Key) : Root Body Key :=
  match root.key with
  | some key => { root with
      anchor := some (anchorDocument hashes (listReceipts hashes 100000 root) key updatedAt) }
  | none => root

/-- A drill that ends, with the number of file operations after which its write stops. -/
structure Drill (Body Key : Type) where
  id : String
  body : Body
  retention : Int
  secret : Key
  updatedAt : String
  stop : Option Nat
  formed : isReceiptId id = true

def receiptOf (drill : Drill Body Key) (root : Root Body Key) : Receipt Body :=
  let previous := (listReceipts hashes 100000 root).head?.bind fun row => row.1.receiptSha256
  ⟨drill.id, drill.body, previous, hashes.receiptHash drill.id drill.body previous⟩

def kept (drill : Drill Body Key) : Nat := (max 10 drill.retention).toNat

def excess (drill : Drill Body Key) (root : Root Body Key) : List String :=
  ((root.receipts.drop (kept drill)).map Receipt.id).reverse

/-- The file operations of `_write_receipt`, in order. -/
def operations (drill : Drill Body Key) (root : Root Body Key) : List (Root Body Key → Root Body Key) :=
  let receipt := receiptOf hashes drill root
  [putReceipt receipt, putLatest receipt] ++ (excess drill (putReceipt receipt root)).map unlink ++
    [createKey drill.secret, putAnchor hashes drill.updatedAt]

def perform (steps : List (Root Body Key → Root Body Key)) (root : Root Body Key) : Root Body Key :=
  steps.foldl (fun before step => step before) root

/-- `_write_receipt`: whether it returned, and what it left. -/
def writeReceipt (drill : Drill Body Key) (root : Root Body Key) : Bool × Root Body Key :=
  if admitted hashes root then
    match drill.stop with
    | none => (true, perform (operations hashes drill root) root)
    | some count => (false, perform ((operations hashes drill root).take count) root)
  else (false, root)

def run (root : Root Body Key) (drills : List (Drill Body Key)) : Root Body Key :=
  drills.foldl (fun before drill => (writeReceipt hashes drill before).2) root

open List

variable {Body Key : Type} {hashes : Hashes Body Key}

def Linked (rows : List Row) : Prop := ∀ row ∈ chained rows, (row.1.receiptHashValid && row.2) = true

theorem linked_nil : Linked [] := by
  intro row member
  cases member

theorem linked_cons {row : Row} {rows : List Row} : Linked (row :: rows) ↔ row.receiptHashValid = true ∧
      (∀ next ∈ rows.head?, row.previousReceiptSha256 = next.receiptSha256) ∧ Linked rows := by
  cases rows with
  | nil => simp [Linked, chained]
  | cons next rest => simp [Linked, chained, and_assoc]

theorem Linked.take {rows : List Row} (linked : Linked rows) (count : Nat) : Linked (rows.take count) := by
  induction rows generalizing count with
  | nil => rwa [take_nil]
  | cons row rest ih =>
    cases count with
    | zero => exact linked_nil
    | succ count =>
      obtain ⟨valid, names, linked⟩ := linked_cons.mp linked
      rw [take_succ_cons]
      refine linked_cons.mpr ⟨valid, fun next first => names next ?_, ih linked count⟩
      cases rest with
      | nil => simp at first
      | cons head tail =>
        cases count with
        | zero => cases first
        | succ count => exact first

theorem chained_head (rows : List Row) : (chained rows).head?.map Prod.fst = rows.head? := by
  cases rows with
  | nil => rfl
  | cons row rest => cases rest <;> rfl

theorem listReceipts_head (hashes : Hashes Body Key) (root : Root Body Key) :
    (listReceipts hashes 100000 root).head?.map Prod.fst = root.receipts.head?.map (readRow hashes) := by
  unfold listReceipts
  rw [List.head?_take, if_neg (by decide), chained_head, List.head?_map]

theorem insertReceipt_newest {receipt : Receipt Body} {rows : List (Receipt Body)}
    (newest : ∀ row ∈ rows, fileName row.id < fileName receipt.id) :
    insertReceipt receipt rows = receipt :: rows := by
  cases rows with
  | nil => rfl
  | cons row rest => exact if_pos (newest row (.head _))

variable {root : Root Body Key}

theorem putReceipt_newest {receipt : Receipt Body}
    (newest : ∀ row ∈ root.receipts, fileName row.id < fileName receipt.id) :
    putReceipt receipt root = { root with receipts := receipt :: root.receipts } := by
  have others : root.receipts.filter (fun row => row.id ≠ receipt.id) = root.receipts :=
    filter_eq_self.mpr fun row member => decide_eq_true fun same =>
      absurd (newest row member) (by rw [same]; exact lt_irrefl _)
  unfold putReceipt
  rw [others, insertReceipt_newest newest]

theorem perform_append (first second : List (Root Body Key → Root Body Key)) (root : Root Body Key) :
    perform (first ++ second) root = perform second (perform first root) := foldl_append

theorem perform_unlink (ids : List String) (root : Root Body Key) : perform (ids.map unlink) root =
      { root with receipts := root.receipts.filter fun row => row.id ∉ ids } := by
  induction ids generalizing root with
  | nil => simp [perform]
  | cons id rest ih =>
    change perform (rest.map unlink) (unlink id root) = _
    rw [ih]
    simp only [unlink, filter_filter, mem_cons, not_or, decide_not, Bool.decide_and, Bool.and_comm]

/-- Without the rows from a place on, the rows before it are left. -/
theorem filter_drop {rows : List (Receipt Body)} (distinct : (rows.map Receipt.id).Nodup) (count : Nat) :
    rows.filter (fun row => row.id ∉ ((rows.drop count).map Receipt.id).reverse) = rows.take count := by
  have parts := take_append_drop count rows
  have apart : ∀ row ∈ rows.take count, row.id ∉ (rows.drop count).map Receipt.id := by
    rw [← parts, map_append] at distinct
    intro row member listed
    exact (nodup_append.mp distinct).2.2 _ (mem_map_of_mem member) _ listed rfl
  have first : (rows.take count).filter
      (fun row => row.id ∉ ((rows.drop count).map Receipt.id).reverse) = rows.take count :=
    filter_eq_self.mpr fun row member =>
      decide_eq_true fun listed => apart row member (mem_reverse.mp listed)
  have second : (rows.drop count).filter (fun row => row.id ∉ ((rows.drop count).map Receipt.id).reverse) = [] :=
    filter_eq_nil_iff.mpr fun row member kept =>
      of_decide_eq_true kept (mem_reverse.mpr (mem_map_of_mem member))
  conv_lhs => rw [← parts]
  rw [filter_append]
  simp only [parts]
  rw [first, second, append_nil]

structure Good (hashes : Hashes Body Key) (root : Root Body Key) : Prop where
  ordered : root.receipts.Pairwise fun newer older => fileName older.id < fileName newer.id
  linked : Linked (root.receipts.map (readRow hashes))
  anchored : (root.receipts = [] ∧ root.anchor = none) ∨ ∃ key time, root.key = some key ∧
    root.anchor = some (anchorDocument hashes (listReceipts hashes 100000 root) key time)

theorem Good.empty (hashes : Hashes Body Key) : Good hashes (.empty Body Key) :=
  ⟨List.Pairwise.nil, linked_nil, .inl ⟨rfl, rfl⟩⟩

theorem Good.verify (good : Good hashes root) : verifyHistory hashes root = true := by
  have rows : (listReceipts hashes 100000 root).all (fun row => row.1.receiptHashValid && row.2) =
      true := all_eq_true.mpr fun row member => good.linked row (mem_of_mem_take member)
  unfold verifyHistory
  rcases good.anchored with ⟨none_, unanchored⟩ | ⟨key, time, has, anchored⟩
  · have nothing : listReceipts hashes 100000 root = [] := by
      unfold listReceipts
      rw [none_]
      rfl
    rw [unanchored, nothing]
    cases root.key <;> rfl
  · rw [has, anchored]
    have binds : ({ (anchorDocument hashes (listReceipts hashes 100000 root) key time).toAnchorFields with
        updatedAt := "" } : AnchorFields) = anchorFields (listReceipts hashes 100000 root) "" := rfl
    dsimp only
    rw [rows, decide_eq_true binds, Bool.and_true, Bool.and_true]
    exact (Bool.and_eq_true _ _).mpr ⟨hashes.anchorHmac_sha _ _, decide_eq_true rfl⟩

theorem Good.admitted (good : Good hashes root) : admitted hashes root = true := by
  unfold Drills.admitted
  rw [good.verify, Bool.or_true]

/-- The receipt of a drill is valid, and names the newest that is there. -/
theorem receiptOf_linked (good : Good hashes root) (drill : Drill Body Key)
    (fits : 1 ≤ hashes.fileSize (receiptOf hashes drill root) ∧
      hashes.fileSize (receiptOf hashes drill root) ≤ 2 * 1024 * 1024) :
    Linked ((receiptOf hashes drill root :: root.receipts).map (readRow hashes)) := by
  rw [map_cons]
  have reads : readRow hashes (receiptOf hashes drill root) =
      ⟨drill.id, some (receiptOf hashes drill root).receiptSha256, (receiptOf hashes drill root).previousReceiptSha256,
        verifyReceiptDocument hashes (receiptOf hashes drill root)⟩ := if_pos fits
  refine linked_cons.mpr ⟨?_, fun next first => ?_, good.linked⟩
  · rw [reads]
    simp [verifyReceiptDocument, receiptOf, drill.formed, hashes.receiptHash_sha]
  · rw [reads]
    have head := listReceipts_head hashes root
    change (listReceipts hashes 100000 root).head?.bind (fun row => row.1.receiptSha256) = _
    have through : (listReceipts hashes 100000 root).head?.bind (fun row => row.1.receiptSha256) =
        ((listReceipts hashes 100000 root).head?.map Prod.fst).bind Row.receiptSha256 := by
      cases (listReceipts hashes 100000 root).head? <;> rfl
    rw [through, head, ← List.head?_map, show (root.receipts.map (readRow hashes)).head? = some next from first]
    rfl

theorem Good.complete (good : Good hashes root) {drill : Drill Body Key}
    (newest : ∀ row ∈ root.receipts, fileName row.id < fileName drill.id)
    (fits : 1 ≤ hashes.fileSize (receiptOf hashes drill root) ∧
      hashes.fileSize (receiptOf hashes drill root) ≤ 2 * 1024 * 1024) :
    Good hashes (perform (operations hashes drill root) root) ∧
      (perform (operations hashes drill root) root).receipts.head? = some (receiptOf hashes drill root) := by
  have put : putReceipt (receiptOf hashes drill root) root = { root with
      receipts := receiptOf hashes drill root :: root.receipts } := putReceipt_newest newest
  have ordered : (receiptOf hashes drill root :: root.receipts).Pairwise
      fun newer older => fileName older.id < fileName newer.id :=
    pairwise_cons.mpr ⟨newest, good.ordered⟩
  have distinct : ((receiptOf hashes drill root :: root.receipts).map Receipt.id).Nodup := by
    refine pairwise_map.mpr (ordered.imp fun earlier same => ?_)
    rw [same] at earlier
    exact lt_irrefl _ earlier
  have begun : perform [putReceipt (receiptOf hashes drill root),
      putLatest (receiptOf hashes drill root)] root = { root with
        latest := some (receiptOf hashes drill root)
        receipts := receiptOf hashes drill root :: root.receipts } := by
    change putLatest _ (putReceipt (receiptOf hashes drill root) root) = _
    rw [put]
    rfl
  have done : perform (operations hashes drill root) root =
      putAnchor hashes drill.updatedAt (createKey drill.secret { root with
        latest := some (receiptOf hashes drill root)
        receipts := (receiptOf hashes drill root :: root.receipts).take (kept drill) }) := by
    unfold operations
    rw [perform_append, perform_append, begun, perform_unlink, put]
    change putAnchor hashes drill.updatedAt (createKey drill.secret { root with
      latest := some (receiptOf hashes drill root)
      receipts := (receiptOf hashes drill root :: root.receipts).filter fun row =>
        row.id ∉ (((receiptOf hashes drill root :: root.receipts).drop (kept drill)).map Receipt.id).reverse }) = _
    rw [filter_drop distinct]
  obtain ⟨count, positive⟩ : ∃ count, kept drill = count + 1 :=
    Nat.exists_eq_succ_of_ne_zero (by unfold kept; omega)
  have linked := (receiptOf_linked good drill fits).take (kept drill)
  rw [← map_take] at linked
  rw [done]
  refine ⟨⟨ordered.sublist (take_sublist _ _), linked, .inr ⟨root.key.getD drill.secret,
    drill.updatedAt, rfl, rfl⟩⟩, ?_⟩
  change ((receiptOf hashes drill root :: root.receipts).take (kept drill)).head? = _
  rw [positive]
  rfl

/-- A write meets a directory of older receipts, its file fits, and it is stopped before its first
operation or after its last, if at all. -/
structure Orderly (hashes : Hashes Body Key) (root : Root Body Key) (drill : Drill Body Key) : Prop where
  newest : ∀ row ∈ root.receipts, fileName row.id < fileName drill.id
  fits : 1 ≤ hashes.fileSize (receiptOf hashes drill root) ∧
    hashes.fileSize (receiptOf hashes drill root) ≤ 2 * 1024 * 1024
  undisturbed : ∀ count ∈ drill.stop, count = 0 ∨ (operations hashes drill root).length ≤ count

def OrderlyThroughout (hashes : Hashes Body Key) (drills : List (Drill Body Key)) : Prop :=
  ∀ before drill after, drills = before ++ drill :: after →
    Orderly hashes (run hashes (.empty Body Key) before) drill

theorem Good.write (good : Good hashes root) {drill : Drill Body Key} (orderly : Orderly hashes root drill) :
    Good hashes (writeReceipt hashes drill root).2 ∧ ((writeReceipt hashes drill root).1 = true →
        ((listReceipts hashes 100000 (writeReceipt hashes drill root).2).head?.map fun row =>
          row.1.id) = some drill.id) := by
  obtain ⟨complete, head⟩ := good.complete orderly.newest orderly.fits
  have listed : ((listReceipts hashes 100000
      (perform (operations hashes drill root) root)).head?.map fun row => row.1.id) = some drill.id := by
    have first := congrArg (Option.map Row.id) (listReceipts_head hashes (perform (operations hashes drill root) root))
    rw [Option.map_map] at first
    refine Eq.trans ?_ (first.trans ?_)
    · rfl
    · rw [head]
      simp only [Option.map_some, readRow, if_pos orderly.fits]
      rfl
  unfold writeReceipt
  rw [if_pos good.admitted]
  cases stops : drill.stop with
  | none => exact ⟨complete, fun _ => listed⟩
  | some count =>
    refine ⟨?_, fun impossible => absurd impossible Bool.false_ne_true⟩
    rcases orderly.undisturbed count stops with rfl | whole
    · exact good
    · dsimp only
      rw [take_of_length_le whole]
      exact complete

theorem run_good {drills : List (Drill Body Key)} (orderly : OrderlyThroughout hashes drills) :
    Good hashes (run hashes (.empty Body Key) drills) := by
  induction drills using List.reverseRecOn with
  | nil => exact Good.empty hashes
  | append_singleton earlier drill ih =>
    have good := ih fun before other after parts =>
      orderly before other (after ++ [drill]) (by rw [parts]; simp)
    have last : run hashes (.empty Body Key) (earlier ++ [drill]) =
        (writeReceipt hashes drill (run hashes (.empty Body Key) earlier)).2 := by
      rw [run, foldl_append]
      rfl
    rw [last]
    exact (good.write (orderly earlier drill [] rfl)).1

/-- Where every write is orderly, each one that returned leaves a history that verifies and lists its
receipt first, and the next receipt is always admitted. -/
theorem drills_stay_admitted (hashes : Hashes Body Key) (drills : List (Drill Body Key))
    (orderly : OrderlyThroughout hashes drills) :
    (∀ before drill after, drills = before ++ drill :: after →
      (writeReceipt hashes drill (run hashes (.empty Body Key) before)).1 = true →
        verifyHistory hashes (writeReceipt hashes drill (run hashes (.empty Body Key) before)).2 = true ∧
          ((listReceipts hashes 100000 (writeReceipt hashes drill
            (run hashes (.empty Body Key) before)).2).head?.map fun row => row.1.id) = some drill.id) ∧
    ∀ before after, drills = before ++ after → admitted hashes (run hashes (.empty Body Key) before) = true := by
  have good : ∀ before after, drills = before ++ after →
      Good hashes (run hashes (.empty Body Key) before) := fun before after parts =>
    run_good fun first drill rest inside =>
      orderly first drill (rest ++ after) (by rw [parts, inside]; simp)
  refine ⟨fun before drill after parts returned => ?_, fun before after parts =>
    (good before after parts).admitted⟩
  obtain ⟨kept_, listed⟩ := (good before _ parts).write (orderly before drill after parts)
  exact ⟨kept_.verify, listed returned⟩

def plainHashes : Hashes Bool Unit where
  receiptHash _ body _ := String.ofList (List.replicate 63 '0' ++ [if body then '1' else '0'])
  anchorHmac _ _ := String.ofList (List.replicate 64 'a')
  fileSize _ := 100
  receiptHash_sha _ body _ := by cases body <;> decide
  anchorHmac_sha _ _ := by decide

def firstDrill : Drill Bool Unit :=
  ⟨"20260101T000000Z-aaaaaaaaaaaa", true, 10, (), "2026-01-01T00:00:01Z", none, by decide⟩

def quickDrill : Drill Bool Unit :=
  ⟨"20260101T000000Z-000000000000", false, 10, (), "2026-01-01T00:00:02Z", none, by decide⟩

def laterDrill : Drill Bool Unit :=
  ⟨"20260101T000100Z-000000000000", false, 10, (), "2026-01-01T00:01:01Z", none, by decide⟩

/-- The second drill of a second returns and leaves a history that does not verify, and a first drill
that is killed after its receipt leaves one that has no anchor: no later receipt is admitted. -/
theorem quick_drill_blocks :
    ((writeReceipt plainHashes quickDrill (run plainHashes (.empty Bool Unit) [firstDrill])).1 = true ∧
      verifyHistory plainHashes (run plainHashes (.empty Bool Unit) [firstDrill, quickDrill]) = false ∧
      admitted plainHashes (run plainHashes (.empty Bool Unit) [firstDrill, quickDrill]) = false) ∧
    admitted plainHashes (run plainHashes (.empty Bool Unit) [{ firstDrill with stop := some 1 }]) =
      false := by
  decide

theorem drills_stay_admitted_later :
    admitted plainHashes (run plainHashes (.empty Bool Unit) [firstDrill, laterDrill]) = true := by
  refine (drills_stay_admitted plainHashes [firstDrill, laterDrill] ?_).2 [firstDrill, laterDrill] [] rfl
  intro before drill after parts
  rcases before with - | ⟨first, - | ⟨second, rest⟩⟩
  · obtain ⟨rfl, -⟩ := List.cons.inj parts
    exact ⟨fun row member => absurd member not_mem_nil, by decide, by decide⟩
  · obtain ⟨rfl, later⟩ := List.cons.inj parts
    obtain ⟨rfl, -⟩ := List.cons.inj later
    exact ⟨by decide, by decide, by decide⟩
  · obtain ⟨-, later⟩ := List.cons.inj parts
    obtain ⟨-, last⟩ := List.cons.inj later
    cases rest <;> cases last

end Dash.Drills
