import Dash.Audit.Store
import Dash.Foundation.Chain
import Dash.Foundation.Table

/-! What the parts of an append do to a ledger whose rows are linked, and what is left of one that fails.

A row is linked if it has the next sequence number, names the code of the row before it, and
carries the digest of its text and its own code. Before the commit a failure rolls the database back;
after it the row stays, with the anchor of the row before it until the anchor file is replaced.
-/

set_option autoImplicit false

namespace Dash.Audit

open Dash.Python Dash.Foundation List

variable {F : Type}

def eventDocument (sequence : Int) (eventSha256 previousHmacSha256 : String) : Document :=
  .object [("eventSha256", .str eventSha256), ("previousHmacSha256", .str previousHmacSha256),
    ("schemaVersion", .int SCHEMA_VERSION), ("sequence", .int sequence)]

def headDocument (sequence : Int) (headHmacSha256 updatedAt : String) : Document :=
  .object [("headHmacSha256", .str headHmacSha256), ("schemaVersion", .int SCHEMA_VERSION),
    ("sequence", .int sequence), ("updatedAt", .str updatedAt)]

def anchorDocument (sequence : Int) (headHmacSha256 updatedAt digest : String) : Document :=
  .object [("anchorHmacSha256", .str digest), ("headHmacSha256", .str headHmacSha256),
    ("schemaVersion", .int SCHEMA_VERSION), ("sequence", .int sequence),
    ("updatedAt", .str updatedAt)]

def anchorValue (sequence : Int) (headHmacSha256 updatedAt digest : String) : Value F :=
  .object [("anchorHmacSha256", .str digest), ("headHmacSha256", .str headHmacSha256),
    ("schemaVersion", .int SCHEMA_VERSION), ("sequence", .int sequence),
    ("updatedAt", .str updatedAt)]

theorem zero_digest : isDigest ZERO_HMAC = true := by decide

theorem digest_ascii {text : String} (digest : isDigest text = true) :
    text.toList.all (fun char => decide (char.toNat < 128)) = true := by
  simp only [isDigest, isHex, Bool.and_eq_true] at digest
  rw [all_eq_true] at digest ⊢
  intro char member
  have hex := digest.2 char member
  simp only [isHexDigit, Bool.or_eq_true, decide_eq_true_eq, Char.le_def] at hex ⊢
  rcases hex with ⟨_, small⟩ | ⟨_, small⟩
  · exact lt_of_le_of_lt (UInt32.le_iff_toNat_le.mp small) (by decide)
  · exact lt_of_le_of_lt (UInt32.le_iff_toNat_le.mp small) (by decide)

theorem compareDigest_str {text other : String} (first : isDigest text = true) (second : isDigest other = true) :
    compareDigest text (.str other : Value F) = .ok (decide (text = other)) := by
  rw [compareDigest, digest_ascii first, digest_ascii second]
  rfl

namespace Platform

variable (rt : Platform F)

theorem eventHmac_eq (sequence : Int) (sha previous : String) : rt.eventHmac sequence sha previous =
      .ok (rt.mac (String.ofList ((eventDocument sequence sha previous).text false))) := by
  simp [eventHmac, canonical, Runtime.dumps, Value.object, Runtime.jsonable,
    Runtime.jsonableEntries, sortable, Key.isStr, Runtime.sortEntries, List.insertionSort,
    Runtime.keyLe, Runtime.keyText, Except.map]
  rfl

theorem anchorHmac_eq (sequence : Int) (head updatedAt : String) : rt.anchorHmac sequence (.str head) (.str updatedAt) =
      .ok (rt.mac (String.ofList ((headDocument sequence head updatedAt).text false))) := by
  simp [anchorHmac, canonical, Runtime.dumps, Value.object, Runtime.jsonable,
    Runtime.jsonableEntries, sortable, Key.isStr, Runtime.sortEntries, List.insertionSort,
    Runtime.keyLe, Runtime.keyText, Except.map]
  rfl

theorem anchorText_eq (sequence : Int) (head updatedAt : String) :
    rt.anchorText sequence head updatedAt = .ok (String.ofList ((anchorDocument sequence head
      updatedAt (rt.mac (String.ofList ((headDocument sequence head updatedAt).text false)))).text true) ++ "\n") := by
  rw [anchorText, anchorHmac_eq]
  simp [Runtime.dumps, Value.object, Runtime.jsonable, Runtime.jsonableEntries, sortable,
    Key.isStr, Runtime.sortEntries, List.insertionSort, Runtime.keyLe, Runtime.keyText, Except.map]
  rfl

/-- The anchor of the ledger is authentic and names this sequence number and this code. -/
def AnchoredAt (disk : Disk) (sequence : Int) (head : String) : Prop :=
  isDigest head = true ∧ ∃ document, rt.readAnchor disk.anchor = .ok document ∧
    document.get "sequence" = .int sequence ∧ document.get "headHmacSha256" = .str head

variable {rt}

variable (rt)

theorem ofDocument_anchor (sequence : Int) (head updatedAt digest : String) :
    rt.ofDocument (anchorDocument sequence head updatedAt digest) =
      anchorValue sequence head updatedAt digest := by
  rw [anchorDocument, Runtime.ofDocument, dictOf_named]
  · rfl
  · simp [Runtime.ofMembers]

theorem anchoredAt_text {sequence : Int} {head updatedAt text : String} (rows : List Row)
    (whole : 0 ≤ sequence) (digest : isDigest head = true)
    (written : rt.anchorText sequence head updatedAt = .ok text) :
    rt.AnchoredAt ⟨rows, text⟩ sequence head := by
  rw [anchorText_eq] at written
  cases written
  have mine := rt.mac_digest (String.ofList ((headDocument sequence head updatedAt).text false))
  generalize coded : rt.mac (String.ofList ((headDocument sequence head updatedAt).text false)) = code at mine
  have shape : hasKeys anchorFields (anchorValue sequence head updatedAt code : Value F) = true := by
    simp [hasKeys, anchorFields, anchorValue, Value.object, Key.named]
  have version : (anchorValue sequence head updatedAt code : Value F).get "schemaVersion" =
    .int SCHEMA_VERSION := rfl
  have number : (anchorValue sequence head updatedAt code : Value F).get "sequence" = .int sequence := rfl
  have name : (anchorValue sequence head updatedAt code : Value F).get "headHmacSha256" = .str head := rfl
  have time : (anchorValue sequence head updatedAt code : Value F).get "updatedAt" = .str updatedAt := rfl
  have own : (anchorValue sequence head updatedAt code : Value F).get "anchorHmacSha256" = .str code := rfl
  refine ⟨digest, _, ?_, number, name⟩
  simp only [readAnchor, Runtime.loads_line, ofDocument_anchor, shape, version, number, name, time,
    own, Runtime.int, Runtime.str, digest, anchorHmac_eq, coded, compareDigest_str mine mine, bind,
    Except.bind]
  simp [not_lt.mpr whole]

structure Linked (place : String × Int) (row : Row) : Prop where
  sequence : row.sequence = place.2
  previous : row.previousHmacSha256 = place.1
  digest : row.eventSha256 = rt.sha256 row.eventJson
  code : rt.eventHmac row.sequence row.eventSha256 place.1 = .ok row.eventHmacSha256

end Platform

def advance (place : String × Int) (row : Row) : String × Int := (row.eventHmacSha256, place.2 + 1)

def place (rows : List Row) : String × Int := rows.foldl advance (ZERO_HMAC, 1)

theorem place_snd (rows : List Row) : (place rows).2 = rows.length + 1 := by
  have steps : ∀ (start : String × Int), (rows.foldl advance start).2 = start.2 + rows.length := by
    induction rows with
    | nil => simp
    | cons row rest ih =>
      intro start
      rw [foldl_cons, ih]
      simp only [advance, length_cons]
      omega
  rw [place, steps]
  omega

theorem place_concat (rows : List Row) (row : Row) :
    place (rows ++ [row]) = (row.eventHmacSha256, (rows.length : Int) + 2) := by
  have before := place_snd rows
  simp only [place, foldl_append, foldl_cons, foldl_nil, advance, Prod.mk.injEq, true_and] at before ⊢
  omega

theorem place_fst (rows : List Row) : (place rows).1 = (rows.getLast?.map Row.eventHmacSha256).getD ZERO_HMAC := by
  induction rows using List.reverseRecOn with
  | nil => rfl
  | append_singleton rows row => simp [place_concat]

namespace Platform

variable (rt : Platform F)

def Chained (rows : List Row) : Prop := Sound advance rt.Linked (ZERO_HMAC, 1) rows

variable {rt}

variable {rows : List Row} {row : Row}

theorem Chained.concat (chain : rt.Chained rows) (linked : rt.Linked (place rows) row) : rt.Chained (rows ++ [row]) :=
  Sound.concat chain linked

theorem Chained.init (chain : rt.Chained (rows ++ [row])) : rt.Chained rows ∧ rt.Linked (place rows) row := by
  obtain ⟨before, last, -⟩ := Sound.append.mp chain
  exact ⟨before, last⟩

theorem Chained.sequences (chain : rt.Chained rows) :
    rows.map Row.sequence = (List.range rows.length).map fun index : Nat => (index : Int) + 1 := by
  induction rows using List.reverseRecOn with
  | nil => rfl
  | append_singleton rows row ih =>
    obtain ⟨before, linked⟩ := chain.init
    have number := linked.sequence
    rw [place_snd] at number
    rw [map_append, ih before, length_append, length_singleton, range_succ, map_append]
    simp [number]

theorem Chained.last_sequence (chain : rt.Chained rows) : (rows.getLast?.map Row.sequence).getD 0 = rows.length := by
  rcases eq_nil_or_concat' rows with rfl | ⟨rows, row, rfl⟩
  · rfl
  · have number := chain.init.2.sequence
    rw [place_snd] at number
    simp [number]

theorem Chained.code_digest (chain : rt.Chained rows) : isDigest (place rows).1 = true := by
  rcases eq_nil_or_concat' rows with rfl | ⟨rows, row, rfl⟩
  · exact zero_digest
  · have code := chain.init.2.code
    rw [eventHmac_eq] at code
    rw [place_concat, ← Except.ok.inj code]
    exact rt.mac_digest _

variable {sequence : Int} {disk : Disk}

theorem assertHead_iff {head : String} {result : Int × String}
    (chain : rt.Chained disk.rows) (anchored : rt.AnchoredAt disk sequence head) :
    rt.assertHead disk = .ok result ↔ (sequence = disk.rows.length ∧ head = (place disk.rows).1) ∧
        result = ((disk.rows.length : Int), (place disk.rows).1) := by
  obtain ⟨digest, document, read, number, code⟩ := anchored
  have same := compareDigest_str (F := F) chain.code_digest digest
  rw [assertHead, chain.last_sequence, ← place_fst]
  simp only [read, number, code, Runtime.int, bind, Except.bind, same]
  by_cases level : sequence = disk.rows.length
  · by_cases match_ : (place disk.rows).1 = head
    · simp [level, match_, eq_comm]
    · simp [level, match_, Ne.symm match_, runtimeError]
  · simp [level, runtimeError]

variable (rt) in
theorem writeAnchor_ok (row : Row) (updatedAt : String) (disk : Disk) (whole : 0 ≤ row.sequence)
    (digest : isDigest row.eventHmacSha256 = true) :
    ∃ text, rt.writeAnchor row updatedAt disk = .ok ⟨disk.rows, text⟩ ∧
      rt.AnchoredAt ⟨disk.rows, text⟩ row.sequence row.eventHmacSha256 := by
  have written := rt.anchorText_eq row.sequence row.eventHmacSha256 updatedAt
  refine ⟨_, ?_, rt.anchoredAt_text disk.rows whole digest written⟩
  rw [writeAnchor, written]
  rfl

theorem insert_ok (chain : rt.Chained disk.rows) (linked : rt.Linked (place disk.rows) row)
    (fresh : row.eventId ∉ disk.rows.map Row.eventId) :
    disk.insert row = .ok { disk with rows := disk.rows ++ [row] } := by
  rw [Disk.insert, if_neg]
  rintro (taken | taken)
  · have number := linked.sequence
    rw [place_snd] at number
    rw [chain.sequences] at taken
    obtain ⟨index, inside, same⟩ := mem_map.mp taken
    have small := mem_range.mp inside
    omega
  · exact fresh taken

variable (rt)

def nextRow (rows : List Row) (normalized : Normalized F) : Row :=
  ⟨rows.length + 1, normalized.eventId, normalized.occurredAt, normalized.action, normalized.ok,
    normalized.requestId, normalized.encoded, rt.sha256 normalized.encoded, (place rows).1,
    rt.mac (String.ofList ((eventDocument (rows.length + 1) (rt.sha256 normalized.encoded)
      (place rows).1).text false))⟩

theorem linked_nextRow (rows : List Row) (normalized : Normalized F) :
    rt.Linked (place rows) (rt.nextRow rows normalized) :=
  ⟨(place_snd rows).symm, rfl, rfl, rt.eventHmac_eq _ _ _⟩

variable {rt}

theorem admit_iff {head : String} {event : Value F}
    {verifyChain : Bool} {admission : Admission} (chain : rt.Chained disk.rows)
    (anchored : rt.AnchoredAt disk sequence head) :
    rt.admitEvent event verifyChain disk = .ok admission ↔ ∃ normalized, rt.normalizeEvent event = .ok normalized ∧
        (verifyChain = true → ∃ result, rt.verify disk = .ok result) ∧
        (sequence = disk.rows.length ∧ head = (place disk.rows).1) ∧
        rt.lookup normalized disk.rows.length (place disk.rows).1 disk.rows = .ok admission := by
  have found (normalized : Normalized F) : (rt.assertHead disk >>= fun result =>
      rt.lookup normalized result.1 result.2 disk.rows) = .ok admission ↔
      (sequence = disk.rows.length ∧ head = (place disk.rows).1) ∧
        rt.lookup normalized disk.rows.length (place disk.rows).1 disk.rows = .ok admission := by
    rw [result_bind]
    constructor
    · rintro ⟨result, checked, rest⟩
      obtain ⟨level, rfl⟩ := (assertHead_iff chain anchored).mp checked
      exact ⟨level, rest⟩
    · rintro ⟨level, rest⟩
      exact ⟨_, (assertHead_iff chain anchored).mpr ⟨level, rfl⟩, rest⟩
  rw [admitEvent, result_bind]
  refine exists_congr fun normalized => and_congr_right fun _ => ?_
  cases verifyChain with
  | false => simpa using found normalized
  | true =>
    rw [if_pos rfl, result_bind, found normalized]
    simp

variable {normalized : Normalized F}

theorem lookup_known {previous : String} (found : rt.lookup normalized sequence previous rows = .ok (.known row)) :
    row ∈ rows ∧ row.eventId = normalized.eventId ∧ row.eventSha256 = rt.sha256 normalized.encoded := by
  rw [lookup] at found
  split at found
  next existing selected =>
    obtain ⟨same, rest⟩ := runtimeError_guard.mp found
    cases rest
    exact ⟨List.mem_of_find?_eq_some selected, by simpa using List.find?_some selected, not_not.mp same⟩
  next =>
    rw [eventHmac_eq] at found
    cases found

theorem lookup_text {previous : String} (found : rt.lookup normalized sequence previous rows = .ok (.fresh row)) :
    row.eventJson = normalized.encoded := by
  rw [lookup] at found
  split at found
  next =>
    obtain ⟨-, rest⟩ := runtimeError_guard.mp found
    cases rest
  next =>
    rw [eventHmac_eq] at found
    cases found
    rfl

theorem lookup_fresh (found : rt.lookup normalized rows.length (place rows).1 rows = .ok (.fresh row)) :
    row = rt.nextRow rows normalized ∧ row.eventId ∉ rows.map Row.eventId := by
  rw [lookup] at found
  split at found
  next =>
    obtain ⟨-, rest⟩ := runtimeError_guard.mp found
    cases rest
  next missing =>
    rw [eventHmac_eq] at found
    cases found
    exact ⟨rfl, Table.find_none.mp missing⟩

theorem lookup_new (absent : normalized.eventId ∉ rows.map Row.eventId) :
    rt.lookup normalized rows.length (place rows).1 rows = .ok (.fresh (rt.nextRow rows normalized)) := by
  have missing : (rows.find? fun row => row.eventId = normalized.eventId) = none := Table.find_none.mpr absent
  rw [lookup, missing]
  simp only [eventHmac_eq]
  rfl

end Platform

/-- A file or database operation that raises. -/
inductive Fault where
  | never
  /-- Before the commit, or in it. -/
  | early (why : Exception)
  /-- After the commit, before the anchor is replaced. -/
  | between (why : Exception)
  /-- After the anchor was replaced. -/
  | late (why : Exception)

structure Call (F : Type) where
  event : Value F
  verifyChain : Bool
  updatedAt : String
  fault : Fault

namespace Platform

variable (rt : Platform F)

/-- `append` from the insertion on. -/
def finish (row : Row) (updatedAt : String) (fault : Fault) (disk : Disk) : Result Receipt × Disk :=
  match disk.insert row with
  | .error why => (.error why, disk)
  | .ok committed =>
    match fault with
    | .between why => (.error why, committed)
    | _ =>
      match rt.writeAnchor row updatedAt committed with
      | .error why => (.error why, committed)
      | .ok anchored =>
        match fault with
        | .late why => (.error why, anchored)
        | _ => (.ok (.inserted row), anchored)

/-- `append`: what it returns or raises, and the ledger it leaves. -/
def append (call : Call F) (disk : Disk) : Result Receipt × Disk :=
  match call.fault with
  | .early why => (.error why, disk)
  | fault =>
    match rt.admitEvent call.event call.verifyChain disk with
    | .error why => (.error why, disk)
    | .ok (.known row) => (.ok (.existing row), disk)
    | .ok (.fresh row) => rt.finish row call.updatedAt fault disk

def ledger (disk : Disk) (calls : List (Call F)) : Disk :=
  calls.foldl (fun disk call => (rt.append call disk).2) disk

theorem ledger_concat (disk : Disk) (calls : List (Call F)) (call : Call F) :
    rt.ledger disk (calls ++ [call]) = (rt.append call (rt.ledger disk calls)).2 := by
  rw [ledger, List.foldl_append]
  rfl

structure Level (disk : Disk) : Prop where
  chain : rt.Chained disk.rows
  anchored : rt.AnchoredAt disk disk.rows.length (place disk.rows).1

variable {rt}

theorem Level.opened {updatedAt text : String}
    (written : rt.anchorText 0 ZERO_HMAC updatedAt = .ok text) : rt.Level ⟨[], text⟩ :=
  ⟨trivial, rt.anchoredAt_text [] le_rfl zero_digest written⟩

theorem Level.next {disk : Disk} (level : rt.Level disk) (normalized : Normalized F) (updatedAt : String) :
    ∃ text, rt.writeAnchor (rt.nextRow disk.rows normalized) updatedAt
        { disk with rows := disk.rows ++ [rt.nextRow disk.rows normalized] } =
          .ok ⟨disk.rows ++ [rt.nextRow disk.rows normalized], text⟩ ∧
      rt.Level ⟨disk.rows ++ [rt.nextRow disk.rows normalized], text⟩ := by
  have whole : 0 ≤ (rt.nextRow disk.rows normalized).sequence := by
    simp only [nextRow]
    omega
  obtain ⟨text, wrote, anchored⟩ := writeAnchor_ok rt (rt.nextRow disk.rows normalized) updatedAt
    { disk with rows := disk.rows ++ [rt.nextRow disk.rows normalized] } whole
    (rt.mac_digest _)
  refine ⟨text, wrote, level.chain.concat (rt.linked_nextRow _ _), ?_⟩
  rw [place_concat, List.length_append, List.length_singleton]
  exact_mod_cast anchored

/-- What an append to a level ledger comes to. -/
inductive Outcome (rt : Platform F) (call : Call F) (disk : Disk) : Result Receipt × Disk → Prop
  | refused (why : Exception) : Outcome rt call disk (.error why, disk)
  | known (normalized : Normalized F) (row : Row)
      (accepted : rt.normalizeEvent call.event = .ok normalized) (member : row ∈ disk.rows)
      (same : row.eventId = normalized.eventId)
      (digest : row.eventSha256 = rt.sha256 normalized.encoded) :
      Outcome rt call disk (.ok (.existing row), disk)
  | stranded (why : Exception) (normalized : Normalized F) (at_ : call.fault = .between why)
      (accepted : rt.normalizeEvent call.event = .ok normalized)
      (fresh : normalized.eventId ∉ disk.rows.map Row.eventId) :
      Outcome rt call disk (.error why, { disk with rows := disk.rows ++ [rt.nextRow disk.rows normalized] })
  | added (outcome : Result Receipt) (text : String) (normalized : Normalized F)
      (accepted : rt.normalizeEvent call.event = .ok normalized)
      (fresh : normalized.eventId ∉ disk.rows.map Row.eventId)
      (returned : ∀ receipt, outcome = .ok receipt → receipt = .inserted (rt.nextRow disk.rows normalized))
      (level : rt.Level ⟨disk.rows ++ [rt.nextRow disk.rows normalized], text⟩) :
      Outcome rt call disk (outcome, ⟨disk.rows ++ [rt.nextRow disk.rows normalized], text⟩)

theorem finish_outcome {call : Call F} {disk : Disk} (level : rt.Level disk)
    {normalized : Normalized F} (accepted : rt.normalizeEvent call.event = .ok normalized)
    (fresh : normalized.eventId ∉ disk.rows.map Row.eventId) :
    Outcome rt call disk (rt.finish (rt.nextRow disk.rows normalized) call.updatedAt call.fault disk) := by
  obtain ⟨text, wrote, next⟩ := level.next normalized call.updatedAt
  rw [finish, insert_ok level.chain (rt.linked_nextRow _ _) fresh]
  cases fault : call.fault with
  | between why => exact .stranded why normalized fault accepted fresh
  | late why =>
    simp only [wrote]
    exact .added _ text normalized accepted fresh (fun _ impossible => nomatch impossible) next
  | never =>
    simp only [wrote]
    exact .added _ text normalized accepted fresh (fun _ same => (Except.ok.inj same).symm) next
  | early why =>
    simp only [wrote]
    exact .added _ text normalized accepted fresh (fun _ same => (Except.ok.inj same).symm) next

theorem append_outcome {call : Call F} {disk : Disk} (level : rt.Level disk) :
    Outcome rt call disk (rt.append call disk) := by
  have admitted : Outcome rt call disk (match rt.admitEvent call.event call.verifyChain disk with
      | .error why => (.error why, disk)
      | .ok (.known row) => (.ok (.existing row), disk)
      | .ok (.fresh row) => rt.finish row call.updatedAt call.fault disk) := by
    cases found : rt.admitEvent call.event call.verifyChain disk with
    | error why => exact .refused why
    | ok admission =>
      obtain ⟨normalized, accepted, -, -, looked⟩ := (admit_iff level.chain level.anchored).mp found
      cases admission with
      | known row =>
        obtain ⟨member, same, digest⟩ := lookup_known looked
        exact .known normalized row accepted member same digest
      | fresh row =>
        obtain ⟨rfl, fresh⟩ := lookup_fresh looked
        exact finish_outcome level accepted fresh
  rw [append]
  split
  next why _ => exact .refused why
  next => exact admitted

end Platform

end Dash.Audit
