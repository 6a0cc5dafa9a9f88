import Dash.Foundation.Table
import Dash.Intelligence.Ledger
import Dash.Python.Plain
import Dash.Python.Reencoding

/-! The ledger with its signatures: every column of an event, what is signed of it, and how the chain is verified.
A batch inserts what single calls insert: the first event of every source that the ledger does not have.

A column of type REAL gives a float back as it was bound, but for negative zero, which it gives back as zero; a
float that is not a number is bound as NULL.
-/

set_option autoImplicit false

namespace Dash.Intelligence

open Dash.Python Dash.Foundation

def Kind.text : Kind → String
  | .change => "change"
  | .incidentOpen => "incident-open"
  | .incidentResolved => "incident-resolved"
  | .evidence => "evidence"
  | .observation => "observation"

/-- What `classify` answers. -/
structure Classification where
  pattern : String
  kind : Kind
  (category impact : String)

structure Signer (F : Type) extends Sanitizer F where
  fnmatch : String → String → Bool
  sha256 : String → String
  /-- `time.time()` -/
  clock : F
  /-- `float(value)`; an integer that is too large raises. -/
  floatOfInt : Int → Result F
  /-- `datetime.fromisoformat(text).timestamp()` -/
  timestamp : String → Result F
  /-- `_iso`; a time out of the calendar's range raises. -/
  iso : F → Result String
  rules : List Classification
  (maxEvents historyImportLimit : Nat)

structure Details (F : Type) where
  ingested : F
  classification : Classification
  ok : Bool
  columns : Columns F

structure Row (F : Type) where
  id : String
  (occurredAt ingestedAt : F)
  action : String
  kind : Kind
  (category impact : String)
  ok : Bool
  actor : Option String
  (source sourceFingerprint : String)
  incidentKey : Option String
  (scopeJson dataJson : String)
  previousSignature : Option String
  signature : String

def Row.isChange {F : Type} (row : Row F) : Bool := row.kind = .change

abbrev Rows (F : Type) : Type := List (Row F)

abbrev Work (F α : Type) : Type := Transaction (Rows F) Exception α

/-- What `record_many` answers. -/
structure Imported where
  inserted : List String
  duplicates : Nat

variable {F : Type}

/-- `None` or a text -/
def optional : Option String → Value F
  | none => .none
  | some text => .str text

/-- The document of a row, with its times, scope and data. -/
def Row.document (row : Row F) (occurredAt ingestedAt : F) (scope data : Value F) : Value F :=
  .object [("id", .str row.id), ("occurredAt", .float occurredAt), ("ingestedAt", .float ingestedAt),
    ("action", .str row.action), ("kind", .str row.kind.text), ("category", .str row.category),
    ("impact", .str row.impact), ("ok", .bool row.ok), ("actor", optional row.actor), ("source", .str row.source),
    ("sourceFingerprint", .str row.sourceFingerprint), ("incidentKey", optional row.incidentKey),
    ("isChange", .bool row.isChange), ("scope", scope), ("data", data),
    ("previousSignature", optional row.previousSignature)]

def minusZero : FloatText := .decimal true 0 (.fraction digitZero)

def plusZero : FloatText := .decimal false 0 (.fraction digitZero)

namespace Signer

variable (rt : Signer F)

def epoch : Value F → Result F
  | .none => .ok rt.clock
  | .bool value => rt.floatOfInt (if value then 1 else 0)
  | .int value => rt.floatOfInt value
  | .float value => .ok value
  | value =>
    let text := strip (rt.str value)
    rt.timestamp (if text.toList.getLast? = some 'Z' then String.ofList text.toList.dropLast ++ "+00:00" else text)

def classify (action : String) (event : Value F) : Classification :=
  match rt.rules.find? fun rule => rt.fnmatch action rule.pattern with
  | some rule => rule
  | none =>
    let method := rt.upper (rt.str (rt.orElse (event.get "method") (.str "")))
    if method ∈ ["POST", "PUT", "PATCH", "DELETE"] then ⟨"<write-method>", .change, "administration", "medium"⟩
    else ⟨"<default>", .observation, "operations", "info"⟩

def okOf (event : Value F) : Bool := rt.truthy (getOr event "ok" (.bool true))

/-- The ledger that stores all columns. -/
def ledger : Platform F F (Details F) where
  toRuntime := rt.toRuntime
  fnmatch := rt.fnmatch
  sha256 := rt.sha256
  mac := rt.hmacValue
  epoch := rt.epoch
  details event source ingested := (rt.columns event source).map fun columns =>
    ⟨ingested, rt.classify (rt.actionOf event) event, rt.okOf event, columns⟩
  iso := rt.iso
  rules := rt.rules.map fun rule => ⟨rule.pattern, rule.kind⟩
  maxEvents := rt.maxEvents
  historyImportLimit := rt.historyImportLimit
  statusEventLimit := 0

abbrev Draft (F : Type) : Type := Prepared F (Details F)

def sign (document : Value F) : Result String := (rt.dumps true document).map rt.hmacValue

def rowOf (draft : Draft F) (scopeJson : String) (previous : Option String) : Row F where
  id := draft.eventId
  occurredAt := draft.occurred
  ingestedAt := draft.details.ingested
  action := draft.action
  kind := draft.kind
  category := draft.details.classification.category
  impact := draft.details.classification.impact
  ok := draft.details.ok
  actor := draft.details.columns.actor
  source := draft.details.columns.source
  sourceFingerprint := draft.sourceFingerprint
  incidentKey := draft.key
  scopeJson := scopeJson
  dataJson := draft.details.columns.encoded
  previousSignature := previous
  signature := ""

def scopeOfDraft (draft : Draft F) : Value F := .list (draft.details.columns.scope.map Value.str)

def isNull (value : F) : Bool := rt.floatText value = .nan

/-- `_insert_prepared`, which answers the signature. -/
def insertPrepared (draft : Draft F) (previous : Option String) : Work F String := do
  let scopeJson ← Transaction.lift (rt.dumps true (scopeOfDraft draft))
  let row := rowOf draft scopeJson previous
  let signature ← Transaction.lift
    (rt.sign (row.document draft.occurred draft.details.ingested (scopeOfDraft draft) draft.details.columns.data))
  Transaction.check (!rt.isNull draft.occurred && !rt.isNull draft.details.ingested)
    ⟨.integrityError, "NOT NULL constraint failed: events"⟩
  let rows ← Transaction.read id
  Transaction.check (draft.eventId ∉ rows.map Row.id ∧ draft.sourceFingerprint ∉ rows.map Row.sourceFingerprint)
    ⟨.integrityError, "UNIQUE constraint failed: events"⟩
  Transaction.write fun rows => rows ++ [{ row with signature := signature }]
  let _ ← Transaction.lift (rt.iso draft.occurred)
  pure signature

def tooMany : Exception :=
  ⟨.runtimeError, "change-intelligence maxEvents reached; archive and rotate the ledger"⟩

def lastSignature (rows : Rows F) : Option String := rows.getLast?.map Row.signature

/-- The transaction of `record`, of an event that was prepared. -/
def insertNew (draft : Draft F) : Work F Unit := do
  let rows ← Transaction.read id
  if draft.sourceFingerprint ∈ rows.map Row.sourceFingerprint then pure ()
  else if rt.maxEvents ≤ rows.length then Transaction.raise tooMany
  else do
    let _ ← rt.insertPrepared draft (lastSignature rows)
    pure ()

def record (rawEvent : Value F) (source : String) (ingestedAt : Value F) (eventId : String) : Work F Unit := do
  let draft ← Transaction.lift (rt.ledger.prepare rawEvent source ingestedAt eventId)
  rt.insertNew draft

/-- The second loop of `record_many`, which keeps the fingerprints it knows, the head of the chain and the count. -/
def insertMany : List (Draft F) → List String → Option String → Nat → Work F Imported
  | [], _, _, _ => pure ⟨[], 0⟩
  | draft :: rest, known, previous, count =>
    if draft.sourceFingerprint ∈ known then do
      let imported ← insertMany rest known previous count
      pure { imported with duplicates := imported.duplicates + 1 }
    else if rt.maxEvents ≤ count then Transaction.raise tooMany
    else do
      let signature ← rt.insertPrepared draft previous
      let imported ← insertMany rest (draft.sourceFingerprint :: known) (some signature) (count + 1)
      pure { imported with inserted := signature :: imported.inserted }

def recordMany (rawEvents : List (Value F × String)) (source : String) (ingestedAt : Value F)
    (skipInvalid : Bool) : Work F Imported :=
  if rt.historyImportLimit < rawEvents.length then
    Transaction.raise ⟨.valueError, "change-intelligence batch exceeds historyImportLimit"⟩
  else do
    let drafts ← Transaction.lift (rt.ledger.prepareMany source ingestedAt skipInvalid rawEvents)
    let rows ← Transaction.read id
    let known := (drafts.map Prepared.sourceFingerprint).filter fun fingerprint =>
      fingerprint ∈ rows.map Row.sourceFingerprint
    rt.insertMany drafts known (lastSignature rows) rows.length

def readBack (value : F) : F := if rt.floatText value = minusZero then rt.floatOf plusZero else value

/-- `_document`, of a row that was read. -/
def documentOf (row : Row F) : Result (Value F) := do
  let scope ← rt.loads row.scopeJson
  let data ← rt.loads row.dataJson
  .ok (row.document (rt.readBack row.occurredAt) (rt.readBack row.ingestedAt) scope data)

/-- The loop of `_verify_connection`, from a signature on. -/
def verifyFrom : Option String → Rows F → Result Bool
  | _, [] => .ok true
  | previous, row :: rest => do
    let document ← rt.documentOf row
    let signature ← rt.sign document
    let others ← verifyFrom (some row.signature) rest
    .ok (decide (row.previousSignature = previous) && decide (signature = row.signature) && others)

/-- `event_chain_valid` of `_verify_connection` -/
def eventChainValid (rows : Rows F) : Result Bool := rt.verifyFrom none rows

def perform : Call F → Work F Unit
  | .record rawEvent source ingestedAt eventId => rt.record rawEvent source ingestedAt eventId
  | .recordMany rawEvents source ingestedAt skipInvalid => do
    let _ ← rt.recordMany rawEvents source ingestedAt skipInvalid
    pure ()

/-- The ledger after the calls; one that raised changed nothing. -/
def run (calls : List (Call F)) : Rows F :=
  calls.foldl (fun rows call => (rt.perform call).commit rows) []

end Signer

open List
open Foundation.Transaction (bind_ok check_bind commit_ok lift_bind pure_ok raise_ok read_bind write_bind)

theorem plainEntries_iff {entries : List (Key F × Value F)} :
    PlainEntries entries ↔ ∀ entry ∈ entries, entry.2.Plain := by
  induction entries with
  | nil => exact ⟨fun _ _ impossible => (nomatch impossible), fun _ => trivial⟩
  | cons entry rest ih =>
    rw [forall_mem_cons, ← ih]
    exact Iff.rfl

theorem insertEntry_plain {entries : List (Key F × Value F)} {pair : String × Value F}
    (plain : (Value.dict entries).Plain) (item : pair.2.Plain) : (Value.dict (insertEntry entries pair)).Plain := by
  obtain ⟨strings, distinct, items⟩ := plain
  rw [plainEntries_iff] at items
  rw [insertEntry]
  split
  · have keys : (entries.map fun entry => if entry.1.named pair.1 then (entry.1, pair.2) else entry).map Prod.fst =
        entries.map Prod.fst := by
      rw [map_map]
      refine map_congr_left fun entry _ => ?_
      by_cases same : entry.1.named pair.1 = true <;> simp [same]
    refine ⟨fun entry member => ?_, keys ▸ distinct, plainEntries_iff.mpr fun entry member => ?_⟩
    · obtain ⟨old, there, same⟩ := mem_map.mp (keys ▸ mem_map_of_mem (f := Prod.fst) member)
      exact same ▸ strings old there
    · obtain ⟨old, there, rfl⟩ := mem_map.mp member
      split
      · exact item
      · exact items old there
  · next absent =>
    have fresh : (Key.str pair.1 : Key F) ∉ entries.map Prod.fst := by
      intro known
      obtain ⟨entry, there, same⟩ := mem_map.mp known
      refine absent (any_eq_true.mpr ⟨entry, there, ?_⟩)
      rw [same]
      exact decide_eq_true rfl
    refine ⟨fun entry member => ?_, ?_, plainEntries_iff.mpr fun entry member => ?_⟩
    · rcases mem_append.mp member with old | new
      · exact strings entry old
      · rw [mem_singleton.mp new]
        rfl
    · rw [map_append]
      exact nodup_append.mpr ⟨distinct, nodup_singleton _, fun key old other new same =>
        fresh (by rwa [same, mem_singleton.mp new] at old)⟩
    · rcases mem_append.mp member with old | new
      · exact items entry old
      · rw [mem_singleton.mp new]
        exact item

theorem dictOf_plain {pairs : List (String × Value F)} (plain : ∀ pair ∈ pairs, pair.2.Plain) :
    (Value.dict (dictOf pairs)).Plain := by
  induction pairs using List.reverseRecOn with
  | nil => exact ⟨fun _ impossible => (nomatch impossible), nodup_nil, trivial⟩
  | append_singleton pairs pair ih =>
    rw [dictOf, foldl_append, ← dictOf]
    refine insertEntry_plain (ih fun other member => plain other (mem_append_left _ member)) ?_
    exact plain pair (mem_append_right _ (mem_singleton_self _))

namespace Sanitizer

variable (rt : Sanitizer F)

theorem guarded_plain {key : String} {depth : Nat} {passed : Value F} (plain : passed.Plain) :
    (guarded key depth passed).Plain := by
  unfold guarded
  split
  · trivial
  · split
    · trivial
    · exact plain

mutual
/-- What is stored of a payload has string keys. -/
theorem sanitize_plain : ∀ (value : Value F) (key : String) (depth : Nat), (rt.sanitize key depth value).Plain
  | .dict entries, key, depth => by
    rw [sanitize]
    exact guarded_plain (dictOf_plain (sanitizeEntries_plain entries (depth + 1) 64))
  | .list items, key, depth => by
    rw [sanitize]
    exact guarded_plain (sanitizeItems_plain items key (depth + 1) 32)
  | .str text, key, depth => by
    rw [sanitize]
    exact guarded_plain trivial
  | .none, key, depth => by
    rw [sanitize]
    exact guarded_plain trivial
  | .bool value, key, depth => by
    rw [sanitize]
    exact guarded_plain trivial
  | .int value, key, depth => by
    rw [sanitize]
    exact guarded_plain trivial
  | .float value, key, depth => by
    rw [sanitize]
    exact guarded_plain trivial

theorem sanitizeItems_plain : ∀ (items : List (Value F)) (key : String) (depth left : Nat),
    PlainItems (rt.sanitizeItems key depth left items)
  | [], key, depth, left => by
    rw [sanitizeItems]
    · trivial
    · exact fun _ _ _ _ impossible => nomatch impossible
  | item :: rest, key, depth, 0 => by
    rw [sanitizeItems]
    · trivial
    · exact fun _ _ _ impossible => nomatch impossible
  | item :: rest, key, depth, left + 1 => by
    rw [sanitizeItems]
    exact ⟨sanitize_plain item key depth, sanitizeItems_plain rest key depth left⟩

theorem sanitizeEntries_plain : ∀ (entries : List (Key F × Value F)) (depth left : Nat),
    ∀ pair ∈ rt.sanitizeEntries depth left entries, pair.2.Plain
  | [], depth, left => by
    rw [sanitizeEntries]
    · exact fun _ impossible => nomatch impossible
    · exact fun _ _ _ _ _ impossible => nomatch impossible
  | (key, item) :: rest, depth, 0 => by
    rw [sanitizeEntries]
    · exact fun _ impossible => nomatch impossible
    · exact fun _ _ _ _ impossible => nomatch impossible
  | (key, item) :: rest, depth, left + 1 => by
    rw [sanitizeEntries]
    exact forall_mem_cons.mpr ⟨sanitize_plain item (rt.keyStr key) depth, sanitizeEntries_plain rest depth left⟩
end

end Sanitizer

namespace Signer

variable (rt : Signer F)

def Written (draft : Draft F) : Prop :=
  ∃ document, rt.jsonable draft.details.columns.data = .ok document ∧ rt.Settled document ∧
    draft.details.columns.encoded = String.ofList (document.text true)

def Insertable (draft : Draft F) : Prop :=
  (∃ text, rt.iso draft.occurred = .ok text) ∧ rt.isNull draft.occurred = false ∧
    rt.isNull draft.details.ingested = false

def sourceOf (event : Value F) : String := rt.hmacValue ((rt.dumps true event).toOption.getD "")

theorem columns_written {event : Value F} {source : String} {columns : Columns F}
    (made : rt.columns event source = .ok columns) :
    ∃ document, rt.jsonable columns.data = .ok document ∧ rt.Settled document ∧
      columns.encoded = String.ofList (document.text true) := by
  obtain ⟨encoded, written, made⟩ := result_bind.mp made
  rw [result_refuse] at made
  dsimp only at made
  rw [result_refuse] at made
  cases made.2.2
  obtain ⟨document, encodes, same⟩ := (rt.dumps_ok).mp written
  exact ⟨document, encodes, rt.jsonable_settled _ (rt.sanitize_plain _ _ _) encodes, same⟩

variable {draft : Draft F}

theorem prepare_parts {event ingestedAt : Value F} {source eventId : String}
    (made : rt.ledger.prepare event source ingestedAt eventId = .ok draft) :
    rt.Written draft ∧ draft.sourceFingerprint = rt.sourceOf event ∧ draft.eventId = eventId ∧
      rt.epoch (event.get "ts") = .ok draft.occurred ∧ rt.epoch ingestedAt = .ok draft.details.ingested := by
  unfold Platform.prepare at made
  rw [result_refuse] at made
  dsimp only at made
  rw [result_refuse] at made
  replace made := made.2.2
  obtain ⟨occurred, one, made⟩ := result_bind.mp made
  obtain ⟨ingested, two, made⟩ := result_bind.mp made
  obtain ⟨details, columns, made⟩ := result_bind.mp made
  obtain ⟨key, -, made⟩ := result_bind.mp made
  obtain ⟨text, canonical, made⟩ := result_bind.mp made
  obtain rfl := Except.ok.inj made
  obtain ⟨found, stored, same⟩ : ∃ found, rt.columns event source = .ok found ∧
      details = ⟨ingested, rt.classify (rt.actionOf event) event, rt.okOf event, found⟩ := by
    change (rt.columns event source).map _ = .ok details at columns
    cases stored : rt.columns event source with
    | error why =>
      rw [stored] at columns
      cases columns
    | ok found =>
      rw [stored] at columns
      exact ⟨found, rfl, (Except.ok.inj columns).symm⟩
  subst same
  have origin : rt.hmacValue text = rt.sourceOf event := by
    have written : rt.dumps true event = .ok text := canonical
    rw [sourceOf, written]
    rfl
  exact ⟨rt.columns_written stored, origin, rfl, one, two⟩

theorem prepare_id {event ingestedAt : Value F} {source eventId : String}
    (made : rt.ledger.prepare event source ingestedAt eventId = .ok draft) (other : String) :
    rt.ledger.prepare event source ingestedAt other = .ok { draft with eventId := other } := by
  unfold Platform.prepare at made ⊢
  rw [result_refuse] at made
  dsimp only at made
  rw [result_refuse] at made
  obtain ⟨dict, action, made⟩ := made
  rw [if_neg dict]
  dsimp only
  rw [if_neg action]
  obtain ⟨occurred, one, made⟩ := result_bind.mp made
  obtain ⟨ingested, two, made⟩ := result_bind.mp made
  obtain ⟨details, columns, made⟩ := result_bind.mp made
  obtain ⟨key, keyed, made⟩ := result_bind.mp made
  obtain ⟨text, canonical, made⟩ := result_bind.mp made
  obtain rfl := Except.ok.inj made
  exact result_bind.mpr ⟨occurred, one, result_bind.mpr ⟨ingested, two, result_bind.mpr ⟨details, columns,
    result_bind.mpr ⟨key, keyed, result_bind.mpr ⟨text, canonical, rfl⟩⟩⟩⟩⟩

def textOf (value : Value F) : String := (rt.dumps true value).toOption.getD ""

def signedRow (draft : Draft F) (previous : Option String) : Row F :=
  let row := rowOf draft (rt.textOf (scopeOfDraft draft)) previous
  { row with signature := rt.hmacValue (rt.textOf
      (row.document draft.occurred draft.details.ingested (scopeOfDraft draft) draft.details.columns.data)) }

def chain : Option String → List (Draft F) → Rows F
  | _, [] => []
  | previous, draft :: rest => rt.signedRow draft previous :: chain (some (rt.signedRow draft previous).signature) rest

def membersOf (row : Row F) (occurred ingested : FloatText) (scope data : Document) : List (String × Document) :=
  let optional : Option String → Document := fun text => text.elim .null .str
  [("id", .str row.id), ("occurredAt", .float occurred), ("ingestedAt", .float ingested),
    ("action", .str row.action), ("kind", .str row.kind.text), ("category", .str row.category),
    ("impact", .str row.impact), ("ok", .bool row.ok), ("actor", optional row.actor), ("source", .str row.source),
    ("sourceFingerprint", .str row.sourceFingerprint), ("incidentKey", optional row.incidentKey),
    ("isChange", .bool row.isChange), ("scope", scope), ("data", data),
    ("previousSignature", optional row.previousSignature)]

theorem document_written (row : Row F) (occurred ingested : F) {scope data : Value F} {scopeDoc dataDoc : Document}
    (scopes : rt.jsonable scope = .ok scopeDoc) (payload : rt.jsonable data = .ok dataDoc) :
    rt.jsonable (row.document occurred ingested scope data) = .ok (.object
      ((membersOf row (rt.floatText occurred) (rt.floatText ingested) scopeDoc dataDoc).insertionSort byName)) := by
  have either : ∀ text : Option String, rt.jsonable (optional text) = .ok (text.elim .null .str) := by
    intro text
    cases text <;> rfl
  refine rt.jsonable_fields ?_
  simp [named, membersOf, Runtime.jsonableEntries, Runtime.jsonable, either, scopes, payload]

theorem scope_text (draft : Draft F) :
    ∃ document, rt.jsonable (scopeOfDraft draft) = .ok document ∧ rt.Settled document := by
  have written : ∀ texts : List String, rt.jsonables (texts.map Value.str) = .ok (texts.map Document.str) := by
    intro texts
    induction texts with
    | nil => rfl
    | cons text rest ih =>
      rw [map_cons, Runtime.jsonables, Runtime.jsonable, ih]
      rfl
  have encoded : rt.jsonable (scopeOfDraft draft) = .ok (.array (draft.details.columns.scope.map Document.str)) := by
    rw [scopeOfDraft, Runtime.jsonable, written]
    rfl
  refine ⟨_, encoded, rt.jsonable_settled _ ?_ encoded⟩
  have plain : ∀ texts : List String, PlainItems (texts.map (Value.str : String → Value F)) := by
    intro texts
    induction texts with
    | nil => trivial
    | cons text rest ih => exact ⟨trivial, ih⟩
  exact plain _

theorem dumps_textOf {value : Value F} {document : Document} (written : rt.jsonable value = .ok document) :
    rt.dumps true value = .ok (rt.textOf value) := by
  have dumped := (@Runtime.dumps_ok F rt.toRuntime true value _).mpr ⟨document, written, rfl⟩
  rw [textOf, dumped]
  rfl

theorem insertPrepared_ok (written : rt.Written draft) {previous : Option String}
    {rows after : Rows F} {signature : String} :
    rt.insertPrepared draft previous rows = .ok (signature, after) ↔
      rt.Insertable draft ∧ draft.eventId ∉ rows.map Row.id ∧ draft.sourceFingerprint ∉ rows.map Row.sourceFingerprint ∧
        signature = (rt.signedRow draft previous).signature ∧ after = rows ++ [rt.signedRow draft previous] := by
  obtain ⟨scopeDoc, scopes, -⟩ := rt.scope_text draft
  obtain ⟨dataDoc, payload, -, -⟩ := written
  have signed : rt.sign ((rowOf draft (rt.textOf (scopeOfDraft draft)) previous).document draft.occurred
      draft.details.ingested (scopeOfDraft draft) draft.details.columns.data) =
        .ok (rt.signedRow draft previous).signature := by
    rw [sign, rt.dumps_textOf (rt.document_written _ _ _ scopes payload)]
    rfl
  unfold insertPrepared
  simp only [lift_bind, rt.dumps_textOf scopes, signed, Except.ok.injEq, exists_eq_left',
    check_bind, read_bind, write_bind, pure_ok, Prod.mk.injEq]
  constructor
  · rintro ⟨stored, unique, text, timed, same, appended⟩
    obtain ⟨occurred, ingested⟩ := Bool.and_eq_true_iff.mp stored
    obtain ⟨id, fingerprint⟩ := of_decide_eq_true unique
    exact ⟨⟨⟨text, timed⟩, by simpa using occurred, by simpa using ingested⟩, id, fingerprint, same.symm, appended.symm⟩
  · rintro ⟨⟨⟨text, timed⟩, occurred, ingested⟩, id, fingerprint, same, appended⟩
    refine ⟨?_, decide_eq_true ⟨id, fingerprint⟩, text, timed, same.symm, appended.symm⟩
    rw [occurred, ingested]
    rfl

theorem insertNew_known {rows : Rows F}
    (known : draft.sourceFingerprint ∈ rows.map Row.sourceFingerprint) : rt.insertNew draft rows = .ok ((), rows) := by
  rw [insertNew, read_bind]
  exact congrFun (if_pos known) rows

theorem insertNew_fresh (written : rt.Written draft) {rows after : Rows F}
    (fresh : draft.sourceFingerprint ∉ rows.map Row.sourceFingerprint) :
    rt.insertNew draft rows = .ok ((), after) ↔ rows.length < rt.maxEvents ∧ rt.Insertable draft ∧
      draft.eventId ∉ rows.map Row.id ∧ after = rows ++ [rt.signedRow draft (lastSignature rows)] := by
  rw [insertNew, read_bind]
  dsimp only [id]
  rw [if_neg fresh]
  by_cases full : rt.maxEvents ≤ rows.length
  · rw [if_pos full, raise_ok]
    exact ⟨False.elim, fun room => absurd room.1 (not_lt.mpr full)⟩
  · rw [if_neg full, bind_ok]
    constructor
    · rintro ⟨signature, middle, inserted, done⟩
      obtain ⟨-, rfl⟩ := Prod.mk.inj (pure_ok.mp done)
      obtain ⟨insertable, id, -, -, same⟩ := (rt.insertPrepared_ok written).mp inserted
      exact ⟨not_le.mp full, insertable, id, same⟩
    · rintro ⟨-, insertable, id, rfl⟩
      exact ⟨_, _, (rt.insertPrepared_ok written).mpr ⟨insertable, id, fresh, rfl, rfl⟩, rfl⟩

theorem lastSignature_append (rows : Rows F) (row : Row F) : lastSignature (rows ++ [row]) = some row.signature := by
  rw [lastSignature, List.getLast?_concat]
  rfl

def imports (rows : Rows F) (drafts : List (Draft F)) : Rows F :=
  rows ++ rt.chain (lastSignature rows) (firsts Prepared.sourceFingerprint (rows.map Row.sourceFingerprint) drafts)

structure Ready (rows : Rows F) (drafts : List (Draft F)) : Prop where
  written : ∀ draft ∈ drafts, rt.Written draft
  insertable : ∀ draft ∈ drafts, rt.Insertable draft
  room : rows.length +
    (firsts Prepared.sourceFingerprint (rows.map Row.sourceFingerprint) drafts).length ≤ rt.maxEvents
  drawn : (drafts.map Prepared.eventId).Nodup
  unused : ∀ draft ∈ drafts, draft.eventId ∉ rows.map Row.id

variable {rt} {rows : Rows F} {draft : Draft F} {rest : List (Draft F)}

theorem Ready.skip (ready : rt.Ready rows (draft :: rest))
    (known : draft.sourceFingerprint ∈ rows.map Row.sourceFingerprint) : rt.Ready rows rest where
  written := (forall_mem_cons.mp ready.written).2
  insertable := (forall_mem_cons.mp ready.insertable).2
  room := by
    have room := ready.room
    rwa [firsts, if_pos known] at room
  drawn := (nodup_cons.mp ready.drawn).2
  unused := (forall_mem_cons.mp ready.unused).2

theorem imports_skip (known : draft.sourceFingerprint ∈ rows.map Row.sourceFingerprint) :
    rt.imports rows (draft :: rest) = rt.imports rows rest := by
  rw [imports, firsts, if_pos known, imports]

theorem firsts_append (row : Row F) (drafts : List (Draft F)) :
    firsts Prepared.sourceFingerprint ((rows ++ [row]).map Row.sourceFingerprint) drafts =
      firsts Prepared.sourceFingerprint (row.sourceFingerprint :: rows.map Row.sourceFingerprint) drafts := by
  refine Firsts.congr fun other _ => ?_
  rw [map_append, mem_append, map_singleton, mem_singleton, mem_cons, or_comm]

theorem Ready.insert (ready : rt.Ready rows (draft :: rest))
    (fresh : draft.sourceFingerprint ∉ rows.map Row.sourceFingerprint) :
    rows.length < rt.maxEvents ∧ rt.Ready (rows ++ [rt.signedRow draft (lastSignature rows)]) rest := by
  have room := ready.room
  rw [firsts, if_neg fresh, length_cons] at room
  obtain ⟨apart, drawn⟩ := nodup_cons.mp ready.drawn
  refine ⟨by omega, (forall_mem_cons.mp ready.written).2, (forall_mem_cons.mp ready.insertable).2, ?_, drawn,
    fun other member => ?_⟩
  · rw [firsts_append, length_append, length_singleton]
    change _ + (firsts _ (draft.sourceFingerprint :: _) rest).length ≤ _
    omega
  · rw [map_append, mem_append, not_or, map_singleton, mem_singleton]
    refine ⟨(forall_mem_cons.mp ready.unused).2 other member, fun same => apart ?_⟩
    exact mem_map.mpr ⟨other, member, same⟩

theorem imports_insert (fresh : draft.sourceFingerprint ∉ rows.map Row.sourceFingerprint) :
    rt.imports rows (draft :: rest) = rt.imports (rows ++ [rt.signedRow draft (lastSignature rows)]) rest := by
  rw [imports, firsts, if_neg fresh, chain, imports, firsts_append, lastSignature_append, append_assoc]
  rfl

theorem each_imports {drafts : List (Draft F)} (ready : rt.Ready rows drafts) :
    drafts.foldl (fun rows draft => (rt.insertNew draft).commit rows) rows = rt.imports rows drafts := by
  induction drafts generalizing rows with
  | nil => exact (append_nil rows).symm
  | cons draft rest ih =>
    rw [foldl_cons]
    by_cases known : draft.sourceFingerprint ∈ rows.map Row.sourceFingerprint
    · rw [commit_ok (rt.insertNew_known known), ih (ready.skip known), imports_skip known]
    · obtain ⟨room, later⟩ := ready.insert known
      have inserted := (rt.insertNew_fresh (forall_mem_cons.mp ready.written).1 known).mpr
        ⟨room, (forall_mem_cons.mp ready.insertable).1, (forall_mem_cons.mp ready.unused).1, rfl⟩
      rw [commit_ok inserted, ih later, imports_insert known]

/-- As a batch, the drafts are imported; the fingerprints the batch knows are those of the ledger. -/
theorem insertMany_imports {drafts : List (Draft F)} (ready : rt.Ready rows drafts) {known : List String}
    (knows : ∀ draft ∈ drafts, draft.sourceFingerprint ∈ known ↔
      draft.sourceFingerprint ∈ rows.map Row.sourceFingerprint) :
    ∃ imported, rt.insertMany drafts known (lastSignature rows) rows.length rows =
        .ok (imported, rt.imports rows drafts) ∧
      imported.inserted.length = (firsts Prepared.sourceFingerprint (rows.map Row.sourceFingerprint) drafts).length ∧
      imported.duplicates + imported.inserted.length = drafts.length := by
  induction drafts generalizing rows known with
  | nil => exact ⟨⟨[], 0⟩, by rw [imports, firsts, chain, append_nil]; rfl, rfl, rfl⟩
  | cons draft rest ih =>
    obtain ⟨head, tail⟩ := forall_mem_cons.mp knows
    rw [insertMany]
    by_cases old : draft.sourceFingerprint ∈ rows.map Row.sourceFingerprint
    · obtain ⟨imported, done, inserted, counted⟩ := ih (ready.skip old) tail
      rw [if_pos (head.mpr old), imports_skip old, firsts, if_pos old]
      refine ⟨{ imported with duplicates := imported.duplicates + 1 }, bind_ok.mpr ⟨_, _, done, rfl⟩, inserted, ?_⟩
      rw [length_cons]
      dsimp only
      omega
    · obtain ⟨room, later⟩ := ready.insert old
      have placed : rt.insertPrepared draft (lastSignature rows) rows =
          .ok ((rt.signedRow draft (lastSignature rows)).signature,
            rows ++ [rt.signedRow draft (lastSignature rows)]) :=
        (rt.insertPrepared_ok (forall_mem_cons.mp ready.written).1).mpr
          ⟨(forall_mem_cons.mp ready.insertable).1, (forall_mem_cons.mp ready.unused).1, old, rfl, rfl⟩
      have wider : ∀ other ∈ rest, other.sourceFingerprint ∈ draft.sourceFingerprint :: known ↔
          other.sourceFingerprint ∈ (rows ++ [rt.signedRow draft (lastSignature rows)]).map Row.sourceFingerprint := by
        intro other member
        rw [mem_cons, tail other member, map_append, mem_append, map_singleton, mem_singleton, or_comm]
        rfl
      obtain ⟨imported, done, inserted, counted⟩ := ih later wider
      rw [if_neg fun present => old (head.mp present), if_neg (not_le.mpr room), imports_insert old, firsts, if_neg old]
      rw [firsts_append] at inserted
      have continued : rt.insertMany rest (draft.sourceFingerprint :: known)
          (some (rt.signedRow draft (lastSignature rows)).signature) (rows.length + 1)
          (rows ++ [rt.signedRow draft (lastSignature rows)]) = .ok (imported, rt.imports
            (rows ++ [rt.signedRow draft (lastSignature rows)]) rest) := by
        rw [← done, lastSignature_append, length_append]
        rfl
      refine ⟨{ imported with inserted := _ :: imported.inserted }, bind_ok.mpr ⟨_, _, placed,
        bind_ok.mpr ⟨_, _, continued, rfl⟩⟩, ?_, ?_⟩
      · exact congrArg (· + 1) inserted
      · rw [length_cons, length_cons]
        dsimp only
        omega

end Signer

end Dash.Intelligence
