import Dash.Foundation.Table
import Dash.Foundation.Transaction
import Dash.Python.Reencoding

/-! Snapshots of the feature matrix, the table of the transitions between them, its integrity check, what
`record` adds to it, and what the changes between two snapshots say.

A snapshot is determined by the states of its features; its summary, verdict and checksum are
written with them. Dictionaries are documents with their keys in the order in which they are
written.
-/

set_option autoImplicit false

namespace Dash.Readiness

open Dash.Python Dash.Foundation

/-- `STATES` -/
inductive State where
  | ready | canaryPending | disabled | partly | blocked | degraded | externalBlocked
  deriving DecidableEq

namespace State

def all : List State :=
  [.ready, .canaryPending, .disabled, .partly, .blocked, .degraded, .externalBlocked]

def text : State → String
  | .ready => "ready"
  | .canaryPending => "canary-pending"
  | .disabled => "disabled"
  | .partly => "partial"
  | .blocked => "blocked"
  | .degraded => "degraded"
  | .externalBlocked => "external-blocked"

def ofText (text : String) : Option State := all.find? fun state => state.text = text

def problem (state : State) : Bool := state ∈ [.partly, .blocked, .degraded, .externalBlocked]

/-- `STATE_WEIGHT` -/
def weight : State → Nat
  | .ready => 0
  | .disabled => 0
  | .canaryPending => 1
  | .externalBlocked => 2
  | .partly => 3
  | .blocked => 4
  | .degraded => 5

theorem ofText_text (state : State) : ofText state.text = some state := by
  cases state <;> decide

end State

structure Feature where
  id : String
  state : State
  active : Bool
  deriving DecidableEq

structure Snapshot where
  states : List Feature
  deriving DecidableEq

inductive Direction where
  | regression | improvement | change
  deriving DecidableEq

def Direction.text : Direction → String
  | .regression => "regression"
  | .improvement => "improvement"
  | .change => "change"

/-- A change of one feature; a state that is `none` is "absent". -/
structure Change where
  id : String
  (old new : Option State)
  (activeBefore activeAfter : Bool)
  direction : Direction

inductive Kind where
  | baseline | regression | improvement | mixed | change
  deriving DecidableEq

def Kind.text : Kind → String
  | .baseline => "baseline"
  | .regression => "regression"
  | .improvement => "improvement"
  | .mixed => "mixed"
  | .change => "change"

structure Platform (F : Type) extends Runtime F where
  /-- `value == 1` -/
  isOne : F → Bool
  sha256 : String → String
  mac : String → String

variable {F : Type}

def canonicalText (document : Document) : String := String.ofList (document.text true)

def Feature.document (feature : Feature) : Document :=
  .object [("active", .bool feature.active), ("id", .str feature.id), ("state", .str feature.state.text)]

namespace Snapshot

variable (snapshot : Snapshot)

def inState (state : State) : Nat := snapshot.states.countP fun row => row.state = state

def active : Nat := snapshot.states.countP Feature.active

def activeProblems : Nat := snapshot.states.countP fun row => row.active && row.state.problem

def count (number : Nat) : Document := .int number

def summary : Document :=
  .object [("active", count snapshot.active), ("activeProblems", count snapshot.activeProblems),
    ("blocked", count (snapshot.inState .blocked)),
    ("canary-pending", count (snapshot.inState .canaryPending)),
    ("degraded", count (snapshot.inState .degraded)),
    ("disabled", count (snapshot.inState .disabled)),
    ("external-blocked", count (snapshot.inState .externalBlocked)),
    ("partial", count (snapshot.inState .partly)), ("ready", count (snapshot.inState .ready)),
    ("total", count snapshot.states.length)]

def overall : String := if snapshot.activeProblems = 0 then "ready" else "attention"

def unsigned : Document :=
  .object [("overall", .str snapshot.overall), ("schemaVersion", .int 1),
    ("states", .array (snapshot.states.map Feature.document)), ("summary", snapshot.summary)]

end Snapshot

def Change.document (change : Change) : Document :=
  .object [("activeAfter", .bool change.activeAfter), ("activeBefore", .bool change.activeBefore),
    ("direction", .str change.direction.text),
    ("from", .str ((change.old.map State.text).getD "absent")), ("id", .str change.id),
    ("to", .str ((change.new.map State.text).getD "absent"))]

def changesDocument (changes : List Change) : Document := .array (changes.map Change.document)

def isSmall (char : Char) : Bool := decide ('a' ≤ char) && decide (char ≤ 'z')

/-- `ID_RE.fullmatch` -/
def isFeatureId (text : String) : Bool :=
  match text.toList with
  | first :: rest => isSmall first && decide (1 ≤ rest.length) && decide (rest.length ≤ 63) &&
      rest.all fun char => isSmall char || char.isDigit || char = '-'
  | [] => false

def byId (first second : Feature) : Prop := first.id ≤ second.id

instance : DecidableRel byId := fun first second => inferInstanceAs (Decidable (first.id ≤ second.id))

namespace Platform

variable (rt : Platform F)

def checksum (snapshot : Snapshot) : String := rt.sha256 (canonicalText snapshot.unsigned)

def document (snapshot : Snapshot) : Document :=
  .object [("overall", .str snapshot.overall), ("schemaVersion", .int 1), ("sha256", .str (rt.checksum snapshot)),
    ("states", .array (snapshot.states.map Feature.document)), ("summary", snapshot.summary)]

/-- `str((row or {}).get(name) or "")` -/
def fieldOf (row : Value F) (name : String) : Result String :=
  let row := rt.orElse row (.dict [])
  if row.isDict then .ok (rt.str (rt.orElse (row.get name) (.str "")))
  else .error ⟨.attributeError, "object has no attribute 'get'"⟩

/-- The loop of `_snapshot`. -/
def readFeatures (seen : List String) : List (Value F) → Result (List Feature)
  | [] => .ok []
  | row :: rest => do
    let id ← rt.fieldOf row "id"
    let state ← rt.fieldOf row "state"
    match State.ofText state with
    | none => valueError "feature readiness status contains an invalid feature id or state"
    | some state =>
      if isFeatureId id = false ∨ id ∈ seen then
        valueError "feature readiness status contains an invalid feature id or state"
      else do
        let others ← readFeatures (id :: seen) rest
        .ok (⟨id, state, rt.truthy (row.get "active")⟩ :: others)

/-- `value == 1` -/
def equalsOne : Value F → Bool
  | .int value => value = 1
  | .bool value => value
  | .float value => rt.isOne value
  | _ => false

def snapshot (status : Value F) : Result Snapshot :=
  if !status.isDict || !rt.equalsOne (status.get "schemaVersion") then
    valueError "feature readiness status schema is invalid"
  else match status.get "features" with
    | .list features =>
      if features.length < 1 ∨ 512 < features.length then
        valueError "feature readiness status must contain 1..512 features"
      else do
        let states ← rt.readFeatures [] features
        .ok ⟨states.insertionSort byId⟩
    | _ => valueError "feature readiness status must contain 1..512 features"

end Platform

def Snapshot.find (snapshot : Snapshot) (id : String) : Option Feature :=
  snapshot.states.find? fun row => row.id = id

def directionOf (old new : Option Feature) : Direction :=
  match old, new with
  | none, some new => if new.active && new.state.problem then .regression else .change
  | _, none => .change
  | some old, some new =>
    if new.state = .ready ∧ old.state ≠ .ready then .improvement
    else if old.active && !old.state.problem && new.active && new.state.problem then .regression
    else if old.state.problem && (!new.active || !new.state.problem) then .improvement
    else if old.state.weight < new.state.weight then .regression
    else if new.state.weight < old.state.weight then .improvement
    else .change

/-- One round of `_changes`. -/
def changeOf (previous current : Snapshot) (id : String) : Option Change :=
  let old := previous.find id
  let new := current.find id
  let activeBefore := (old.map Feature.active).getD false
  let activeAfter := (new.map Feature.active).getD false
  if old.map Feature.state = new.map Feature.state ∧ activeBefore = activeAfter then none
  else some ⟨id, old.map Feature.state, new.map Feature.state, activeBefore, activeAfter, directionOf old new⟩

def idsOf (previous current : Snapshot) : List String :=
  ((previous.states.map Feature.id ++ current.states.map Feature.id).dedup).insertionSort (· ≤ ·)

def changesOf (previous current : Snapshot) : List Change :=
  (idsOf previous current).filterMap (changeOf previous current)

namespace Platform

variable (rt : Platform F)

def snapshotKeys : List String := ["schemaVersion", "overall", "summary", "states", "sha256"]

def hasKeys (names : List String) : Value F → Bool
  | .dict entries => (entries.all fun entry => names.any fun name => entry.1.named name) &&
      names.all fun name => entries.any fun entry => entry.1.named name
  | _ => false

def validateSnapshot (document : Value F) : Result Snapshot :=
  if hasKeys snapshotKeys document = false then
    valueError "feature readiness history snapshot schema is invalid"
  else do
    let expected ← rt.snapshot (.object [("schemaVersion", .int 1), ("features", document.get "states")])
    let text ← rt.dumps true document
    if text ≠ canonicalText (rt.document expected) then
      valueError "feature readiness history snapshot digest or summary is invalid"
    else .ok expected

/-- `direction in directions` -/
def hasDirection (direction : Direction) : Value F → Bool
  | .list items => items.any fun row =>
      match row.get "direction" with
      | .str text => text = direction.text
      | _ => false
  | _ => false

def kindOf (regression improvement : Bool) : Kind :=
  if regression && improvement then .mixed
  else if regression then .regression
  else if improvement then .improvement
  else .change

def transitionKind (previous : Option Snapshot) (current : Snapshot) (changes : Value F) : Result Kind :=
  match previous with
  | none =>
    if rt.truthy changes then valueError "feature readiness baseline cannot contain transitions"
    else .ok .baseline
  | some previous => do
    let text ← rt.dumps true changes
    if text ≠ canonicalText (changesDocument (changesOf previous current)) then
      valueError "feature readiness transition set does not match its snapshots"
    else if rt.checksum previous = rt.checksum current then
      valueError "feature readiness history contains a duplicate adjacent snapshot"
    else .ok (kindOf (hasDirection .regression changes) (hasDirection .improvement changes))

end Platform

/-- A row of `transitions`. -/
structure Transition (F : Type) where
  sequence : Nat
  recordedAt : F
  (source commit : String)
  kind : Kind
  (snapshotSha256 snapshotJson changesJson : String)
  previousHmac : Option String
  eventHmac : String

structure Db (F : Type) where
  transitions : List (Transition F)

/-- What the rows read so far leave: their number, the last HMAC and the last snapshot. -/
structure Seen where
  count : Nat
  hmac : Option String
  snapshot : Option Snapshot

inductive Outcome where
  | unchanged (sequence : Nat)
  | changed (sequence : Nat) (kind : Kind)

abbrev Action (F α : Type) : Type := Transaction (Db F) Exception α

/-- The arguments of a call of `record`. -/
structure Call (F : Type) where
  status : Value F
  (source commit : String)
  now : F

namespace Platform

variable (rt : Platform F)

def eventValue (row : Transition F) (snapshot changes : Value F) : Value F :=
  .object [("changes", changes), ("commit", .str row.commit), ("kind", .str row.kind.text),
    ("previousHmac", Value.ofOption row.previousHmac), ("recordedAt", .float row.recordedAt),
    ("sequence", .int row.sequence), ("snapshot", snapshot),
    ("snapshotSha256", .str row.snapshotSha256), ("source", .str row.source)]

/-- `_event_payload`, as it is signed. -/
def eventText (row : Transition F) : Result String := do
  let snapshot ← rt.loads row.snapshotJson
  let changes ← rt.loads row.changesJson
  rt.dumps true (eventValue row snapshot changes)

/-- One round over the rows; `none` is a row that does not fit. -/
def checkRow (seen : Seen) (row : Transition F) : Result (Option Snapshot) := do
  let text ← rt.eventText row
  let document ← rt.loads row.snapshotJson
  let snapshot ← rt.validateSnapshot document
  let changes ← rt.loads row.changesJson
  let kind ← rt.transitionKind seen.snapshot snapshot changes
  .ok (if row.sequence = seen.count + 1 ∧ row.previousHmac = seen.hmac ∧ row.kind = kind ∧
      row.eventHmac = rt.mac text then some snapshot
    else none)

def verifyRows (seen : Seen) : List (Transition F) → Result (Option Seen)
  | [] => .ok (some seen)
  | row :: rest => do
    match ← rt.checkRow seen row with
    | none => .ok none
    | some snapshot => verifyRows ⟨seen.count + 1, some row.eventHmac, some snapshot⟩ rest

def caught (why : Exception) : Bool := why.type ∈ [.typeError, .valueError, .jsonDecodeError]

/-- `integrity` of a database whose schema is in order: its `ok`. -/
def integrity (db : Db F) : Result Bool :=
  match rt.verifyRows ⟨0, none, none⟩ db.transitions with
  | .ok (some _) => .ok true
  | .ok none => .ok false
  | .error why => if caught why then .ok false else .error why

def boundedText (value label : String) (limit : Nat) : Result String :=
  let text := strip value
  if text = "" ∨ limit < text.length ∨ hasControl text = true then
    valueError (label ++ " is invalid")
  else .ok text

/-- `unknown`, or `[0-9a-f]{7,64}`. -/
def isCommit (text : String) : Bool :=
  text = "unknown" || decide (7 ≤ text.length) && decide (text.length ≤ 64) &&
    text.toList.all fun char => char.isDigit || decide ('a' ≤ char) && decide (char ≤ 'f')

def rowOf (seen : Seen) (current : Snapshot) (changes : List Change) (kind : Kind)
    (source commit : String) (now : F) : Transition F :=
  ⟨seen.count + 1, now, source, commit, kind, rt.checksum current,
    canonicalText (rt.document current), canonicalText (changesDocument changes), seen.hmac, ""⟩

/-- What `record` does after the rows were verified. -/
def append (seen : Seen) (current : Snapshot) (source commit : String) (now : F) : Action F Outcome :=
  if seen.snapshot.map rt.checksum = some (rt.checksum current) then pure (.unchanged seen.count)
  else do
    let changes := (seen.snapshot.map fun previous => changesOf previous current).getD []
    let kind ← Transaction.lift (rt.transitionKind seen.snapshot current
      (rt.ofDocument (changesDocument changes)))
    let row := rt.rowOf seen current changes kind source commit now
    let text ← Transaction.lift (rt.eventText row)
    let taken ← Transaction.read fun db => db.transitions.map Transition.eventHmac
    Transaction.check (rt.mac text ∉ taken) ⟨.integrityError, "UNIQUE constraint failed: transitions.event_hmac"⟩
    Transaction.write fun db => ⟨db.transitions ++ [{ row with eventHmac := rt.mac text }]⟩
    pure (.changed row.sequence kind)

def record (call : Call F) : Action F Outcome := do
  let source ← Transaction.lift (boundedText call.source "history source" 80)
  let commit ← Transaction.lift (boundedText call.commit "history commit" 80)
  Transaction.check (isCommit commit) ⟨.valueError, "history commit must be unknown or a Git hex id"⟩
  let current ← Transaction.lift (rt.snapshot call.status)
  let db ← Transaction.read id
  let verified ← Transaction.lift (rt.verifyRows ⟨0, none, none⟩ db.transitions)
  match verified with
  | none =>
    Transaction.raise ⟨.runtimeError, "feature readiness history HMAC chain is invalid"⟩
  | some seen => rt.append seen current source commit call.now

def run (calls : List (Call F)) : Db F :=
  calls.foldl (fun db call => (rt.record call).commit db) ⟨[]⟩

end Platform

open List

def Snapshot.map (snapshot : Snapshot) (id : String) : Option (State × Bool) :=
  (snapshot.find id).map fun row => (row.state, row.active)

def Change.apply (features : String → Option (State × Bool)) (change : Change) : String → Option (State × Bool) :=
  Function.update features change.id (change.new.map fun state => (state, change.activeAfter))

variable {previous current : Snapshot} {id : String}

theorem changeOf_id {change : Change} (found : changeOf previous current id = some change) : change.id = id := by
  unfold changeOf at found
  dsimp only at found
  split at found
  · cases found
  · cases found
    rfl

theorem changeOf_some {change : Change} (found : changeOf previous current id = some change) :
    (change.new.map fun state => (state, change.activeAfter)) = current.map id := by
  unfold changeOf at found
  dsimp only at found
  split at found
  · cases found
  · cases found
    unfold Snapshot.map
    cases current.find id <;> rfl

theorem changeOf_none (absent : changeOf previous current id = none) : previous.map id = current.map id := by
  unfold changeOf at absent
  dsimp only at absent
  split at absent
  · rename_i same
    unfold Snapshot.map
    cases old : previous.find id <;> cases new : current.find id <;> simp [old, new] at same ⊢
    exact same
  · cases absent

theorem foldl_changes (previous current : Snapshot) {ids : List String} (distinct : ids.Nodup)
    (features : String → Option (State × Bool)) (id : String) :
    ((ids.filterMap (changeOf previous current)).foldl Change.apply features) id =
      if id ∈ ids ∧ (changeOf previous current id).isSome then current.map id else features id := by
  induction ids generalizing features with
  | nil => simp
  | cons head rest ih =>
    rw [nodup_cons] at distinct
    cases found : changeOf previous current head with
    | none =>
      rw [filterMap_cons_none found, ih distinct.2]
      by_cases same : id = head
      · subst same
        simp [found]
      · simp [same]
    | some change =>
      rw [filterMap_cons_some found, foldl_cons, ih distinct.2]
      by_cases same : id = head
      · subst same
        have value : (change.apply features) id = current.map id := by
          unfold Change.apply
          rw [changeOf_id found, Function.update_self, changeOf_some found]
        simp [distinct.1, found, value]
      · have kept : (change.apply features) id = features id := by
          unfold Change.apply
          rw [changeOf_id found, Function.update_of_ne same]
        simp [same, kept]

theorem idsOf_nodup (previous current : Snapshot) : (idsOf previous current).Nodup := by
  exact (perm_insertionSort _ _).nodup_iff.mpr (nodup_dedup _)

theorem mem_idsOf : id ∈ idsOf previous current ↔
      id ∈ previous.states.map Feature.id ∨ id ∈ current.states.map Feature.id := by
  unfold idsOf
  rw [(perm_insertionSort _ _).mem_iff, mem_dedup, mem_append]

theorem map_unlisted {snapshot : Snapshot} (unlisted : id ∉ snapshot.states.map Feature.id) :
    snapshot.map id = none :=
  Option.map_eq_none_iff.mpr (Table.find_none.mpr unlisted)

theorem changes_apply (previous current : Snapshot) :
    (changesOf previous current).foldl Change.apply previous.map = current.map := by
  funext id
  unfold changesOf
  rw [foldl_changes previous current (idsOf_nodup previous current)]
  by_cases listed : id ∈ idsOf previous current
  · cases found : changeOf previous current id with
    | none => simp [changeOf_none found]
    | some change => simp [listed]
  · rw [if_neg fun holds => listed holds.1]
    rw [mem_idsOf, not_or] at listed
    rw [map_unlisted listed.1, map_unlisted listed.2]

structure Snapshot.Valid (snapshot : Snapshot) : Prop where
  some : 1 ≤ snapshot.states.length
  few : snapshot.states.length ≤ 512
  named : ∀ row ∈ snapshot.states, isFeatureId row.id = true
  sorted : (snapshot.states.map Feature.id).Pairwise (· < ·)

namespace Platform

variable {rt : Platform F}

variable {features : List Feature}

theorem readFeatures_ok {seen : List String} {rows : List (Value F)} (read : rt.readFeatures seen rows = .ok features) :
    features.length = rows.length ∧ (∀ row ∈ features, isFeatureId row.id = true ∧ row.id ∉ seen) ∧
      (features.map Feature.id).Nodup := by
  induction rows generalizing seen features with
  | nil =>
    cases read
    exact ⟨rfl, fun _ member => absurd member (not_mem_nil), nodup_nil⟩
  | cons row rest ih =>
    rw [readFeatures] at read
    simp only [result_bind] at read
    obtain ⟨id, -, state, -, read⟩ := read
    split at read
    · cases read
    · obtain ⟨good, read⟩ := result_refuse.mp read
      rw [result_bind] at read
      obtain ⟨others, tail, same⟩ := read
      cases same
      obtain ⟨length, named, distinct⟩ := ih tail
      rw [not_or, Bool.not_eq_false] at good
      refine ⟨congrArg (· + 1) length, ?_, ?_⟩
      · intro other member
        rcases mem_cons.mp member with rfl | inside
        · exact good
        · exact ⟨(named other inside).1, fun old => (named other inside).2 (mem_cons_of_mem _ old)⟩
      · rw [map_cons, nodup_cons]
        refine ⟨fun twice => ?_, distinct⟩
        obtain ⟨other, inside, same⟩ := mem_map.mp twice
        exact (named other inside).2 (same ▸ mem_cons_self)

theorem sorted_features (distinct : (features.map Feature.id).Nodup) :
    ((features.insertionSort byId).map Feature.id).Pairwise (· < ·) := by
  have total : Std.Total byId := ⟨fun first second => le_total first.id second.id⟩
  have transitive : IsTrans Feature byId := ⟨fun _ _ _ => le_trans⟩
  have sorted := pairwise_insertionSort byId features
  have names : ((features.insertionSort byId).map Feature.id).Nodup :=
    ((perm_insertionSort byId features).map Feature.id).nodup_iff.mpr distinct
  have weak : ((features.insertionSort byId).map Feature.id).Pairwise (· ≤ ·) := pairwise_map.mpr sorted
  rw [nodup_iff_pairwise_ne] at names
  exact (weak.and names).imp fun both => lt_of_le_of_ne both.1 both.2

variable {snapshot : Snapshot}

theorem snapshot_valid {status : Value F} (read : rt.snapshot status = .ok snapshot) : snapshot.Valid := by
  unfold Platform.snapshot at read
  split at read
  · cases read
  · split at read
    · obtain ⟨bounds, accepted⟩ := result_refuse.mp read
      rw [result_bind] at accepted
      obtain ⟨states, looped, same⟩ := accepted
      cases same
      obtain ⟨length, named, distinct⟩ := readFeatures_ok looped
      have perm := perm_insertionSort byId states
      refine ⟨?_, ?_, fun row member => (named row (perm.mem_iff.mp member)).1, sorted_features distinct⟩
      · rw [perm.length_eq]
        omega
      · rw [perm.length_eq]
        omega
    · cases read

theorem feature_fields (feature : Feature) : rt.fieldOf (rt.ofDocument feature.document) "id" = .ok feature.id ∧
      rt.fieldOf (rt.ofDocument feature.document) "state" = .ok feature.state.text ∧
      (rt.ofDocument feature.document).get "active" = .bool feature.active := by
  have texts : ∀ text : String, rt.str (rt.orElse (.str text) (.str "")) = text := by
    intro text
    by_cases empty : text = "" <;> simp [Runtime.orElse, Runtime.truthy, Runtime.str, empty]
  have value : rt.ofDocument feature.document = .dict [(.str "active", .bool feature.active),
      (.str "id", .str feature.id), (.str "state", .str feature.state.text)] := by
    simp [Feature.document, Runtime.ofDocument, Runtime.ofMembers, dictOf, insertEntry, Key.named]
  rw [value]
  refine ⟨?_, ?_, rfl⟩
  · change Except.ok (rt.str (rt.orElse (.str feature.id) (.str ""))) = _
    rw [texts]
  · change Except.ok (rt.str (rt.orElse (.str feature.state.text) (.str ""))) = _
    rw [texts]

theorem readFeatures_written {seen : List String} (named : ∀ row ∈ features, isFeatureId row.id = true ∧ row.id ∉ seen)
    (distinct : (features.map Feature.id).Nodup) :
    rt.readFeatures seen (rt.ofItems (features.map Feature.document)) = .ok features := by
  induction features generalizing seen with
  | nil => rfl
  | cons row rest ih =>
    rw [map_cons, nodup_cons] at distinct
    have good := named row (mem_cons_self)
    have fields := @feature_fields F rt row
    have tail : rt.readFeatures (row.id :: seen) (rt.ofItems (rest.map Feature.document)) = .ok rest := by
      apply ih _ distinct.2
      intro other member
      refine ⟨(named other (mem_cons_of_mem _ member)).1, fun old => ?_⟩
      rcases mem_cons.mp old with same | old
      · exact distinct.1 (same ▸ mem_map_of_mem member)
      · exact (named other (mem_cons_of_mem _ member)).2 old
    rw [map_cons, Runtime.ofItems, readFeatures, result_bind]
    refine ⟨row.id, fields.1, ?_⟩
    rw [result_bind]
    refine ⟨row.state.text, fields.2.1, ?_⟩
    rw [State.ofText_text]
    refine result_refuse.mpr ⟨by simp [good.1, good.2], ?_⟩
    rw [result_bind]
    refine ⟨rest, tail, ?_⟩
    rw [fields.2.2]
    rfl

theorem snapshot_written (valid : snapshot.Valid) : rt.snapshot (.object [("schemaVersion", .int 1),
      ("features", .list (rt.ofItems (snapshot.states.map Feature.document)))]) = .ok snapshot := by
  have length : ∀ documents : List Document, (rt.ofItems documents).length = documents.length := by
    intro documents
    induction documents with
    | nil => rfl
    | cons document rest ih => exact congrArg (· + 1) ih
  have distinct : (snapshot.states.map Feature.id).Nodup := by
    rw [nodup_iff_pairwise_ne]
    exact valid.sorted.imp fun less => ne_of_lt less
  have sorted : snapshot.states.insertionSort byId = snapshot.states :=
    List.Pairwise.insertionSort_eq ((pairwise_map.mp valid.sorted).imp fun less => le_of_lt less)
  have read : rt.readFeatures [] (rt.ofItems (snapshot.states.map Feature.document)) = .ok snapshot.states :=
    readFeatures_written (fun row member => ⟨valid.named row member, not_mem_nil⟩) distinct
  change (if (rt.ofItems (snapshot.states.map Feature.document)).length < 1 ∨
      512 < (rt.ofItems (snapshot.states.map Feature.document)).length then _ else _) = _
  rw [if_neg, result_bind]
  · exact ⟨snapshot.states, read, by rw [sorted]⟩
  · rw [length, length_map]
    have some_ := valid.some
    have few := valid.few
    omega

theorem settled_features (features : List Feature) : rt.SettledItems (features.map Feature.document) := by
  induction features with
  | nil => trivial
  | cons row rest ih =>
    refine ⟨⟨?_, trivial, trivial, trivial, trivial⟩, ih⟩
    change ["active", "id", "state"].Pairwise (· < ·)
    decide

theorem settled_summary (snapshot : Snapshot) : rt.Settled snapshot.summary := by
  refine ⟨?_, ?_⟩
  · change ["active", "activeProblems", "blocked", "canary-pending", "degraded", "disabled",
      "external-blocked", "partial", "ready", "total"].Pairwise (· < ·)
    decide
  · exact ⟨trivial, trivial, trivial, trivial, trivial, trivial, trivial, trivial, trivial, trivial, trivial⟩

theorem settled_document (snapshot : Snapshot) : rt.Settled (rt.document snapshot) := by
  refine ⟨?_, trivial, trivial, trivial, settled_features snapshot.states, settled_summary snapshot, trivial⟩
  change ["overall", "schemaVersion", "sha256", "states", "summary"].Pairwise (· < ·)
  decide

theorem dumps_settled {document : Document} (settled : rt.Settled document) :
    rt.dumps true (rt.ofDocument document) = .ok (canonicalText document) := by
  unfold Runtime.dumps
  rw [rt.jsonable_ofDocument document settled]
  rfl

theorem loads_canonical (document : Document) : rt.loads (canonicalText document) = .ok (rt.ofDocument document) :=
  rt.loads_text true document

theorem validateSnapshot_written (valid : snapshot.Valid) :
    rt.validateSnapshot (rt.ofDocument (rt.document snapshot)) = .ok snapshot := by
  have value : rt.ofDocument (rt.document snapshot) = .dict [(.str "overall", .str snapshot.overall),
      (.str "schemaVersion", .int 1), (.str "sha256", .str (rt.checksum snapshot)),
      (.str "states", .list (rt.ofItems (snapshot.states.map Feature.document))),
      (.str "summary", rt.ofDocument snapshot.summary)] := by
    simp [Platform.document, Runtime.ofDocument, Runtime.ofMembers, dictOf, insertEntry, Key.named]
  have keys : hasKeys snapshotKeys (rt.ofDocument (rt.document snapshot)) = true := by
    rw [value]
    simp [hasKeys, snapshotKeys, Key.named]
  have states : (rt.ofDocument (rt.document snapshot)).get "states" =
      .list (rt.ofItems (snapshot.states.map Feature.document)) := by
    rw [value]
    rfl
  unfold validateSnapshot
  rw [keys, states, if_neg (by decide), result_bind]
  refine ⟨snapshot, snapshot_written valid, ?_⟩
  rw [result_bind]
  exact ⟨_, dumps_settled (settled_document snapshot), if_neg fun differs => differs rfl⟩

theorem settled_changes (changes : List Change) : rt.Settled (changesDocument changes) := by
  unfold changesDocument
  rw [Runtime.Settled]
  induction changes with
  | nil => trivial
  | cons change rest ih =>
    refine ⟨⟨?_, trivial, trivial, trivial, trivial, trivial, trivial, trivial⟩, ih⟩
    change ["activeAfter", "activeBefore", "direction", "from", "id", "to"].Pairwise (· < ·)
    decide

theorem direction_inj {first second : Direction} (same : first.text = second.text) : first = second := by
  cases first <;> cases second <;> first | rfl | exact absurd same (by decide)

theorem hasDirection_written (direction : Direction) (changes : List Change) :
    hasDirection direction (rt.ofDocument (changesDocument changes)) =
      changes.any fun change => change.direction = direction := by
  unfold changesDocument
  rw [Runtime.ofDocument]
  unfold hasDirection
  dsimp only
  induction changes with
  | nil => rfl
  | cons change rest ih =>
    rw [map_cons, Runtime.ofItems, any_cons, any_cons, ih]
    have value : (rt.ofDocument change.document).get "direction" = .str change.direction.text := by
      simp [Change.document, Runtime.ofDocument, Runtime.ofMembers, dictOf, insertEntry, Key.named,
        Value.get, Value.get?]
    rw [value]
    congr 1
    exact decide_eq_decide.mpr ⟨direction_inj, fun same => congrArg Direction.text same⟩

end Platform

end Dash.Readiness
