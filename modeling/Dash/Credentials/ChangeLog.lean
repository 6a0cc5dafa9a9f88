import Dash.Foundation.Chain
import Dash.Python.Bytes
import Dash.Python.Plain
import Mathlib.Data.List.Dedup
import Mathlib.Data.List.Destutter

/-! The observation store of the credential lifecycle: a chained ledger of changes of material, and
an anchor file that names its head. The log of a run has for each credential a baseline and one rotation for
each change, as long as no call raises between the commit of a new event and the anchor that names it.

A call can raise at any point. What it has committed by then stays, and so does the anchor it has
put in place. The codes are idealised, and with them the shape that a code is checked for.
-/

set_option autoImplicit false

namespace Dash.Credentials

open Dash.Python Dash.Foundation

inductive EventType where
  | baseline | rotation
  deriving DecidableEq, Repr

def EventType.text : EventType → String
  | .baseline => "baseline"
  | .rotation => "rotation"

/-- A row of `observations`. -/
structure Row (T : Type) where
  sequence : Int
  credentialId : String
  eventType : EventType
  observedAt : T
  materialHmac : String
  previousEventHmac : Option String
  eventHmac : String

structure Anchor (T : Type) where
  headSequence : Int
  headEventHmac : Option String
  updatedAt : T
  anchorHmac : String

structure Disk (T : Type) where
  rows : List (Row T)
  anchor : Option (Anchor T)

def Disk.empty (T : Type) : Disk T := ⟨[], none⟩

structure Platform (T : Type) where
  /-- `hmac.new(key, bytes, sha256).hexdigest()` -/
  mac : List UInt8 → String
  /-- `[0-9a-f]{64}` -/
  isDigest : String → Bool
  mac_digest : ∀ bytes, isDigest (mac bytes) = true
  epoch : T → FloatText
  /-- `_utc` -/
  utc : T → String

/-- Where a call raises: before it has put an anchor in place, after that and before the commit,
between the commit and the new anchor, or after all its effects. A point that the call does not
reach is none. -/
inductive Fault where
  | never
  | early (why : Exception)
  | opened (why : Exception)
  | between (why : Exception)
  | late (why : Exception)

/-- An observation, the times it reads and where it raises. -/
structure Call (T : Type) where
  credentialId : String
  material : List UInt8
  (openedAt observedAt : T)
  fault : Fault

/-- What `observe` returns. -/
structure Observation (T : Type) where
  changed : Bool
  eventType : Option EventType
  lastChangedAt : T

/-- What `status` returns. -/
structure Status (T : Type) where
  (events rotations : Nat)
  headHmacPresent : Bool
  anchorUpdatedAt : String
  lastChangedAt : List (String × Option T)

variable {T : Type}

def stringOrNull : Option String → Document
  | some text => .str text
  | none => .null

/-- `_canonical` of a document whose members are listed in the order of their names. -/
def canonical (members : List (String × Document)) : List UInt8 :=
  utf8 (String.ofList ((Document.object members).text true))

namespace Platform

variable (rt : Platform T)

/-- `_event_document` and its code. -/
def eventHmac (row : Row T) : String :=
  rt.mac (canonical [("credentialId", .str row.credentialId),
    ("eventType", .str row.eventType.text), ("materialHmac", .str row.materialHmac),
    ("observedAt", .float (rt.epoch row.observedAt)),
    ("previousEventHmac", stringOrNull row.previousEventHmac), ("sequence", .int row.sequence)])

/-- `_anchor_document` and its code. -/
def anchorHmac (anchor : Anchor T) : String :=
  rt.mac (utf8 "anchor\x00" ++ canonical [("headEventHmac", stringOrNull anchor.headEventHmac),
    ("headSequence", .int anchor.headSequence), ("schemaVersion", .int 1),
    ("updatedAt", .float (rt.epoch anchor.updatedAt))])

def materialHmac (credentialId : String) (material : List UInt8) : String :=
  rt.mac (utf8 "material\x00" ++ utf8 credentialId ++ utf8 "\x00" ++ material)

/-- What `_write_anchor` puts in place. -/
def anchorOf (sequence : Int) (eventHmac : Option String) (updatedAt : T) : Anchor T :=
  let draft : Anchor T := ⟨sequence, eventHmac, updatedAt, ""⟩
  { draft with anchorHmac := rt.anchorHmac draft }

def readAnchor (disk : Disk T) : Result (Anchor T) :=
  match disk.anchor with
  | none => valueError "credential lifecycle head anchor must be a private regular file"
  | some anchor =>
    if anchor.headSequence < 0 then
      valueError "credential lifecycle head anchor values are invalid"
    else if anchor.headEventHmac.any (fun digest => !rt.isDigest digest) then
      valueError "credential lifecycle head anchor event HMAC is invalid"
    else if anchor.anchorHmac ≠ rt.anchorHmac anchor then
      valueError "credential lifecycle head anchor authentication failed"
    else .ok anchor

def ensureAnchor (now : T) (disk : Disk T) : Result (Disk T) :=
  if disk.anchor.isSome then .ok disk
  else if disk.rows.length ≠ 0 then
    valueError "credential lifecycle head anchor is missing for a non-empty ledger"
  else .ok { disk with anchor := some (rt.anchorOf 0 none now) }

/-- The loop of `_verify` over the rows. -/
def verifyRows (previous : Option String) (events rotations : Nat) :
    List (Row T) → Result (Option String × Nat × Nat)
  | [] => .ok (previous, events, rotations)
  | row :: rest =>
    if row.previousEventHmac ≠ previous ∨ row.eventHmac ≠ rt.eventHmac row then
      valueError ("credential observation chain invalid at sequence " ++ toString row.sequence)
    else
      verifyRows (some row.eventHmac) (events + 1)
        (if row.eventType = .rotation then rotations + 1 else rotations) rest

/-- `_verify`: the head, how many events and rotations, and when the anchor was written. -/
def verify (disk : Disk T) : Result (Option String × Nat × Nat × T) := do
  let (previous, events, rotations) ← rt.verifyRows none 0 0 disk.rows
  let anchor ← rt.readAnchor disk
  if anchor.headSequence ≠ events ∨ anchor.headEventHmac ≠ previous then
    valueError "credential lifecycle database head does not match the authenticated anchor"
  else .ok (previous, events, rotations, anchor.updatedAt)

/-- `order by sequence desc limit 1` of one credential -/
def latest (rows : List (Row T)) (credentialId : String) : Option (Row T) :=
  (rows.filter fun row => row.credentialId = credentialId).getLast?

/-- The row that `observe` inserts. -/
def nextRow (call : Call T) (rows : List (Row T)) : Row T :=
  let draft : Row T := {
    sequence := (rows.getLast?.map Row.sequence).getD 0 + 1
    credentialId := call.credentialId
    eventType := if (latest rows call.credentialId).isSome then .rotation else .baseline
    observedAt := call.observedAt
    materialHmac := rt.materialHmac call.credentialId call.material
    previousEventHmac := rows.getLast?.map Row.eventHmac
    eventHmac := "" }
  { draft with eventHmac := rt.eventHmac draft }

/-- The end of `observe`: the commit and the new anchor. -/
def record (call : Call T) (disk : Disk T) : Result (Observation T) × Disk T :=
  let row := rt.nextRow call disk.rows
  if row.eventHmac ∈ disk.rows.map Row.eventHmac then
    (.error ⟨.integrityError, "UNIQUE constraint failed: observations.event_hmac"⟩, disk)
  else
    let committed := { disk with rows := disk.rows ++ [row] }
    let anchored := { committed with
      anchor := some (rt.anchorOf row.sequence (some row.eventHmac) call.observedAt) }
    match call.fault with
    | .between why => (.error why, committed)
    | .late why => (.error why, anchored)
    | _ => (.ok ⟨true, some row.eventType, call.observedAt⟩, anchored)

/-- `observe`, where a point of the failure is after an anchor was ensured. -/
def observeOpened (call : Call T) (disk : Disk T) : Result (Observation T) × Disk T :=
  match rt.verify disk with
  | .error why => (.error why, disk)
  | .ok _ =>
    match latest disk.rows call.credentialId with
    | none => rt.record call disk
    | some row =>
      if row.materialHmac = rt.materialHmac call.credentialId call.material then
        (.ok ⟨false, none, row.observedAt⟩, disk)
      else rt.record call disk

def observe (call : Call T) (disk : Disk T) : Result (Observation T) × Disk T :=
  match call.fault with
  | .early why => (.error why, disk)
  | fault =>
    match rt.ensureAnchor call.openedAt disk with
    | .error why => (.error why, disk)
    | .ok disk =>
      match fault with
      | .opened why => (.error why, disk)
      | _ => rt.observeOpened call disk

/-- `status`: what it returns, and the disk with an anchor. -/
def status [Max T] (now : T) (disk : Disk T) : Result (Status T × Disk T) := do
  let disk ← rt.ensureAnchor now disk
  let (previous, events, rotations, updatedAt) ← rt.verify disk
  .ok ({
    events := events
    rotations := rotations
    headHmacPresent := previous.isSome
    anchorUpdatedAt := rt.utc updatedAt
    lastChangedAt := (disk.rows.map Row.credentialId).dedup.map fun credentialId =>
      (credentialId, ((disk.rows.filter fun row => row.credentialId = credentialId).map
        Row.observedAt).max?) }, disk)

def run (calls : List (Call T)) : Disk T :=
  calls.foldl (fun disk call => (rt.observe call disk).2) (.empty T)

end Platform

end Dash.Credentials

namespace Dash.Python

open List

theorem utf8_injective {first second : String} (same : utf8 first = utf8 second) : first = second := by
  have read := fromUTF8_utf8 first
  rw [same, fromUTF8_utf8] at read
  exact (Option.some.inj read).symm

end Dash.Python

namespace Dash.Credentials

open Dash.Python Dash.Foundation List

variable {T : Type}

theorem canonical_injective {first second : List (String × Document)}
    (same : canonical first = canonical second) : first = second := by
  have documents := Runtime.ofList_text_injective true (utf8_injective same)
  exact Document.object.inj documents

def head (rows : List (Row T)) : Option String := rows.getLast?.map Row.eventHmac

theorem head_concat (rows : List (Row T)) (row : Row T) : head (rows ++ [row]) = some row.eventHmac := by
  simp [head]

theorem foldl_head (rows : List (Row T)) : rows.foldl (fun _ row => some row.eventHmac) none = head rows := by
  induction rows using List.reverseRecOn with
  | nil => rfl
  | append_singleton rows row ih => rw [foldl_append, head_concat]; rfl

namespace Platform

variable (rt : Platform T)

def Bound (previous : Option String) (row : Row T) : Prop :=
  row.previousEventHmac = previous ∧ row.eventHmac = rt.eventHmac row

structure Chained (rows : List (Row T)) : Prop where
  chain : Sound (fun _ row => some row.eventHmac) rt.Bound none rows
  last : (rows.getLast?.map Row.sequence).getD 0 = rows.length
  earlier : ∀ row ∈ rows, row.sequence ≤ rows.length ∧ row.eventHmac = rt.eventHmac row

def Anchored (disk : Disk T) : Prop :=
  ∃ updatedAt, disk.anchor = some (rt.anchorOf disk.rows.length (head disk.rows) updatedAt)

def Level (disk : Disk T) : Prop := disk = .empty T ∨ rt.Anchored disk

variable {rows : List (Row T)}

theorem verifyRows_sound {previous : Option String} {events rotations : Nat}
    (chain : Sound (fun _ row => some row.eventHmac) rt.Bound previous rows) :
    ∃ count, rt.verifyRows previous events rotations rows =
      .ok (rows.foldl (fun _ row => some row.eventHmac) previous, events + rows.length, count) := by
  induction rows generalizing previous events rotations with
  | nil => exact ⟨rotations, rfl⟩
  | cons row rest ih =>
    obtain ⟨⟨named, coded⟩, chain⟩ := chain
    have passes : ¬ (row.previousEventHmac ≠ previous ∨ row.eventHmac ≠ rt.eventHmac row) := by
      rintro (other | other)
      · exact other named
      · exact other coded
    obtain ⟨count, counted⟩ := @ih (some row.eventHmac) (events + 1)
      (if row.eventType = .rotation then rotations + 1 else rotations) chain
    refine ⟨count, ?_⟩
    rw [verifyRows, if_neg passes, counted, foldl_cons, length_cons]
    congr 3
    omega

theorem verifyRows_events {previous digest : Option String} {events rotations count number : Nat}
    (verified : rt.verifyRows previous events rotations rows = .ok (digest, number, count)) :
    number = events + rows.length := by
  induction rows generalizing previous events rotations with
  | nil =>
    cases verified
    rfl
  | cons row rest ih =>
    rw [verifyRows, result_refuse] at verified
    rw [ih verified.2, length_cons]
    omega

variable {disk : Disk T}

theorem readAnchor_anchored (chained : rt.Chained disk.rows) {updatedAt : T}
    (anchored : disk.anchor = some (rt.anchorOf disk.rows.length (head disk.rows) updatedAt)) :
    rt.readAnchor disk = .ok (rt.anchorOf disk.rows.length (head disk.rows) updatedAt) := by
  have shaped : ¬ (head disk.rows).any (fun digest => !rt.isDigest digest) = true := by
    intro odd
    obtain ⟨digest, named, bad⟩ := (Option.any_eq_true _ _).mp odd
    obtain ⟨row, last, rfl⟩ := Option.map_eq_some_iff.mp named
    rw [(chained.earlier row (List.mem_of_getLast? last)).2, eventHmac, rt.mac_digest] at bad
    cases bad
  have counted : ¬ ((disk.rows.length : Int) < 0) := by omega
  rw [readAnchor, anchored]
  exact result_refuse.mpr ⟨counted, result_refuse.mpr ⟨shaped, result_refuse.mpr ⟨not_not.mpr rfl, rfl⟩⟩⟩

theorem verify_anchored (chained : rt.Chained disk.rows)
    (anchored : rt.Anchored disk) : ∃ result, rt.verify disk = .ok result := by
  obtain ⟨updatedAt, anchored⟩ := anchored
  have sound : ∃ count, rt.verifyRows none 0 0 disk.rows = .ok (_, 0 + disk.rows.length, count) :=
    rt.verifyRows_sound chained.chain
  rw [foldl_head, Nat.zero_add] at sound
  obtain ⟨count, counted⟩ := sound
  refine ⟨(head disk.rows, disk.rows.length, count, updatedAt), ?_⟩
  refine result_bind.mpr ⟨_, counted, result_bind.mpr ⟨_, rt.readAnchor_anchored chained anchored, ?_⟩⟩
  exact if_neg (by simp [anchorOf])

theorem verify_behind {anchor : Anchor T} (named : disk.anchor = some anchor)
    (behind : anchor.headSequence ≠ disk.rows.length) : ∃ why, rt.verify disk = .error why := by
  cases verified : rt.verify disk with
  | error why => exact ⟨why, rfl⟩
  | ok result =>
    obtain ⟨⟨digest, number, count⟩, counted, rest⟩ := result_bind.mp verified
    obtain ⟨other, read, rest⟩ := result_bind.mp rest
    obtain ⟨agrees, -⟩ := result_refuse.mp rest
    have same : other = anchor := by
      rw [readAnchor, named] at read
      simp only [result_refuse] at read
      exact (Except.ok.inj read.2.2.2).symm
    rw [not_or, not_not, same, rt.verifyRows_events counted, Nat.zero_add] at agrees
    exact absurd agrees.1 behind

theorem ensureAnchor_level (level : rt.Level disk) (now : T) :
    ∃ opened, rt.ensureAnchor now disk = .ok opened ∧ opened.rows = disk.rows ∧
      rt.Anchored opened := by
  rcases level with rfl | anchored
  · exact ⟨⟨[], some (rt.anchorOf 0 none now)⟩, rfl, rfl, now, rfl⟩
  · obtain ⟨updatedAt, named⟩ := anchored
    refine ⟨disk, ?_, rfl, updatedAt, named⟩
    rw [ensureAnchor, if_pos (by simp [named])]

def Seen (call : Call T) (rows : List (Row T)) : Prop :=
  ∃ row, latest rows call.credentialId = some row ∧
    row.materialHmac = rt.materialHmac call.credentialId call.material

/-- The call does not raise between the commit of a new event and the anchor of it. -/
def Careful (call : Call T) (disk : Disk T) : Prop :=
  ∀ why, call.fault = .between why → rt.Seen call disk.rows

theorem eventHmac_sequence (injective : Function.Injective rt.mac) {first second : Row T}
    (same : rt.eventHmac first = rt.eventHmac second) : first.sequence = second.sequence := by
  have members := canonical_injective (injective same)
  simp only [List.cons.injEq, Prod.mk.injEq, Document.int.injEq] at members
  exact members.2.2.2.2.2.1.2

theorem materialHmac_injective (injective : Function.Injective rt.mac) (credentialId : String) :
    Function.Injective (rt.materialHmac credentialId) :=
  fun _ _ same => append_cancel_left (injective same)

theorem chained_concat (chained : rt.Chained rows) (call : Call T) : rt.Chained (rows ++ [rt.nextRow call rows]) := by
  have next : (rt.nextRow call rows).sequence = rows.length + 1 := congrArg (· + 1) chained.last
  refine ⟨chained.chain.concat ⟨?_, rfl⟩, ?_, ?_⟩
  · rw [foldl_head]
    rfl
  · simp [next]
  · intro row member
    rw [length_append, length_singleton]
    rcases mem_append.mp member with before | last
    · obtain ⟨bounded, coded⟩ := chained.earlier row before
      exact ⟨by omega, coded⟩
    · rw [mem_singleton.mp last]
      exact ⟨by omega, rfl⟩

theorem nextRow_fresh (injective : Function.Injective rt.mac) (chained : rt.Chained rows) (call : Call T) :
    (rt.nextRow call rows).eventHmac ∉ rows.map Row.eventHmac := by
  intro member
  obtain ⟨row, before, same⟩ := mem_map.mp member
  obtain ⟨bounded, coded⟩ := chained.earlier row before
  have numbers := rt.eventHmac_sequence injective (coded.symm.trans same)
  have next : (rt.nextRow call rows).sequence = rows.length + 1 := congrArg (· + 1) chained.last
  have own : row.sequence = (rt.nextRow call rows).sequence := numbers
  omega

/-- What a call does to a ledger that its anchor agrees with. -/
inductive Outcome (call : Call T) (disk : Disk T) : Result (Observation T) × Disk T → Prop where
  | raised (why : Exception) (after : Disk T) (loud : call.fault ≠ .never)
      (whole : ∀ why, call.fault ≠ .between why) (same : after.rows = disk.rows)
      (level : rt.Level after) : Outcome call disk (.error why, after)
  | unchanged (row : Row T) (after : Disk T) (seen : rt.Seen call disk.rows)
      (same : after.rows = disk.rows) (level : rt.Level after) :
      Outcome call disk (.ok ⟨false, none, row.observedAt⟩, after)
  | added (result : Result (Observation T)) (after : Disk T)
      (whole : ∀ why, call.fault ≠ .between why) (new : ¬ rt.Seen call disk.rows)
      (rows : after.rows = disk.rows ++ [rt.nextRow call disk.rows]) (anchored : rt.Anchored after)
      (returned : call.fault = .never → ∃ observation, result = .ok observation) :
      Outcome call disk (result, after)
  | stranded (why : Exception) (after : Disk T) (between : call.fault = .between why)
      (new : ¬ rt.Seen call disk.rows)
      (rows : after.rows = disk.rows ++ [rt.nextRow call disk.rows])
      (anchor : ∃ updatedAt, after.anchor = some (rt.anchorOf disk.rows.length (head disk.rows) updatedAt)) :
      Outcome call disk (.error why, after)

theorem record_outcome (injective : Function.Injective rt.mac) {call : Call T}
    {disk opened : Disk T} (chained : rt.Chained disk.rows) (same : opened.rows = disk.rows)
    (anchored : rt.Anchored opened) (new : ¬ rt.Seen call disk.rows) :
    rt.Outcome call disk (rt.record call opened) := by
  have fresh := rt.nextRow_fresh injective chained call
  have number : (rt.nextRow call disk.rows).sequence = disk.rows.length + 1 := congrArg (· + 1) chained.last
  rw [record, same, if_neg fresh]
  have level (updatedAt : T) : rt.Anchored ⟨disk.rows ++ [rt.nextRow call disk.rows],
      some (rt.anchorOf (rt.nextRow call disk.rows).sequence
        (some (rt.nextRow call disk.rows).eventHmac) updatedAt)⟩ := by
    refine ⟨updatedAt, ?_⟩
    simp [head_concat, number]
  cases fault : call.fault with
  | between why =>
    refine .stranded why _ fault new rfl ?_
    obtain ⟨updatedAt, named⟩ := anchored
    exact ⟨updatedAt, by rw [named, same]⟩
  | late why =>
    exact .added _ _ (by simp [fault]) new rfl (level _) (fun quiet => by simp [fault] at quiet)
  | _ => exact .added _ _ (by simp [fault]) new rfl (level _) (fun _ => ⟨_, rfl⟩)

theorem observe_outcome (injective : Function.Injective rt.mac) {call : Call T}
    (chained : rt.Chained disk.rows) (level : rt.Level disk) :
    rt.Outcome call disk (rt.observe call disk) := by
  obtain ⟨opened, ensured, same, anchored⟩ := rt.ensureAnchor_level level call.openedAt
  obtain ⟨verified, passes⟩ := rt.verify_anchored (same ▸ chained) anchored
  have after : rt.Outcome call disk (rt.observeOpened call opened) := by
    rw [observeOpened, passes, same]
    cases found : latest disk.rows call.credentialId with
    | none =>
      refine rt.record_outcome injective chained same anchored ?_
      rintro ⟨row, other, -⟩
      rw [found] at other
      cases other
    | some row =>
      simp only
      split
      next material =>
        exact .unchanged row opened ⟨row, found, material⟩ same (.inr anchored)
      next material =>
        refine rt.record_outcome injective chained same anchored ?_
        rintro ⟨other, present, again⟩
        rw [found] at present
        cases present
        exact material again
  rw [observe]
  split
  next why fault => exact .raised why disk (by simp [fault]) (by simp [fault]) rfl level
  next =>
    rw [ensured]
    simp only
    split
    next why fault => exact .raised why opened (by simp [fault]) (by simp [fault]) same (.inr anchored)
    next => exact after

end Platform

variable {T : Type}

section Changes

variable {α : Type} [DecidableEq α]

theorem destutter'_concat (first last : α) (items : List α) : (items ++ [last]).destutter' (· ≠ ·) first =
      if (items.destutter' (· ≠ ·) first).getLast? = some last then items.destutter' (· ≠ ·) first
      else items.destutter' (· ≠ ·) first ++ [last] := by
  induction items generalizing first with
  | nil => by_cases same : first = last <;> simp [same]
  | cons item rest ih =>
    rw [cons_append, destutter'_cons, destutter'_cons]
    split
    · have some : rest.destutter' (· ≠ ·) item ≠ [] := destutter'_ne_nil _ _
      rw [ih item, List.getLast?_cons, List.getLast?_eq_some_getLast some, Option.getD_some]
      split <;> rfl
    · exact ih first

theorem destutter_concat (items : List α) (last : α) : (items ++ [last]).destutter (· ≠ ·) =
      if (items.destutter (· ≠ ·)).getLast? = some last then items.destutter (· ≠ ·)
      else items.destutter (· ≠ ·) ++ [last] := by
  cases items with
  | nil => simp
  | cons first rest => exact destutter'_concat first last rest

end Changes

def labelled {α : Type} : List α → List (EventType × α)
  | [] => []
  | first :: rest => (.baseline, first) :: rest.map fun item => (.rotation, item)

theorem labelled_concat {α : Type} (items : List α) (last : α) : labelled (items ++ [last]) =
      labelled items ++ [(if items = [] then .baseline else .rotation, last)] := by
  cases items <;> simp [labelled]

/-- The events of a credential: what each is, and the code of the material. -/
def Disk.events (disk : Disk T) (credentialId : String) : List (EventType × String) :=
  (disk.rows.filter fun row => row.credentialId = credentialId).map fun row =>
    (row.eventType, row.materialHmac)

namespace Platform

variable (rt : Platform T)

def records (call : Call T) (disk : Disk T) : Bool :=
  match (rt.observe call disk).1 with
  | .ok _ => true
  | .error _ => decide (disk.rows.length < (rt.observe call disk).2.rows.length)

/-- The materials of a credential in its recorded observations, in their order. -/
def observed (credentialId : String) : List (Call T) → Disk T → List (List UInt8)
  | [], _ => []
  | call :: rest, disk =>
    (if call.credentialId = credentialId ∧ rt.records call disk = true then [call.material]
      else []) ++ observed credentialId rest (rt.observe call disk).2

/-- The store verifies, admits what comes next, and its events are the changes of the materials
that were observed. -/
structure Faithful [Max T] (calls : List (Call T)) : Prop where
  verifies : ∀ now, ∃ result, rt.status now (rt.run calls) = .ok result
  admits : ∀ call : Call T, call.fault = .never →
    ∃ observation, (rt.observe call (rt.run calls)).1 = .ok observation
  log : ∀ credentialId, (rt.run calls).events credentialId =
    labelled (((rt.observed credentialId calls (.empty T)).destutter (· ≠ ·)).map (rt.materialHmac credentialId))

variable {rt}

theorem run_concat (calls : List (Call T)) (call : Call T) :
    rt.run (calls ++ [call]) = (rt.observe call (rt.run calls)).2 := by
  rw [run, foldl_append]
  rfl

theorem observed_concat (credentialId : String) (calls : List (Call T)) (call : Call T) (disk : Disk T) :
    rt.observed credentialId (calls ++ [call]) disk = rt.observed credentialId calls disk ++
      if call.credentialId = credentialId ∧
        rt.records call (calls.foldl (fun disk call => (rt.observe call disk).2) disk) = true
      then [call.material] else [] := by
  induction calls generalizing disk with
  | nil =>
    rw [nil_append, observed, observed, observed, append_nil, nil_append]
    rfl
  | cons first rest ih =>
    rw [cons_append, observed, ih, observed, append_assoc]
    rfl

structure Kept (rt : Platform T) (calls : List (Call T)) : Prop where
  chained : rt.Chained (rt.run calls).rows
  level : rt.Level (rt.run calls)
  log : ∀ credentialId, (rt.run calls).events credentialId =
    labelled (((rt.observed credentialId calls (.empty T)).destutter (· ≠ ·)).map (rt.materialHmac credentialId))

theorem labelled_snd {α : Type} (items : List α) : (labelled items).map Prod.snd = items := by
  cases items <;> simp [labelled]

variable {calls : List (Call T)}

/-- The latest event of a credential has the material that was observed last. -/
theorem seen_iff (injective : Function.Injective rt.mac) (log : ∀ credentialId, (rt.run calls).events credentialId =
      labelled (((rt.observed credentialId calls (.empty T)).destutter (· ≠ ·)).map
        (rt.materialHmac credentialId))) (call : Call T) :
    rt.Seen call (rt.run calls).rows ↔
      ((rt.observed call.credentialId calls (.empty T)).destutter (· ≠ ·)).getLast? = some call.material := by
  have materials := congrArg (List.map Prod.snd) (log call.credentialId)
  rw [labelled_snd, Disk.events, map_map] at materials
  have last := congrArg List.getLast? materials
  rw [List.getLast?_map, List.getLast?_map] at last
  constructor
  · rintro ⟨row, found, same⟩
    rw [latest] at found
    rw [found] at last
    obtain ⟨material, end_, coded⟩ := Option.map_eq_some_iff.mp last.symm
    rw [end_]
    exact congrArg some (rt.materialHmac_injective injective _ (coded.trans same))
  · intro end_
    rw [end_] at last
    obtain ⟨row, found, coded⟩ := Option.map_eq_some_iff.mp last
    exact ⟨row, found, coded⟩

theorem Kept.empty : Kept rt [] where
  chained := ⟨trivial, rfl, fun _ member => nomatch member⟩
  level := .inl rfl
  log _ := rfl

variable {call : Call T}

/-- A call that leaves the rows as they are keeps the log, when it says nothing new. -/
theorem Kept.same_rows (kept : Kept rt calls) (injective : Function.Injective rt.mac)
    (same : (rt.observe call (rt.run calls)).2.rows = (rt.run calls).rows)
    (level : rt.Level (rt.observe call (rt.run calls)).2)
    (known : rt.records call (rt.run calls) = true → rt.Seen call (rt.run calls).rows) :
    Kept rt (calls ++ [call]) := by
  refine ⟨?_, ?_, fun credentialId => ?_⟩
  · rw [run_concat, same]
    exact kept.chained
  · rw [run_concat]
    exact level
  · have events : (rt.run (calls ++ [call])).events credentialId = (rt.run calls).events credentialId := by
      rw [Disk.events, run_concat, same]
      rfl
    rw [events, kept.log, observed_concat]
    split
    next own =>
      obtain ⟨rfl, recorded⟩ := own
      rw [destutter_concat, if_pos ((seen_iff injective kept.log call).mp (known recorded))]
    next => rw [append_nil]

theorem Kept.new_row (kept : Kept rt calls)
    (injective : Function.Injective rt.mac) (new : ¬ rt.Seen call (rt.run calls).rows)
    (rows : (rt.observe call (rt.run calls)).2.rows = (rt.run calls).rows ++ [rt.nextRow call (rt.run calls).rows])
    (anchored : rt.Anchored (rt.observe call (rt.run calls)).2) : Kept rt (calls ++ [call]) := by
  have recorded : rt.records call (rt.run calls) = true := by
    rw [records]
    split
    · rfl
    · exact decide_eq_true (by rw [rows, length_append, length_singleton]; omega)
  refine ⟨?_, ?_, fun credentialId => ?_⟩
  · rw [run_concat, rows]
    exact rt.chained_concat kept.chained call
  · rw [run_concat]
    exact .inr anchored
  · have before := kept.log credentialId
    rw [Disk.events] at before
    rw [Disk.events, run_concat, rows, filter_append, map_append, before, observed_concat]
    by_cases own : call.credentialId = credentialId
    · subst own
      have written : ([rt.nextRow call (rt.run calls).rows].filter fun row =>
          row.credentialId = call.credentialId) = [rt.nextRow call (rt.run calls).rows] := by
        simp [nextRow]
      rw [if_pos ⟨rfl, recorded⟩, destutter_concat,
        if_neg fun last => new ((seen_iff injective kept.log call).mpr last), map_append,
        map_singleton, labelled_concat, written, map_singleton]
      have first : (latest (rt.run calls).rows call.credentialId).isSome = true ↔
          ¬ ((rt.observed call.credentialId calls (.empty T)).destutter (· ≠ ·)).map
            (rt.materialHmac call.credentialId) = [] := by
        rw [← labelled_snd (List.map _ _), map_eq_nil_iff, ← kept.log, Disk.events,
          map_eq_nil_iff, latest, List.getLast?_isSome]
      have type : (rt.nextRow call (rt.run calls).rows).eventType =
          if ((rt.observed call.credentialId calls (.empty T)).destutter (· ≠ ·)).map
            (rt.materialHmac call.credentialId) = [] then .baseline else .rotation := by
        simp only [nextRow]
        by_cases nothing : ((rt.observed call.credentialId calls (.empty T)).destutter
            (· ≠ ·)).map (rt.materialHmac call.credentialId) = []
        · rw [if_pos nothing, if_neg (by rw [first]; exact not_not.mpr nothing)]
        · rw [if_neg nothing, if_pos (first.mpr nothing)]
      rw [type]
      rfl
    · have other : ([rt.nextRow call (rt.run calls).rows].filter fun row =>
          row.credentialId = credentialId) = [] := by
        simp [nextRow, own]
      rw [other, if_neg fun both => own both.1]
      simp

theorem Kept.next (kept : Kept rt calls)
    (injective : Function.Injective rt.mac) (careful : rt.Careful call (rt.run calls)) :
    Kept rt (calls ++ [call]) := by
  have outcome : rt.Outcome call _ _ := rt.observe_outcome injective kept.chained kept.level
  generalize same : rt.observe call (rt.run calls) = result at outcome
  cases outcome with
  | raised why after loud whole rows level =>
    refine kept.same_rows injective (by rw [same]; exact rows) (by rw [same]; exact level) ?_
    intro recorded
    simp [records, same, rows] at recorded
  | unchanged row after seen rows level =>
    exact kept.same_rows injective (by rw [same]; exact rows) (by rw [same]; exact level) fun _ => seen
  | added outcome after whole new rows anchored =>
    exact kept.new_row injective new (by rw [same]; exact rows) (by rw [same]; exact anchored)
  | stranded why after between new => exact absurd (careful why between) new

theorem run_kept (injective : Function.Injective rt.mac)
    (careful : ∀ before call, before ++ [call] <+: calls → rt.Careful call (rt.run before)) :
    Kept rt calls := by
  induction calls using List.reverseRecOn with
  | nil => exact .empty
  | append_singleton calls call ih =>
    refine (ih fun before other inside => careful before other ?_).next injective (careful calls call (prefix_refl _))
    exact inside.trans (prefix_append _ _)

theorem Kept.faithful [Max T] (injective : Function.Injective rt.mac) (kept : Kept rt calls) : rt.Faithful calls := by
  refine ⟨fun now => ?_, fun call quiet => ?_, kept.log⟩
  · obtain ⟨opened, ensured, same, anchored⟩ := rt.ensureAnchor_level kept.level now
    obtain ⟨verified, passes⟩ := rt.verify_anchored (same ▸ kept.chained) anchored
    exact ⟨_, result_bind.mpr ⟨opened, ensured, result_bind.mpr ⟨verified, passes, rfl⟩⟩⟩
  · have outcome : rt.Outcome call _ _ :=
      rt.observe_outcome injective kept.chained kept.level
    generalize rt.observe call (rt.run calls) = result at outcome ⊢
    cases outcome with
    | raised why after loud => exact absurd quiet loud
    | unchanged => exact ⟨_, rfl⟩
    | added outcome after whole new rows anchored returned => exact returned quiet
    | stranded why after between =>
      rw [quiet] at between
      cases between

/-- A call that is not careful leaves a store that does not verify. -/
theorem Kept.stranded [Max T] (kept : Kept rt calls)
    (injective : Function.Injective rt.mac) (careless : ¬ rt.Careful call (rt.run calls))
    (now : T) : ∃ why, rt.status now (rt.run (calls ++ [call])) = .error why := by
  simp only [Careful, not_forall] at careless
  obtain ⟨why, between, new⟩ := careless
  have outcome : rt.Outcome call _ _ := rt.observe_outcome injective kept.chained kept.level
  rw [run_concat]
  generalize rt.observe call (rt.run calls) = result at outcome
  cases outcome with
  | raised _ _ _ whole => exact absurd between (whole why)
  | unchanged _ _ seen => exact absurd seen new
  | added _ _ whole => exact absurd between (whole why)
  | stranded other after _ _ rows anchor =>
    obtain ⟨updatedAt, named⟩ := anchor
    have ensured : rt.ensureAnchor now after = .ok after := by
      rw [ensureAnchor, if_pos (by simp [named])]
    obtain ⟨reason, fails⟩ := rt.verify_behind named (by
      simp only [anchorOf, rows, length_append, length_singleton]
      omega)
    exact ⟨reason, result_bind_error.mpr (.inr ⟨after, ensured, result_bind_error.mpr (.inl fails)⟩)⟩

/-- The store is a faithful log in every state of a run if and only if no call of the run raises
between the commit of a new event and the anchor that names it. -/
theorem faithful_iff [Max T] (injective : Function.Injective rt.mac) (now : T) (calls : List (Call T)) :
    (∀ before, before <+: calls → rt.Faithful before) ↔
      ∀ before call, before ++ [call] <+: calls → rt.Careful call (rt.run before) := by
  constructor
  · intro faithful
    have step : ∀ before call, before ++ [call] <+: calls → Kept rt before → rt.Careful call (rt.run before) := by
      intro before call inside kept
      by_contra careless
      obtain ⟨why, fails⟩ := kept.stranded injective careless now
      obtain ⟨result, verifies⟩ := (faithful _ inside).verifies now
      cases fails.symm.trans verifies
    have kept : ∀ before, before <+: calls → Kept rt before := by
      intro before
      induction before using List.reverseRecOn with
      | nil => exact fun _ => .empty
      | append_singleton before call ih =>
        intro inside
        have earlier := ih ((prefix_append _ _).trans inside)
        exact earlier.next injective (step before call inside earlier)
    exact fun before call inside =>
      step before call inside (kept before ((prefix_append _ _).trans inside))
  · intro careful before inside
    exact (run_kept injective fun first call within =>
      careful first call (within.trans inside)).faithful injective

end Platform

def plain : Platform Int where
  mac bytes := String.ofList (bytes.map fun byte => Char.ofNat byte.toNat)
  isDigest _ := true
  mac_digest _ := rfl
  epoch seconds := .decimal (decide (seconds < 0)) seconds.natAbs (.fraction digitZero)
  utc seconds := toString seconds

theorem plain_injective : Function.Injective plain.mac := by
  intro first second same
  have letters : Function.Injective fun byte : UInt8 => Char.ofNat byte.toNat := by
    intro first second same
    have code (byte : UInt8) : (Char.ofNat byte.toNat).toNat = byte.toNat := by
      have valid : byte.toNat.isValidChar := .inl (Nat.lt_trans byte.toNat_lt (by decide))
      rw [Char.ofNat, dif_pos valid]
      rfl
    have numbers := congrArg Char.toNat same
    simp only [code] at numbers
    exact UInt8.toNat_inj.mp numbers
  exact map_injective_iff.mpr letters (String.ofList_injective same)

def passwordSeen (material : List UInt8) (now : Int) (fault : Fault) : Call Int :=
  ⟨"game-database", material, now, now, fault⟩

theorem faithful_iff_rotation : plain.Faithful [passwordSeen [1] 10 .never, passwordSeen [2] 20 .never] := by
  refine (Platform.faithful_iff plain_injective 0 _).mpr ?_ _ (prefix_refl _)
  intro before call inside why between
  have member := inside.subset (mem_append_right before (mem_singleton_self call))
  rcases mem_cons.mp member with rfl | last
  · cases between
  · rw [mem_singleton.mp last] at between
    cases between

def interrupted : List (Call Int) :=
  [passwordSeen [1] 10 (.between ⟨.runtimeError, "no space left on device"⟩)]

theorem interrupted_not_faithful : ¬ plain.Faithful interrupted := by
  intro faithful
  have careless : ¬ plain.Careful (passwordSeen [1] 10
      (.between ⟨.runtimeError, "no space left on device"⟩)) (plain.run []) := by
    intro careful
    obtain ⟨row, found, -⟩ := careful _ rfl
    cases found
  obtain ⟨why, fails⟩ := Platform.Kept.empty.stranded plain_injective careless 20
  obtain ⟨result, verifies⟩ := faithful.verifies 20
  cases fails.symm.trans verifies

end Dash.Credentials
