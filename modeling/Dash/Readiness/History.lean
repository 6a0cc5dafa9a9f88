import Dash.Python.Plain
import Dash.Readiness.Diff
import Mathlib.Data.List.Chain
import Mathlib.Tactic.FinCases

/-! The history as a compressed log of the snapshots that were recorded. -/

set_option autoImplicit false

namespace Dash.Readiness

open Dash.Python Dash.Foundation List
open Foundation.Transaction (bind_ok check_ok lift_bind read_bind)

variable {F : Type}

def compress (snapshots : List Snapshot) : List Snapshot :=
  snapshots.foldl (fun kept snapshot =>
    if kept.getLast? = some snapshot then kept else kept ++ [snapshot]) []

theorem compress_snoc (snapshots : List Snapshot) (snapshot : Snapshot) : compress (snapshots ++ [snapshot]) =
      if (compress snapshots).getLast? = some snapshot then compress snapshots
      else compress snapshots ++ [snapshot] := by
  unfold compress
  rw [foldl_append]
  rfl

theorem compress_distinct (snapshots : List Snapshot) :
    (compress snapshots).IsChain fun first second => first ≠ second := by
  induction snapshots using List.reverseRecOn with
  | nil => exact isChain_nil
  | append_singleton snapshots snapshot ih =>
    rw [compress_snoc]
    split
    · exact ih
    · rename_i fresh
      rw [isChain_append]
      refine ⟨ih, isChain_singleton _, ?_⟩
      intro last found first begins same
      apply fresh
      rw [List.head?_singleton] at begins
      rw [Option.mem_def] at found begins
      rw [found, same, begins]

namespace Platform

variable {rt : Platform F}

def eventDocument (rt : Platform F) (row : Transition F) (snapshot changes : Document) : Document :=
  .object [("changes", changes), ("commit", .str row.commit), ("kind", .str row.kind.text),
    ("previousHmac", (row.previousHmac.map Document.str).getD .null),
    ("recordedAt", .float (rt.floatText row.recordedAt)), ("sequence", .int row.sequence),
    ("snapshot", snapshot), ("snapshotSha256", .str row.snapshotSha256),
    ("source", .str row.source)]

theorem eventText_written {row : Transition F} {snapshot changes : Document}
    (first : row.snapshotJson = canonicalText snapshot)
    (second : row.changesJson = canonicalText changes) (one : rt.Settled snapshot)
    (two : rt.Settled changes) :
    rt.eventText row = .ok (canonicalText (rt.eventDocument row snapshot changes)) := by
  have settled : rt.Settled (rt.eventDocument row snapshot changes) := by
    refine ⟨?_, two, trivial, trivial, ?_, ?_, trivial, one, trivial, trivial, trivial⟩
    · change ["changes", "commit", "kind", "previousHmac", "recordedAt", "sequence", "snapshot",
        "snapshotSha256", "source"].Pairwise (· < ·)
      decide
    · cases row.previousHmac <;> trivial
    · change rt.floatText (rt.floatOf (rt.floatText row.recordedAt)) = rt.floatText row.recordedAt
      rw [rt.floatOf_text]
  have value : eventValue row (rt.ofDocument snapshot) (rt.ofDocument changes) =
      rt.ofDocument (rt.eventDocument row snapshot changes) := by
    have previous : rt.ofDocument ((row.previousHmac.map Document.str).getD .null) =
        Value.ofOption row.previousHmac := by
      cases row.previousHmac <;> rfl
    unfold eventDocument eventValue
    rw [Runtime.ofDocument]
    simp only [Runtime.ofMembers, previous, Runtime.ofDocument, rt.floatOf_text]
    rw [dictOf_named (by
      change ["changes", "commit", "kind", "previousHmac", "recordedAt", "sequence", "snapshot",
        "snapshotSha256", "source"].Nodup
      decide)]
    rfl
  unfold eventText
  rw [first, second, result_bind]
  refine ⟨_, loads_canonical snapshot, ?_⟩
  rw [result_bind]
  refine ⟨_, loads_canonical changes, ?_⟩
  rw [value]
  exact dumps_settled settled

def changesFrom (previous : Option Snapshot) (current : Snapshot) : List Change :=
  (previous.map fun previous => changesOf previous current).getD []

def kindFrom (previous : Option Snapshot) (current : Snapshot) : Kind :=
  match previous with
  | none => .baseline
  | some previous =>
    kindOf ((changesOf previous current).any fun change => change.direction = .regression)
      ((changesOf previous current).any fun change => change.direction = .improvement)

variable {current : Snapshot}

theorem transitionKind_written {previous : Option Snapshot}
    (moved : previous.map rt.checksum ≠ some (rt.checksum current)) :
    rt.transitionKind previous current (rt.ofDocument (changesDocument (changesFrom previous current))) =
      .ok (kindFrom previous current) := by
  unfold transitionKind
  cases previous with
  | none => rfl
  | some previous =>
    have apart : rt.checksum previous ≠ rt.checksum current := fun same => moved (congrArg some same)
    simp only [changesFrom, Option.map_some, Option.getD_some]
    rw [result_bind]
    refine ⟨_, dumps_settled (settled_changes _), ?_⟩
    rw [if_neg fun differs => differs rfl, if_neg apart, hasDirection_written, hasDirection_written]
    rfl

def storedRow (rt : Platform F) (seen : Seen) (current : Snapshot) (source commit : String)
    (now : F) : Transition F :=
  let row := rt.rowOf seen current (changesFrom seen.snapshot current)
    (kindFrom seen.snapshot current) source commit now
  { row with eventHmac := rt.mac (canonicalText (rt.eventDocument row (rt.document current)
    (changesDocument (changesFrom seen.snapshot current)))) }

def seenOf (rows : List (Transition F)) (snapshots : List Snapshot) : Seen :=
  ⟨rows.length, rows.getLast?.map Transition.eventHmac, snapshots.getLast?⟩

inductive Recorded (rt : Platform F) : List (Transition F) → List Snapshot → Prop where
  | nil : Recorded rt [] []
  | snoc {rows : List (Transition F)} {snapshots : List Snapshot} (current : Snapshot)
      (source commit : String) (now : F) : Recorded rt rows snapshots → current.Valid →
      snapshots.getLast?.map rt.checksum ≠ some (rt.checksum current) →
      Recorded rt (rows ++ [rt.storedRow (seenOf rows snapshots) current source commit now])
        (snapshots ++ [current])

theorem verifyRows_append (seen : Seen) (first second : List (Transition F)) :
    rt.verifyRows seen (first ++ second) = (do
      match ← rt.verifyRows seen first with
      | none => .ok none
      | some middle => rt.verifyRows middle second) := by
  induction first generalizing seen with
  | nil => rfl
  | cons row rest ih =>
    rw [cons_append, verifyRows, verifyRows]
    cases checked : rt.checkRow seen row with
    | error why => rfl
    | ok found =>
      cases found with
      | none => rfl
      | some snapshot => exact ih _

theorem verifyRows_snoc {seen middle : Seen} {first : List (Transition F)} {row : Transition F}
    (begun : rt.verifyRows seen first = .ok (some middle))
    (checked : rt.checkRow middle row = .ok (some current)) :
    rt.verifyRows seen (first ++ [row]) = .ok (some ⟨middle.count + 1, some row.eventHmac, some current⟩) := by
  have last : rt.verifyRows middle [row] = .ok (some ⟨middle.count + 1, some row.eventHmac, some current⟩) := by
    rw [verifyRows, checked]
    rfl
  rw [verifyRows_append, begun]
  exact last

/-- A stored row is accepted after the rows it was stored for. -/
theorem checkRow_stored {seen : Seen} (valid : current.Valid)
    (moved : seen.snapshot.map rt.checksum ≠ some (rt.checksum current)) (source commit : String)
    (now : F) :
    rt.checkRow seen (rt.storedRow seen current source commit now) = .ok (some current) := by
  have text : rt.eventText (rt.storedRow seen current source commit now) = .ok (canonicalText
      (rt.eventDocument (rt.storedRow seen current source commit now) (rt.document current)
        (changesDocument (changesFrom seen.snapshot current)))) :=
    eventText_written rfl rfl (settled_document current) (settled_changes _)
  unfold checkRow
  rw [result_bind]
  refine ⟨_, text, ?_⟩
  rw [result_bind]
  refine ⟨_, loads_canonical (rt.document current), ?_⟩
  rw [result_bind]
  refine ⟨current, validateSnapshot_written valid, ?_⟩
  rw [result_bind]
  refine ⟨_, loads_canonical (changesDocument (changesFrom seen.snapshot current)), ?_⟩
  rw [result_bind]
  refine ⟨_, transitionKind_written moved, ?_⟩
  rw [if_pos]
  exact ⟨rfl, rfl, rfl, rfl⟩

variable {rows : List (Transition F)} {snapshots : List Snapshot}

theorem Recorded.verified (recorded : rt.Recorded rows snapshots) :
    rt.verifyRows ⟨0, none, none⟩ rows = .ok (some (seenOf rows snapshots)) := by
  induction recorded with
  | nil => rfl
  | snoc current source commit now before valid moved ih =>
    rename_i rows snapshots
    rw [verifyRows_snoc ih (checkRow_stored valid moved source commit now)]
    simp [seenOf]

theorem feature_document_inj {first second : Feature} (same : first.document = second.document) :
    first = second := by
  have texts : ∀ one two : State, one.text = two.text → one = two := by
    intro one two same
    have found := congrArg State.ofText same
    rw [State.ofText_text, State.ofText_text] at found
    exact Option.some.inj found
  simp only [Feature.document, Document.object.injEq, List.cons.injEq, Prod.mk.injEq, true_and,
    Document.bool.injEq, Document.str.injEq, and_true] at same
  cases first
  cases second
  obtain ⟨active, id, state⟩ := same
  cases active
  cases id
  cases texts _ _ state
  rfl

theorem checksum_inj (collisionFree : Function.Injective rt.sha256) {first second : Snapshot}
    (same : rt.checksum first = rt.checksum second) : first = second := by
  have documents := Runtime.ofList_text_injective true (collisionFree same)
  simp only [Snapshot.unsigned, Document.object.injEq, List.cons.injEq, Prod.mk.injEq, true_and,
    Document.array.injEq] at documents
  have states := map_injective_iff.mpr (fun _ _ => feature_document_inj) documents.2.1
  cases first
  cases second
  cases states
  rfl

theorem Recorded.signed (recorded : rt.Recorded rows snapshots) : ∀ row ∈ rows, row.sequence ≤ rows.length ∧
      ∃ other snapshot changes, other.sequence = row.sequence ∧
        row.eventHmac = rt.mac (canonicalText (rt.eventDocument other snapshot changes)) := by
  induction recorded with
  | nil => exact fun _ member => absurd member (not_mem_nil)
  | snoc current source commit now before valid moved ih =>
    intro row member
    rw [length_append]
    rcases mem_append.mp member with old | new
    · exact ⟨Nat.le_succ_of_le (ih row old).1, (ih row old).2⟩
    · rw [mem_singleton.mp new]
      exact ⟨Nat.le_refl _, _, _, _, rfl, rfl⟩

theorem sequence_of_text {first second : Transition F} {one two three four : Document}
    (same : canonicalText (rt.eventDocument first one two) =
      canonicalText (rt.eventDocument second three four)) : first.sequence = second.sequence := by
  have documents := Runtime.ofList_text_injective true same
  simp only [eventDocument, Document.object.injEq, List.cons.injEq, Prod.mk.injEq, true_and,
    Document.int.injEq] at documents
  exact Int.ofNat.inj documents.2.2.2.2.2.1

theorem append_recorded (injective : Function.Injective rt.mac) (collisionFree : Function.Injective rt.sha256)
    (recorded : rt.Recorded rows snapshots) (current : Snapshot)
    (source commit : String) (now : F) :
    ∃ outcome, rt.append (seenOf rows snapshots) current source commit now ⟨rows⟩ =
      .ok (outcome, if snapshots.getLast? = some current then ⟨rows⟩ else
        ⟨rows ++ [rt.storedRow (seenOf rows snapshots) current source commit now]⟩) := by
  by_cases repeated : snapshots.getLast? = some current
  · refine ⟨.unchanged rows.length, ?_⟩
    unfold append
    rw [if_pos repeated, if_pos]
    · rfl
    · exact congrArg (Option.map rt.checksum) repeated
  · have moved : (seenOf rows snapshots).snapshot.map rt.checksum ≠ some (rt.checksum current) := by
      intro same
      obtain ⟨last, found, equal⟩ := Option.map_eq_some_iff.mp same
      rw [checksum_inj collisionFree equal] at found
      exact repeated found
    refine ⟨.changed (rows.length + 1) (kindFrom snapshots.getLast? current), ?_⟩
    rw [if_neg repeated]
    unfold append
    rw [if_neg moved]
    refine lift_bind.mpr ⟨_, transitionKind_written moved, ?_⟩
    refine lift_bind.mpr ⟨_, eventText_written rfl rfl (settled_document current) (settled_changes _), ?_⟩
    rw [read_bind]
    refine bind_ok.mpr ⟨(), ⟨rows⟩, check_ok.mpr ⟨?_, rfl⟩, rfl⟩
    rw [decide_eq_true_eq]
    intro taken
    obtain ⟨row, member, same⟩ := mem_map.mp taken
    obtain ⟨bounded, other, one, two, sequence, hmac⟩ := recorded.signed row member
    rw [hmac] at same
    have number := sequence_of_text (injective same)
    change other.sequence = rows.length + 1 at number
    omega

structure Accepted (rt : Platform F) (call : Call F) (current : Snapshot) (source commit : String) :
    Prop where
  sourceText : boundedText call.source "history source" 80 = .ok source
  commitText : boundedText call.commit "history commit" 80 = .ok commit
  named : isCommit commit = true
  status : rt.snapshot call.status = .ok current

theorem record_recorded (injective : Function.Injective rt.mac) (collisionFree : Function.Injective rt.sha256)
    (recorded : rt.Recorded rows snapshots) {call : Call F}
    {source commit : String} (accepted : rt.Accepted call current source commit) :
    (rt.record call).commit ⟨rows⟩ = if snapshots.getLast? = some current then ⟨rows⟩ else
      ⟨rows ++ [rt.storedRow (seenOf rows snapshots) current source commit call.now]⟩ := by
  obtain ⟨outcome, appended⟩ := append_recorded injective collisionFree recorded current source commit call.now
  have done : rt.record call ⟨rows⟩ = .ok (outcome, if snapshots.getLast? = some current then
      ⟨rows⟩ else
      ⟨rows ++ [rt.storedRow (seenOf rows snapshots) current source commit call.now]⟩) := by
    refine lift_bind.mpr ⟨_, accepted.sourceText, ?_⟩
    refine lift_bind.mpr ⟨_, accepted.commitText, ?_⟩
    refine bind_ok.mpr ⟨(), ⟨rows⟩, check_ok.mpr ⟨accepted.named, rfl⟩, ?_⟩
    refine lift_bind.mpr ⟨_, accepted.status, ?_⟩
    rw [read_bind]
    exact lift_bind.mpr ⟨_, recorded.verified, appended⟩
  unfold Transaction.commit
  rw [done]

def inputs (rt : Platform F) (calls : List (Call F)) : List Snapshot :=
  calls.filterMap fun call => (rt.snapshot call.status).toOption

theorem run_recorded (injective : Function.Injective rt.mac)
    (collisionFree : Function.Injective rt.sha256) (calls : List (Call F))
    (accepted : ∀ call ∈ calls, ∃ current source commit, rt.Accepted call current source commit) :
    rt.Recorded (rt.run calls).transitions (compress (rt.inputs calls)) := by
  induction calls using List.reverseRecOn with
  | nil => exact Recorded.nil
  | append_singleton calls call ih =>
    have before := ih fun other member => accepted other (mem_append_left _ member)
    obtain ⟨current, source, commit, valid⟩ := accepted call (mem_append_right _ (mem_singleton.mpr rfl))
    have step : rt.run (calls ++ [call]) = (rt.record call).commit ⟨(rt.run calls).transitions⟩ := by
      unfold run
      rw [foldl_append]
      rfl
    have input : rt.inputs (calls ++ [call]) = rt.inputs calls ++ [current] := by
      unfold inputs
      rw [filterMap_append]
      simp [valid.status, Except.toOption]
    rw [step, input, compress_snoc, record_recorded injective collisionFree before valid]
    by_cases repeated : (compress (rt.inputs calls)).getLast? = some current
    · rw [if_pos repeated, if_pos repeated]
      exact before
    · rw [if_neg repeated, if_neg repeated]
      apply Recorded.snoc current source commit call.now before (snapshot_valid valid.status)
      intro same
      obtain ⟨last, found, equal⟩ := Option.map_eq_some_iff.mp same
      rw [checksum_inj collisionFree equal] at found
      exact repeated found

structure Describes (rt : Platform F) (previous : Option Snapshot) (current : Snapshot)
    (row : Transition F) : Prop where
  snapshot : (rt.loads row.snapshotJson >>= rt.validateSnapshot) = .ok current
  checksum : row.snapshotSha256 = rt.checksum current
  changes : row.changesJson = canonicalText (changesDocument (changesFrom previous current))
  kind : row.kind = kindFrom previous current

theorem Recorded.length (recorded : rt.Recorded rows snapshots) : rows.length = snapshots.length := by
  induction recorded with
  | nil => rfl
  | snoc current source commit now before valid moved ih => simp [ih]

theorem Recorded.describes (recorded : rt.Recorded rows snapshots) : ∀ (place : Nat) (row : Transition F),
      rows[place]? = some row → ∃ current, snapshots[place]? = some current ∧
        rt.Describes (if place = 0 then none else snapshots[place - 1]?) current row := by
  induction recorded with
  | nil => exact fun place row found => by simp at found
  | snoc current source commit now before valid moved ih =>
    rename_i rows snapshots
    intro place row found
    have same := before.length
    rcases Nat.lt_trichotomy place rows.length with inside | last | outside
    · rw [List.getElem?_append_left inside] at found
      obtain ⟨other, there, describes⟩ := ih place row found
      refine ⟨other, ?_, ?_⟩
      · rw [List.getElem?_append_left (by omega), there]
      · rw [List.getElem?_append_left (by omega)]
        exact describes
    · subst last
      rw [List.getElem?_append_right (Nat.le_refl _), Nat.sub_self] at found
      obtain rfl := Option.some.inj found
      refine ⟨current, ?_, ?_⟩
      · rw [List.getElem?_append_right (by omega), same, Nat.sub_self]
        rfl
      · have previous : (if rows.length = 0 then none
            else (snapshots ++ [current])[rows.length - 1]?) = snapshots.getLast? := by
          split
          · rename_i empty
            rw [same] at empty
            rw [length_eq_zero_iff.mp empty]
            rfl
          · rw [List.getElem?_append_left (by omega), same, List.getLast?_eq_getElem?]
        rw [previous]
        refine ⟨?_, rfl, rfl, rfl⟩
        rw [result_bind]
        exact ⟨_, loads_canonical (rt.document current), validateSnapshot_written valid⟩
    · rw [List.getElem?_eq_none (by simp; omega)] at found
      cases found

theorem record_invalid {call : Call F} {why : Exception} (invalid : rt.snapshot call.status = .error why) (db : Db F) :
    (∃ other, rt.record call db = .error other) ∧ (rt.record call).commit db = db := by
  have raises : ∃ other, rt.record call db = .error other := by
    cases done : rt.record call db with
    | error other => exact ⟨other, rfl⟩
    | ok result =>
      exfalso
      obtain ⟨source, -, done⟩ := lift_bind.mp done
      obtain ⟨commit, -, done⟩ := lift_bind.mp done
      obtain ⟨_, middle, -, done⟩ := bind_ok.mp done
      obtain ⟨current, read, -⟩ := lift_bind.mp done
      rw [invalid] at read
      cases read
  obtain ⟨other, failed⟩ := raises
  refine ⟨⟨other, failed⟩, ?_⟩
  unfold Transaction.commit
  rw [failed]

/-- The history of valid documents is sound and holds their snapshots without repetitions, each with
the changes from the one before it; an invalid document changes nothing. -/
theorem history_faithful (rt : Platform F) (injective : Function.Injective rt.mac)
    (collisionFree : Function.Injective rt.sha256) :
    (∀ calls, (∀ call ∈ calls, ∃ current source commit, rt.Accepted call current source commit) →
      rt.integrity (rt.run calls) = .ok true ∧
      (compress (rt.inputs calls)).IsChain (fun first second => first ≠ second) ∧
      (rt.run calls).transitions.length = (compress (rt.inputs calls)).length ∧
      ∀ place row, (rt.run calls).transitions[place]? = some row →
        ∃ current changes, (compress (rt.inputs calls))[place]? = some current ∧
          (rt.loads row.snapshotJson >>= rt.validateSnapshot) = .ok current ∧
          row.snapshotSha256 = rt.checksum current ∧
          row.changesJson = canonicalText (changesDocument changes) ∧
          (place = 0 → changes = [] ∧ row.kind = .baseline) ∧
          ∀ previous, place ≠ 0 → (compress (rt.inputs calls))[place - 1]? = some previous →
            changes.foldl Change.apply previous.map = current.map ∧
            row.kind = kindOf (changes.any fun change => change.direction = .regression)
              (changes.any fun change => change.direction = .improvement)) ∧
    ∀ call why db, rt.snapshot call.status = .error why →
      (∃ other, rt.record call db = .error other) ∧ (rt.record call).commit db = db := by
  refine ⟨fun calls accepted => ?_, fun call why db invalid => record_invalid invalid db⟩
  have recorded := run_recorded injective collisionFree calls accepted
  refine ⟨?_, compress_distinct _, recorded.length, ?_⟩
  · unfold integrity
    rw [recorded.verified]
  · intro place row found
    obtain ⟨current, there, describes⟩ := recorded.describes place row found
    refine ⟨current, _, there, describes.snapshot, describes.checksum, describes.changes, ?_, ?_⟩
    · rintro rfl
      exact ⟨rfl, describes.kind⟩
    · intro previous later before
      have kind := describes.kind
      rw [if_neg later, before] at kind ⊢
      exact ⟨changes_apply previous current, kind⟩

def plainHistory : Platform FloatText where
  toRuntime := plainRuntime
  isOne _ := false
  sha256 text := text
  mac text := "mac:" ++ text

def feature (id state : String) (active : Bool) : Value FloatText :=
  .object [("id", .str id), ("state", .str state), ("active", .bool active)]

def matrix (features : List (Value FloatText)) : Call FloatText :=
  ⟨.object [("schemaVersion", .int 1), ("features", .list features)], "admin-evaluation", "unknown",
    .infinity false⟩

def evaluations : List (Call FloatText) :=
  [matrix [feature "maps" "ready" true], matrix [feature "maps" "ready" true],
    matrix [feature "maps" "blocked" true, feature "market" "ready" false]]

theorem history_faithful_evaluations : plainHistory.integrity (plainHistory.run evaluations) = .ok true ∧
      (plainHistory.run evaluations).transitions.length = 2 := by
  have macs : Function.Injective plainHistory.mac := fun _ _ same => append_left_cancel same
  have sums : Function.Injective plainHistory.sha256 := fun _ _ same => same
  have accepted : ∀ call ∈ evaluations, ∃ current source commit,
      plainHistory.Accepted call current source commit := by
    intro call member
    have names : boundedText call.source "history source" 80 = .ok "admin-evaluation" ∧
        boundedText call.commit "history commit" 80 = .ok "unknown" := by
      fin_cases member <;> decide
    have status : ∃ current, plainHistory.snapshot call.status = .ok current := by
      fin_cases member
      · exact ⟨⟨[⟨"maps", .ready, true⟩]⟩, by decide⟩
      · exact ⟨⟨[⟨"maps", .ready, true⟩]⟩, by decide⟩
      · exact ⟨⟨[⟨"maps", .blocked, true⟩, ⟨"market", .ready, false⟩]⟩, by decide⟩
    obtain ⟨current, status⟩ := status
    exact ⟨current, _, _, names.1, names.2, by decide, status⟩
  have faithful := (history_faithful plainHistory macs sums).1 evaluations accepted
  refine ⟨faithful.1, faithful.2.2.1.trans ?_⟩
  decide

end Platform

end Dash.Readiness
