import Dash.Python.Plain

/-! The operations calendar: windows normalized, the conflicts and the findings of `analyze`, and the sweep
that finds every pair of windows that conflict once. Times are rational numbers.
-/

set_option autoImplicit false

namespace Dash.Calendar

open Dash.Python

/-- `IMPACTS` -/
inductive Impact where
  | communication | planning | preparatory | recovery | disruptive | exclusion
  deriving DecidableEq, Repr

def Impact.text : Impact → String
  | .communication => "communication"
  | .planning => "planning"
  | .preparatory => "preparatory"
  | .recovery => "recovery"
  | .disruptive => "disruptive"
  | .exclusion => "exclusion"

def IMPACTS : List Impact := [.communication, .planning, .preparatory, .recovery, .disruptive, .exclusion]

/-- `SEVERITIES` -/
inductive Severity where
  | critical | warning
  deriving DecidableEq, Repr

def Severity.text : Severity → String
  | .critical => "critical"
  | .warning => "warning"

structure Window where
  (id source title : String)
  impact : Impact
  startsAt : Rat
  startsAtIso : String
  endsAt : Rat
  endsAtIso : String
  durationSeconds : Int
  target : String
  recurring : Bool
  metadata : Value Rat

structure Conflict where
  id : String
  severity : Severity
  (leftId rightId : String)
  startsAt : Rat
  startsAtIso : String
  overlapSeconds : Int
  reason : String

structure Finding where
  (id windowId : String)
  startsAt : Rat
  startsAtIso : String

inductive Problem where
  | source (origin error : String)
  | window (index : Nat) (error : String)

structure Summary where
  (windows current criticalConflicts warningConflicts uncoveredDisruptive sourceErrors : Nat)

structure Report where
  generatedAt : String
  horizonSeconds : Int
  horizonEndsAt : Rat
  horizonEndsAtIso : String
  (windows current : List Window)
  next : Option Window
  conflicts : List Conflict
  coverageFindings : List Finding
  errors : List Problem
  summary : Summary
  fingerprint : String
  ok : Bool

structure Platform extends Runtime Rat where
  /-- The time of a text in the ISO format; in UTC, if it names no zone. -/
  fromIso : String → Result Rat
  /-- `iso(value)`; a time out of the calendar's range raises. -/
  iso : Rat → Result String
  /-- The hexadecimal digest. -/
  sha256 : String → String

def Window.value (window : Window) : Value Rat :=
  .object [("id", .str window.id), ("source", .str window.source), ("title", .str window.title),
    ("impact", .str window.impact.text), ("startsAt", .float window.startsAt),
    ("startsAtIso", .str window.startsAtIso), ("endsAt", .float window.endsAt),
    ("endsAtIso", .str window.endsAtIso), ("durationSeconds", .int window.durationSeconds),
    ("target", .str window.target), ("recurring", .bool window.recurring), ("metadata", window.metadata)]

def Conflict.value (conflict : Conflict) : Value Rat :=
  .object [("id", .str conflict.id), ("severity", .str conflict.severity.text),
    ("leftId", .str conflict.leftId), ("rightId", .str conflict.rightId),
    ("startsAt", .float conflict.startsAt), ("startsAtIso", .str conflict.startsAtIso),
    ("overlapSeconds", .int conflict.overlapSeconds), ("reason", .str conflict.reason)]

def Finding.value (finding : Finding) : Value Rat :=
  .object [("id", .str finding.id), ("severity", .str "warning"), ("windowId", .str finding.windowId),
    ("startsAt", .float finding.startsAt), ("startsAtIso", .str finding.startsAtIso),
    ("reason", .str
      "executing disruptive maintenance is not fully covered by a planned SLO maintenance exclusion")]

def Problem.value : Problem → Value Rat
  | .source origin error => .object [("source", .str origin), ("error", .str error)]
  | .window index error => .object [("index", .int index), ("error", .str error)]

def hashed (rows : List Window) (conflicts : List Conflict) (findings : List Finding) (errors : List Problem) :
    Value Rat :=
  .object [("windows", .list (rows.map Window.value)), ("conflicts", .list (conflicts.map Conflict.value)),
    ("coverageFindings", .list (findings.map Finding.value)), ("errors", .list (errors.map Problem.value))]

def overlapSeconds (left right : Window) : Rat :=
  max 0 (min left.endsAt right.endsAt - max left.startsAt right.startsAt)

def conflictSeverity (left right : Window) : Option Severity :=
  if overlapSeconds left right ≤ 0 ∨ left.impact = .exclusion ∨ right.impact = .exclusion then none
  else
    match left.impact, right.impact with
    | .disruptive, .disruptive => some .critical
    | .disruptive, .recovery => some .critical
    | .recovery, .disruptive => some .critical
    | .recovery, .recovery => some .warning
    | .disruptive, .preparatory => some .warning
    | .preparatory, .disruptive => some .warning
    | _, _ => none

def conflictReason : Impact → Impact → String
  | .disruptive, .recovery => "a disruptive operation overlaps recovery work"
  | .recovery, .disruptive => "a disruptive operation overlaps recovery work"
  | .disruptive, .disruptive => "two disruptive operations overlap"
  | .recovery, .recovery => "two recovery operations overlap"
  | _, _ => "preparatory work overlaps a disruptive operation"

def Window.before (first second : Window) : Prop :=
  first.startsAt < second.startsAt ∨ (first.startsAt = second.startsAt ∧
    (first.endsAt < second.endsAt ∨ (first.endsAt = second.endsAt ∧ first.id ≤ second.id)))

instance : DecidableRel Window.before := fun first second =>
  inferInstanceAs (Decidable (first.startsAt < second.startsAt ∨ (first.startsAt = second.startsAt ∧
    (first.endsAt < second.endsAt ∨ (first.endsAt = second.endsAt ∧ first.id ≤ second.id)))))

def Window.within (now horizonEnd : Rat) (window : Window) : Bool :=
  decide (now < window.endsAt) && decide (window.startsAt < horizonEnd)

def clampHorizon (horizon : Int) : Int := max 3600 (min horizon (31 * 86400))

namespace Platform

variable (rt : Platform)

def epoch (value : Value Rat) : Result Rat := do
  let result ← match value with
    | .bool _ => valueError "calendar time cannot be boolean"
    | .int value => .ok (value : Rat)
    | .float value => .ok value
    | value =>
      let text := strip (rt.str (rt.orElse value (.str "")))
      rt.fromIso (if text.toList.getLast? = some 'Z' then
        String.ofList (text.toList.dropLast ++ "+00:00".toList) else text)
  if result ≤ 0 then valueError "calendar time is invalid" else .ok result

def bounded (value : Value Rat) (maximum : Nat) (label : String) : Result String :=
  let text := strip (rt.str (rt.orElse value (.str "")))
  if text = "" ∨ maximum < text.toList.length ∨ text.toList.any (fun char => char.toNat < 32) then
    valueError (label ++ " is invalid")
  else .ok text

def impactOf (text : String) : Result Impact :=
  match IMPACTS.find? fun impact => impact.text = text with
  | some impact => .ok impact
  | none => valueError "calendar window impact is invalid"

/-- `canonical`, of metadata; what cannot be written is a value error. -/
def canonicalMetadata (metadata : Value Rat) : Result String :=
  match rt.dumps true metadata with
  | .ok text => .ok text
  | .error _ => valueError "calendar window metadata is not JSON-serializable"

def normalizeWindow (raw : Value Rat) : Result Window := do
  if !raw.isDict then valueError "calendar window must be an object" else
  let start ← rt.epoch (getOr raw "startsAt" (raw.get "start"))
  let finish ← rt.epoch (getOr raw "endsAt" (raw.get "end"))
  if finish ≤ start ∨ 31 * 86400 < finish - start then valueError "calendar window duration is invalid" else
  let impact ← impactOf (rt.str (rt.orElse (raw.get "impact") (.str "")))
  let metadata := rt.orElse (raw.get "metadata") (.dict [])
  if !metadata.isDict then valueError "calendar window metadata must be an object" else
  let text ← rt.canonicalMetadata metadata
  if 8192 < text.toList.length then valueError "calendar window metadata is too large" else
  let id ← rt.bounded (raw.get "id") 180 "calendar window id"
  let source ← rt.bounded (raw.get "source") 80 "calendar window source"
  let title ← rt.bounded (raw.get "title") 180 "calendar window title"
  let startsAtIso ← rt.iso start
  let endsAtIso ← rt.iso finish
  .ok
    { id := id
      source := source
      title := title
      impact := impact
      startsAt := start
      startsAtIso := startsAtIso
      endsAt := finish
      endsAtIso := endsAtIso
      durationSeconds := roundEven (finish - start)
      target := clip 120 (rt.str (rt.orElse (raw.get "target") (.str "")))
      recurring := rt.truthy (raw.get "recurring")
      metadata := metadata }

def acceptRow (seen : List String) (raw : Value Rat) : Result Window := do
  let row ← rt.normalizeWindow raw
  if row.id ∈ seen then valueError "calendar window id is duplicated" else .ok row

def caught (why : Exception) : Bool := decide (why.type = .typeError) || decide (why.type = .valueError)

def admitAll (now horizonEnd : Rat) : Nat → List String → List (Value Rat) → Result (List Window × List Problem)
  | _, _, [] => .ok ([], [])
  | index, seen, raw :: rest =>
    match rt.acceptRow seen raw with
    | .ok row => do
      let (rows, problems) ← admitAll now horizonEnd (index + 1) (row.id :: seen) rest
      .ok (if row.within now horizonEnd then row :: rows else rows, problems)
    | .error why =>
      if caught why then do
        let (rows, problems) ← admitAll now horizonEnd (index + 1) seen rest
        .ok (rows, .window index why.message :: problems)
      else .error why

def sourceProblem (raw : Value Rat) : Problem :=
  if raw.isDict then
    .source (clip 80 (rt.str (rt.orElse (raw.get "source") (.str "unknown"))))
      (clip 500 (rt.str (rt.orElse (raw.get "error") (.str "calendar source failed"))))
  else .source "unknown" (clip 500 (rt.str (rt.orElse raw (.str "calendar source failed"))))

def conflictId (left right : Window) : String :=
  "calendar-conflict-" ++ clip 24 (rt.sha256 (left.id ++ "\x00" ++ right.id))

def conflictOf (left right : Window) (severity : Severity) : Result Conflict := do
  let startsAtIso ← rt.iso (max left.startsAt right.startsAt)
  .ok
    { id := rt.conflictId left right
      severity := severity
      leftId := left.id
      rightId := right.id
      startsAt := max left.startsAt right.startsAt
      startsAtIso := startsAtIso
      overlapSeconds := roundEven (overlapSeconds left right)
      reason := conflictReason left.impact right.impact }

/-- The inner loop: it stops at the first window that starts when `left` has ended. -/
def sweepFrom (left : Window) : List Window → Result (List Conflict)
  | [] => .ok []
  | right :: rest =>
    if left.endsAt ≤ right.startsAt then .ok []
    else
      match conflictSeverity left right with
      | none => sweepFrom left rest
      | some severity => do
        let conflict ← rt.conflictOf left right severity
        let others ← sweepFrom left rest
        .ok (conflict :: others)

def sweep : List Window → Result (List Conflict)
  | [] => .ok []
  | left :: rest => do
    let own ← rt.sweepFrom left rest
    let others ← sweep rest
    .ok (own ++ others)

def excludes (row : Window) : Bool :=
  decide (row.impact = .exclusion) && rt.truthy (row.metadata.get "maintenanceExclusion")

def executes (row : Window) : Bool :=
  decide (row.impact = .disruptive) && rt.truthy (getOr row.metadata "execute" (.bool true))

def contains (outer inner : Window) : Bool :=
  decide (outer.startsAt ≤ inner.startsAt) && decide (inner.endsAt ≤ outer.endsAt)

def findingOf (row : Window) : Finding where
  id := "calendar-coverage-" ++ clip 24 (rt.sha256 row.id)
  windowId := row.id
  startsAt := row.startsAt
  startsAtIso := row.startsAtIso

def coverage (rows : List Window) : List Finding :=
  (rows.filter fun row => rt.executes row && !(rows.filter rt.excludes).any fun window => contains window row).map
    rt.findingOf

/-- The payload, from its parts. -/
def reportOf (now : Rat) (horizonSeconds : Int) (rows : List Window) (conflicts : List Conflict)
    (errors : List Problem) (generatedAt horizonEndsAtIso text : String) : Report :=
  let findings := rt.coverage rows
  let current := rows.filter fun row => decide (row.startsAt ≤ now) && decide (now < row.endsAt)
  { generatedAt := generatedAt
    horizonSeconds := horizonSeconds
    horizonEndsAt := now + horizonSeconds
    horizonEndsAtIso := horizonEndsAtIso
    windows := rows
    current := current
    next := rows.find? fun row => decide (now ≤ row.startsAt)
    conflicts := conflicts
    coverageFindings := findings
    errors := errors
    summary :=
      { windows := rows.length
        current := current.length
        criticalConflicts := conflicts.countP fun conflict => conflict.severity = .critical
        warningConflicts := conflicts.countP fun conflict => conflict.severity = .warning
        uncoveredDisruptive := findings.length
        sourceErrors := errors.length }
    fingerprint := rt.sha256 text
    ok := errors.isEmpty && !conflicts.any fun conflict => conflict.severity = .critical }

/-- `analyze`; `horizon` is `int(horizon_seconds)`. -/
def analyze (windows : List (Value Rat)) (now : Rat) (horizon : Int) (sourceErrors : List (Value Rat)) :
    Result Report := do
  let horizonSeconds := clampHorizon horizon
  let (rows, problems) ← rt.admitAll now (now + horizonSeconds) 0 [] windows
  let errors := sourceErrors.map rt.sourceProblem ++ problems
  let normalized := rows.insertionSort Window.before
  let conflicts ← rt.sweep normalized
  let generatedAt ← rt.iso now
  let horizonEndsAtIso ← rt.iso (now + horizonSeconds)
  let text ← rt.dumps true (hashed normalized conflicts (rt.coverage normalized) errors)
  .ok (rt.reportOf now horizonSeconds normalized conflicts errors generatedAt horizonEndsAtIso text)

end Platform

open List

theorem overlapSeconds_comm (left right : Window) : overlapSeconds left right = overlapSeconds right left := by
  rw [overlapSeconds, overlapSeconds, min_comm, max_comm left.startsAt]

theorem conflictSeverity_comm (left right : Window) : conflictSeverity left right = conflictSeverity right left := by
  unfold conflictSeverity
  rw [overlapSeconds_comm]
  generalize overlapSeconds right left = overlap
  cases left.impact <;> cases right.impact <;> simp

theorem conflictSeverity_apart {left right : Window} (apart : left.endsAt ≤ right.startsAt) :
    conflictSeverity left right = none := by
  have nothing : overlapSeconds left right ≤ 0 := by
    have first : min left.endsAt right.endsAt ≤ right.startsAt := (min_le_left _ _).trans apart
    have second : min left.endsAt right.endsAt ≤ max left.startsAt right.startsAt :=
      first.trans (le_max_right _ _)
    exact max_le le_rfl (sub_nonpos.mpr second)
  rw [conflictSeverity, if_pos (.inl nothing)]

def Conflict.joins (first second : String) (conflict : Conflict) : Bool :=
  (decide (conflict.leftId = first) && decide (conflict.rightId = second)) ||
    (decide (conflict.leftId = second) && decide (conflict.rightId = first))

theorem Conflict.joins_comm (first second : String) : Conflict.joins first second = Conflict.joins second first := by
  funext conflict
  exact Bool.or_comm _ _

namespace Platform

variable (rt : Platform)

def clash (left right : Window) (severity : Severity) : Conflict where
  id := rt.conflictId left right
  severity := severity
  leftId := left.id
  rightId := right.id
  startsAt := max left.startsAt right.startsAt
  startsAtIso := if left.startsAt ≤ right.startsAt then right.startsAtIso else left.startsAtIso
  overlapSeconds := roundEven (overlapSeconds left right)
  reason := conflictReason left.impact right.impact

def clash? (left right : Window) : Option Conflict := (conflictSeverity left right).map (rt.clash left right)

def clashes : List Window → List Conflict
  | [] => []
  | left :: rest => rest.filterMap (rt.clash? left) ++ clashes rest

def Dated (row : Window) : Prop := rt.iso row.startsAt = .ok row.startsAtIso

theorem conflictOf_dated {left right : Window} (first : rt.Dated left) (second : rt.Dated right)
    (severity : Severity) : rt.conflictOf left right severity = .ok (rt.clash left right severity) := by
  have written : rt.iso (max left.startsAt right.startsAt) =
      .ok (if left.startsAt ≤ right.startsAt then right.startsAtIso else left.startsAtIso) := by
    by_cases order : left.startsAt ≤ right.startsAt
    · rw [max_eq_right order, if_pos order]
      exact second
    · rw [max_eq_left (not_le.mp order).le, if_neg order]
      exact first
  rw [conflictOf, written]
  rfl

variable {rows : List Window}

/-- Stopping early loses nothing, as the windows are in the order of their starts. -/
theorem sweepFrom_sorted {left : Window} (first : rt.Dated left) (dated : ∀ row ∈ rows, rt.Dated row)
    (sorted : rows.Pairwise fun earlier later => earlier.startsAt ≤ later.startsAt) :
    rt.sweepFrom left rows = .ok (rows.filterMap (rt.clash? left)) := by
  induction rows with
  | nil => rfl
  | cons right rest ih =>
    obtain ⟨behind, sorted⟩ := pairwise_cons.mp sorted
    have tail := ih (fun row member => dated row (mem_cons_of_mem _ member)) sorted
    rw [sweepFrom]
    by_cases stops : left.endsAt ≤ right.startsAt
    · have none_ : (right :: rest).filterMap (rt.clash? left) = [] := by
        refine filterMap_eq_nil_iff.mpr fun row member => ?_
        have after : left.endsAt ≤ row.startsAt := by
          rcases mem_cons.mp member with rfl | later
          · exact stops
          · exact stops.trans (behind row later)
        rw [clash?, conflictSeverity_apart after]
        rfl
      rw [if_pos stops, none_]
    · rw [if_neg stops, filterMap_cons, clash?]
      cases conflictSeverity left right with
      | none => exact tail
      | some severity =>
        dsimp only
        rw [rt.conflictOf_dated first (dated right mem_cons_self), tail]
        rfl

theorem sweep_sorted (dated : ∀ row ∈ rows, rt.Dated row)
    (sorted : rows.Pairwise fun earlier later => earlier.startsAt ≤ later.startsAt) :
    rt.sweep rows = .ok (rt.clashes rows) := by
  induction rows with
  | nil => rfl
  | cons left rest ih =>
    obtain ⟨-, later⟩ := pairwise_cons.mp sorted
    have tail := fun row member => dated row (mem_cons_of_mem left member)
    rw [sweep, rt.sweepFrom_sorted (dated left mem_cons_self) tail later, ih tail later]
    rfl

theorem clash?_ids {left right : Window} {conflict : Conflict} (found : rt.clash? left right = some conflict) :
    conflict.leftId = left.id ∧ conflict.rightId = right.id := by
  obtain ⟨severity, -, rfl⟩ := Option.map_eq_some_iff.mp found
  exact ⟨rfl, rfl⟩

theorem mem_clashes {conflict : Conflict} (member : conflict ∈ rt.clashes rows)
    (distinct : (rows.map Window.id).Nodup) :
    ∃ first ∈ rows, ∃ second ∈ rows, first.id ≠ second.id ∧
      conflict.leftId = first.id ∧ conflict.rightId = second.id := by
  induction rows with
  | nil => cases member
  | cons left rest ih =>
    obtain ⟨fresh, distinct⟩ := nodup_cons.mp distinct
    rcases mem_append.mp member with own | later
    · obtain ⟨right, there, found⟩ := mem_filterMap.mp own
      obtain ⟨one, two⟩ := rt.clash?_ids found
      refine ⟨left, mem_cons_self, right, mem_cons_of_mem _ there, fun same => ?_, one, two⟩
      exact fresh (same ▸ mem_map_of_mem there)
    · obtain ⟨first, here, second, there, facts⟩ := ih later distinct
      exact ⟨first, mem_cons_of_mem _ here, second, mem_cons_of_mem _ there, facts⟩

theorem clashes_absent {absent : String} (missing : ∀ row ∈ rows, row.id ≠ absent)
    (other : String) : (rt.clashes rows).filter (Conflict.joins absent other) = [] := by
  induction rows with
  | nil => rfl
  | cons left rest ih =>
    rw [clashes, filter_append, ih fun row member => missing row (mem_cons_of_mem _ member), append_nil]
    refine filter_eq_nil_iff.mpr fun conflict member joins => ?_
    obtain ⟨right, there, found⟩ := mem_filterMap.mp member
    obtain ⟨one, two⟩ := rt.clash?_ids found
    simp only [Conflict.joins, Bool.or_eq_true, Bool.and_eq_true, decide_eq_true_eq, one, two] at joins
    rcases joins with ⟨same, -⟩ | ⟨-, same⟩
    · exact missing left mem_cons_self same
    · exact missing right (mem_cons_of_mem _ there) same

/-- Of the conflicts of a window with others, one is with the window of this id. -/
theorem clashes_one {left second : Window} (distinct : (rows.map Window.id).Nodup)
    (there : second ∈ rows) (apart : left.id ≠ second.id) :
    ((rows.filterMap (rt.clash? left)).filter (Conflict.joins left.id second.id)).map Conflict.severity =
      (conflictSeverity left second).toList := by
  have joined : ∀ row : Window, ∀ conflict ∈ (rt.clash? left row).toList,
      Conflict.joins left.id second.id conflict = decide (row.id = second.id) := by
    intro row conflict member
    obtain ⟨one, two⟩ := rt.clash?_ids (Option.mem_toList.mp member)
    simp [Conflict.joins, one, two, apart]
  have others : ∀ rows : List Window, (∀ row ∈ rows, row.id ≠ second.id) →
      (rows.filterMap (rt.clash? left)).filter (Conflict.joins left.id second.id) = [] := by
    intro rows missing
    refine filter_eq_nil_iff.mpr fun conflict member joins => ?_
    obtain ⟨row, there, found⟩ := mem_filterMap.mp member
    rw [joined row conflict (Option.mem_toList.mpr found)] at joins
    exact missing row there (of_decide_eq_true joins)
  induction rows with
  | nil => cases there
  | cons row rest ih =>
    obtain ⟨fresh, distinct⟩ := nodup_cons.mp distinct
    have split : (row :: rest).filterMap (rt.clash? left) =
        (rt.clash? left row).toList ++ rest.filterMap (rt.clash? left) := by
      rw [filterMap_cons]
      cases rt.clash? left row <;> rfl
    rw [split, filter_append, map_append]
    rcases mem_cons.mp there with rfl | later
    · have kept : (rt.clash? left second).toList.filter (Conflict.joins left.id second.id) =
          (rt.clash? left second).toList :=
        filter_eq_self.mpr fun conflict member => by
          rw [joined second conflict member]
          exact decide_eq_true rfl
      rw [kept, others rest fun other member same => fresh (same ▸ mem_map_of_mem member), clash?]
      cases conflictSeverity left second <;> rfl
    · have dropped : (rt.clash? left row).toList.filter (Conflict.joins left.id second.id) = [] := by
        refine filter_eq_nil_iff.mpr fun conflict member joins => ?_
        rw [joined row conflict member] at joins
        exact fresh (of_decide_eq_true joins ▸ mem_map_of_mem later)
      rw [dropped, ih distinct later]
      rfl

/-- Two windows have the conflict that `conflict_severity` says, and no second one. -/
theorem clashes_between {first second : Window} (distinct : (rows.map Window.id).Nodup)
    (here : first ∈ rows) (there : second ∈ rows) (apart : first.id ≠ second.id) :
    ((rt.clashes rows).filter (Conflict.joins first.id second.id)).map Conflict.severity =
      (conflictSeverity first second).toList := by
  induction rows with
  | nil => cases here
  | cons left rest ih =>
    obtain ⟨fresh, others⟩ := nodup_cons.mp distinct
    have missing : ∀ row ∈ rest, row.id ≠ left.id := fun row member same =>
      fresh (same ▸ mem_map_of_mem member)
    rw [clashes, filter_append, map_append]
    rcases mem_cons.mp here with rfl | earlier
    · have later := (mem_cons.mp there).resolve_left fun same => apart (congrArg Window.id same).symm
      rw [rt.clashes_one others later apart, rt.clashes_absent missing, map_nil, append_nil]
    · rcases mem_cons.mp there with rfl | later
      · rw [Conflict.joins_comm, rt.clashes_one others earlier (Ne.symm apart), rt.clashes_absent missing,
          map_nil, append_nil, conflictSeverity_comm]
      · have none_ : (rest.filterMap (rt.clash? left)).filter (Conflict.joins first.id second.id) = [] := by
          refine filter_eq_nil_iff.mpr fun conflict member joins => ?_
          obtain ⟨right, _, found⟩ := mem_filterMap.mp member
          obtain ⟨one, -⟩ := rt.clash?_ids found
          simp only [Conflict.joins, Bool.or_eq_true, Bool.and_eq_true, decide_eq_true_eq, one] at joins
          rcases joins with ⟨same, -⟩ | ⟨same, -⟩
          · exact missing first earlier same.symm
          · exact missing second later same.symm
        rw [none_, ih others earlier later]
        rfl

end Platform

end Dash.Calendar
