import Dash.Backups.Retention
import Dash.Foundation.Recurrence
import Dash.Foundation.Table

/-! Event automation: what is created, which events are due, what an execution records, and how an event recurs.

A stored time is the whole second that it reads as. What an action of an executing plan comes to is
the world's: it succeeds, or its failure is recorded. Of a plan-only action the type is kept.
-/

set_option autoImplicit false

namespace Dash.Events

open Dash.Python Dash.Foundation

variable {F : Type}

structure Platform (F : Type) extends Runtime F where
  /-- `event_time` of a text, in whole seconds. -/
  eventTime : String → Result Int
  gameMapServices : List String

inductive Plan (F : Type) where
  | announcement (message delay : Value F) (repeatSeconds : Int)
  | restart (target action delay : Value F)
  | mapPrewarm (service : String)
  /-- A plan with `dryRunOnly`. -/
  | dryRun (type : String)

def Plan.type : Plan F → String
  | announcement _ _ _ => "announcement"
  | restart _ _ _ => "restart"
  | mapPrewarm _ => "map-prewarm"
  | dryRun type => type

inductive Status where
  | scheduled | executed | failed | cancelled
  deriving DecidableEq, Repr

structure Event (F : Type) where
  (id name : String)
  status : Status
  createdAt : Int
  (runAt nextRunAt : Option Int)
  (repeatSeconds maxRuns : Int)
  runCount : Nat
  lastRunAt : Option Int
  actions : List (Value F)
  plan : List (Plan F)

structure Failure where
  (type error : String)
  deriving DecidableEq, Repr

structure Run where
  (id eventId eventName trigger : String)
  startedAt : Int
  status : Status
  executed : List String
  failures : List Failure
  runNumber : Nat
  nextRunAt : Option Int
  deriving DecidableEq, Repr

/-- `events.json` -/
structure State (F : Type) where
  events : List (Event F)
  runs : List Run
  lastRun : Option Run

/-- `dict(value)` does not raise. -/
def isMapping : Value F → Bool
  | .dict _ => true
  | .str text => text = ""
  | .list items => items.all fun item =>
    match item with
    | .list [.list _, _] => false
    | .list [.dict _, _] => false
    | .list [_, _] => true
    | .str text => text.length = 2
    | .dict entries => entries.length = 2
    | _ => false
  | _ => false

namespace Platform

variable (rt : Platform F)

def eventActionPlan (action : Value F) : Result (Plan F) :=
  if !action.isDict then .error ⟨.attributeError, "object has no attribute 'get'"⟩
  else
    let kind := strip (rt.str (getOr action "type" (.str "")))
    if kind = "announcement" then do
      let repeatSeconds ← rt.int (rt.orElse (getOr action "repeat_seconds" (.int 0)) (.int 0))
      .ok (.announcement (getOr action "message" (.str "")) (getOr action "delay" (.str "immediate")) repeatSeconds)
    else if kind = "restart" then
      .ok (.restart (getOr action "target" (.str "deep-desert")) (getOr action "action" (.str "restart"))
        (getOr action "delay" (.str "immediate")))
    else if kind = "map-prewarm" then
      let service := strip (rt.str (rt.orElse (action.get "service") (.str "")))
      if service ∈ rt.gameMapServices then .ok (.mapPrewarm service)
      else valueError "map-prewarm requires a known map service"
    else if kind = "typed-knob-plan" then .ok (.dryRun kind)
    else if kind = "economy-bundle" then
      if isMapping (getOr action "payload" (.dict [])) then .ok (.dryRun kind)
      else valueError "dictionary update sequence is not a sequence of pairs"
    else if kind = "spice-cap-proposal" then .ok (.dryRun kind)
    else valueError ("unsupported event action type: " ++ kind)

def number (body : Value F) (camel snake : String) (other : Int) : Result Int :=
  rt.int (rt.orElse (getOr body camel (getOr body snake (.int other))) (.int 0))

/-- The event of a request, under a new id. -/
def buildEvent (body : Value F) (id : String) (now : Int) : Result (Event F) :=
  match getOr body "actions" (.list []) with
  | .list [] => valueError "actions must be a non-empty list"
  | .list actions => do
    let plans ← actions.mapM rt.eventActionPlan
    let text := strip (rt.str (getOr body "runAt" (getOr body "run_at" (.str ""))))
    let repeatSeconds ← rt.number body "repeatSeconds" "repeat_seconds" 0
    if repeatSeconds ≠ 0 ∧ ¬ (60 ≤ repeatSeconds ∧ repeatSeconds ≤ 365 * 86400) then
      valueError "repeatSeconds must be 0 or between 60 and 31536000"
    else
      let maxRuns ← rt.number body "maxRuns" "max_runs" (if repeatSeconds = 0 then 1 else 0)
      if ¬ (0 ≤ maxRuns ∧ maxRuns ≤ 10000) then
        valueError "maxRuns must be between 0 and 10000; 0 means unlimited"
      else
        let runAt ← (if text = "" then .ok none else (rt.eventTime text).map some : Result (Option Int))
        let name := clip 120 (strip (rt.str (getOr body "name" (.str "admin event"))))
        .ok {
          id := id
          name := if name = "" then "admin event" else name
          status := .scheduled
          createdAt := now
          runAt := runAt
          nextRunAt := runAt
          repeatSeconds := repeatSeconds
          maxRuns := maxRuns
          runCount := 0
          lastRunAt := none
          actions := actions
          plan := plans }
  | _ => valueError "actions must be a non-empty list"

def createEvent (body : Value F) (id : String) (now : Int) (state : State F) : Result (State F) := do
  let event ← rt.buildEvent body id now
  .ok { state with events := state.events ++ [event] }

end Platform

structure Conditions (F : Type) where
  (started ended : Int)
  runId : String
  act : Plan F → Except String Unit

def perform (conditions : Conditions F) : Plan F → Except String Unit
  | .dryRun _ => .ok ()
  | plan => conditions.act plan

def performAll (conditions : Conditions F) : List (Plan F) → List String × List Failure
  | [] => ([], [])
  | plan :: rest =>
    let (executed, failures) := performAll conditions rest
    match perform conditions plan with
    | .ok () => (plan.type :: executed, failures)
    | .error error => (executed, ⟨plan.type, clip 500 error⟩ :: failures)

def repeatsLeft (event : Event F) (runCount : Nat) : Bool :=
  event.repeatSeconds ≠ 0 && (event.maxRuns = 0 || decide ((runCount : Int) < event.maxRuns))

def afterRun (conditions : Conditions F) (failed : Bool) (event : Event F) : Event F :=
  let event := { event with
    runCount := event.runCount + 1
    lastRunAt := some conditions.started }
  if !failed && repeatsLeft event event.runCount then
    let base := event.nextRunAt.getD conditions.started
    { event with
      nextRunAt := some (max (base + event.repeatSeconds) (conditions.ended + 1))
      status := .scheduled }
  else { event with
    nextRunAt := none
    status := if failed then .failed else .executed }

def last499 {α : Type} (rows : List α) : List α := rows.drop (rows.length - 499)

def replaceFirst (id : String) (update : Event F → Event F) : List (Event F) → List (Event F)
  | [] => []
  | event :: rest => if event.id = id then update event :: rest else event :: replaceFirst id update rest

def executeEvent (conditions : Conditions F) (id trigger : String) (state : State F) : Result (State F) :=
  match state.events.find? fun event => event.id = id with
  | none => valueError "event not found"
  | some event =>
    if event.status ≠ .scheduled then valueError "event is not scheduled"
    else
      let (executed, failures) := performAll conditions event.plan
      let failed := !failures.isEmpty
      let update := afterRun conditions failed
      let run : Run := {
        id := conditions.runId
        eventId := id
        eventName := event.name
        trigger := clip 40 trigger
        startedAt := conditions.started
        status := if failed then .failed else .executed
        executed := executed
        failures := failures
        runNumber := (update event).runCount
        nextRunAt := (update event).nextRunAt }
      .ok {
        events := replaceFirst id update state.events
        runs := last499 state.runs ++ [run]
        lastRun := some run }

def due (now : Int) (event : Event F) : Bool :=
  event.status = .scheduled && event.nextRunAt.any fun next => decide (next ≤ now)

def dueEventIds (now : Int) (state : State F) : List String :=
  (state.events.filter (due now)).map (·.id)

/-- One turn of the worker: when it looks, and what each execution meets. -/
structure Turn (F : Type) where
  now : Int
  conditions : String → Conditions F

def executeAll (turn : Turn F) : List String → State F → State F
  | [], state => state
  | id :: rest, state =>
    match executeEvent (turn.conditions id) id "schedule" state with
    | .ok state => executeAll turn rest state
    | .error _ => state

def work (state : State F) (turn : Turn F) : State F :=
  executeAll turn (dueEventIds turn.now state) state

open List

def found (id : String) (state : State F) : Option (Event F) :=
  state.events.find? fun event => event.id = id

def ids (state : State F) : List String := state.events.map (·.id)

section Replace

variable {id other : String} {update : Event F → Event F}

theorem replaceFirst_ids (same : ∀ event, (update event).id = event.id) (events : List (Event F)) :
    (replaceFirst id update events).map (·.id) = events.map (·.id) := by
  induction events with
  | nil => rfl
  | cons event rest ih =>
    unfold replaceFirst
    split
    · simp [same]
    · simp only [map_cons, ih]

theorem find_replaceFirst (id other : String) (same : ∀ event, (update event).id = event.id) (events : List (Event F)) :
    (replaceFirst id update events).find? (fun event => event.id = other) =
      (events.find? fun event => event.id = other).map fun event => if other = id then update event else event := by
  induction events with
  | nil => rfl
  | cons event rest ih =>
    unfold replaceFirst
    by_cases here : event.id = id <;> by_cases asked : event.id = other
    · simp [same, ← asked, here]
    · have apart : other ≠ id := fun equal => asked (here.trans equal.symm)
      rw [if_pos here, find?_cons_of_neg (by simpa [same] using asked), find?_cons_of_neg (by simpa using asked)]
      simp [apart]
    · have apart : other ≠ id := fun equal => here (asked.trans equal)
      simp [asked, apart]
    · simp [here, asked, ih]

end Replace

section Execution

variable {conditions : Conditions F} {id other trigger : String} {state after : State F} {event : Event F}

theorem afterRun_id (conditions : Conditions F) (failed : Bool) (event : Event F) :
    (afterRun conditions failed event).id = event.id := by
  unfold afterRun
  dsimp only
  split <;> rfl

section

variable (ran : executeEvent conditions id trigger state = .ok after)
include ran

theorem executeEvent_ok : ∃ event, found id state = some event ∧ event.status = .scheduled ∧
      after.events = replaceFirst id
        (afterRun conditions !(performAll conditions event.plan).2.isEmpty) state.events := by
  unfold executeEvent at ran
  split at ran
  · cases ran
  · rename_i event there
    split at ran
    · cases ran
    · rename_i scheduled
      cases ran
      exact ⟨event, there, not_not.mp scheduled, rfl⟩

theorem executeEvent_ids : ids after = ids state := by
  obtain ⟨event, -, -, events⟩ := executeEvent_ok ran
  rw [ids, events, replaceFirst_ids (afterRun_id _ _), ids]

theorem executeEvent_found : ∃ event, found id state = some event ∧ event.status = .scheduled ∧
      found id after = some (afterRun conditions (!(performAll conditions event.plan).2.isEmpty) event) := by
  obtain ⟨event, there, scheduled, events⟩ := executeEvent_ok ran
  refine ⟨event, there, scheduled, ?_⟩
  have whole := find_replaceFirst id id (afterRun_id conditions
    (!(performAll conditions event.plan).2.isEmpty)) state.events
  simp only [if_true] at whole
  rw [← events] at whole
  rw [found, whole]
  exact congrArg (Option.map _) there

theorem executeEvent_apart (apart : other ≠ id) : found other after = found other state := by
  obtain ⟨event, -, -, events⟩ := executeEvent_ok ran
  rw [found, events, find_replaceFirst id other (afterRun_id _ _), found]
  simp [apart]

end

theorem performAll_succeeds (act : ∀ plan, conditions.act plan = .ok ()) (plans : List (Plan F)) :
    (performAll conditions plans).2 = [] := by
  induction plans with
  | nil => rfl
  | cons plan rest ih =>
    have succeeds : perform conditions plan = .ok () := by
      cases plan
      case dryRun => rfl
      all_goals exact act _
    unfold performAll
    rw [succeeds]
    exact ih

end Execution

section Turn

variable {turn : Turn F} {id : String} {state : State F}

theorem executeAll_ids (turn : Turn F) (due : List String) (state : State F) :
    ids (executeAll turn due state) = ids state := by
  induction due generalizing state with
  | nil => rfl
  | cons other rest ih =>
    unfold executeAll
    split
    · rename_i after ran
      rw [ih, executeEvent_ids ran]
    · rfl

theorem executeAll_apart {due : List String} (absent : id ∉ due) :
    found id (executeAll turn due state) = found id state := by
  induction due generalizing state with
  | nil => rfl
  | cons other rest ih =>
    obtain ⟨apart, later⟩ := ne_and_not_mem_of_not_mem_cons absent
    unfold executeAll
    split
    · rename_i after ran
      rw [ih later, executeEvent_apart ran apart]
    · rfl

/-- The executions of a turn leave an event or run it once. -/
theorem executeAll_found {due : List String} (turn : Turn F) (id : String) (distinct : due.Nodup) :
    found id (executeAll turn due state) = found id state ∨
      id ∈ due ∧ ∃ event, found id state = some event ∧ event.status = .scheduled ∧
        found id (executeAll turn due state) = some (afterRun (turn.conditions id)
          (!(performAll (turn.conditions id) event.plan).2.isEmpty) event) := by
  induction due generalizing state with
  | nil => exact .inl rfl
  | cons other rest ih =>
    obtain ⟨apart, later⟩ := nodup_cons.mp distinct
    unfold executeAll
    split
    · rename_i after ran
      by_cases same : id = other
      · subst same
        obtain ⟨event, there, scheduled, left⟩ := executeEvent_found ran
        exact .inr ⟨mem_cons_self, event, there, scheduled, (executeAll_apart apart).trans left⟩
      · have kept := executeEvent_apart ran same
        rcases ih later with left | ⟨member, event, there, scheduled, left⟩
        · exact .inl (left.trans kept)
        · exact .inr ⟨mem_cons_of_mem _ member, event, kept ▸ there, scheduled, left⟩
    · exact .inl rfl

theorem found_id {event : Event F} (there : found id state = some event) : event ∈ state.events ∧ event.id = id :=
  ⟨List.mem_of_find?_eq_some there, by simpa using List.find?_some there⟩

theorem due_found {now : Int} {event : Event F} (distinct : (ids state).Nodup)
    (there : found id state = some event) (listed : id ∈ dueEventIds now state) :
    due now event = true := by
  obtain ⟨other, member, same⟩ := mem_map.mp listed
  obtain ⟨inside, isDue⟩ := mem_filter.mp member
  obtain ⟨here, named⟩ := found_id there
  have equal : other = event := inj_on_of_nodup_map distinct inside here (same.trans named.symm)
  exact equal ▸ isDue

theorem work_found {event : Event F} (distinct : (ids state).Nodup) (there : found id state = some event)
    (act : ∀ plan, (turn.conditions id).act plan = .ok ()) :
    found id (work state turn) = some event ∨ due turn.now event = true ∧
        found id (work state turn) = some (afterRun (turn.conditions id) false event) := by
  rcases executeAll_found turn id (distinct.sublist (filter_sublist.map _)) with
    left | ⟨listed, other, found, -, left⟩
  · exact .inl (left.trans there)
  · cases there.symm.trans found
    rw [performAll_succeeds act] at left
    exact .inr ⟨due_found distinct there listed, left⟩

end Turn

def ranIn (id : String) (state : State F) (turn : Turn F) : List Occurrence :=
  match found id state, found id (work state turn) with
  | some before, some after =>
    if before.runCount < after.runCount then
      [⟨before.nextRunAt.getD (turn.conditions id).started, (turn.conditions id).started,
        (turn.conditions id).ended⟩]
    else []
  | _, _ => []

def occurrences (id : String) (state : State F) : List (Turn F) → List Occurrence
  | [] => []
  | turn :: rest => ranIn id state turn ++ occurrences id (work state turn) rest

/-- A turn whose clock does not go back and whose actions succeed. -/
structure Smooth (id : String) (turn : Turn F) : Prop where
  began : turn.now ≤ (turn.conditions id).started
  ended : (turn.conditions id).started ≤ (turn.conditions id).ended
  act : ∀ plan, (turn.conditions id).act plan = .ok ()

structure Stands (start period limit : Int) (earlier : List Occurrence) (event : Event F) : Prop where
  every : event.repeatSeconds = period
  most : event.maxRuns = limit
  counted : event.runCount = earlier.length
  recurs : ∃ due, Recurs start period earlier due ∧
    (event.nextRunAt = some due ∧ (0 < limit → (earlier.length : Int) < limit) ∨
      event.nextRunAt = none ∧ (0 < limit → (earlier.length : Int) ≤ limit))

section History

variable {start period limit : Int} {earlier : List Occurrence} {event : Event F} {turn : Turn F}
  {id : String} {state : State F}

theorem Stands.run (stands : Stands start period limit earlier event) (positive : 0 < period)
    (isDue : due turn.now event = true) (smooth : Smooth id turn) :
    Stands start period limit (earlier ++ [⟨event.nextRunAt.getD (turn.conditions id).started,
      (turn.conditions id).started, (turn.conditions id).ended⟩])
      (afterRun (turn.conditions id) false event) := by
  obtain ⟨next, recurs, ⟨same, room⟩ | ⟨idle, -⟩⟩ := stands.recurs
  · have early : next ≤ turn.now := by
      simp only [due, same, Option.any_some, Bool.and_eq_true, decide_eq_true_eq] at isDue
      exact isDue.2
    have grown : Recurs start period (earlier ++ [⟨next, (turn.conditions id).started, (turn.conditions id).ended⟩])
        (Occurrence.next period ⟨next, (turn.conditions id).started, (turn.conditions id).ended⟩) :=
      .snoc recurs (early.trans smooth.began) smooth.ended
    rw [same, Option.getD_some]
    have count := stands.counted
    have nonzero : event.repeatSeconds ≠ 0 := by
      rw [stands.every]
      exact positive.ne'
    unfold afterRun
    dsimp only
    split
    · rename_i again
      refine ⟨stands.every, stands.most, by simp [count], _, grown, .inl ⟨?_, fun limited => ?_⟩⟩
      · simp [same, Occurrence.next, stands.every]
      · simp only [repeatsLeft, Bool.not_false, Bool.true_and, Bool.and_eq_true, Bool.or_eq_true,
          decide_eq_true_eq, stands.most] at again
        rw [length_append, length_singleton, ← count]
        rcases again.2 with unlimited | below
        · omega
        · exact below
    · refine ⟨stands.every, stands.most, by simp [count], _, grown, .inr ⟨rfl, fun limited => ?_⟩⟩
      have below := room limited
      rw [length_append, length_singleton]
      push_cast
      omega
  · simp [due, idle] at isDue

theorem Stands.work (stands : Stands start period limit earlier event) (positive : 0 < period)
    (distinct : (ids state).Nodup) (there : found id state = some event) (smooth : Smooth id turn) :
    ∃ after, found id (work state turn) = some after ∧
      Stands start period limit (earlier ++ ranIn id state turn) after := by
  rcases work_found distinct there smooth.act with left | ⟨isDue, left⟩
  · refine ⟨event, left, ?_⟩
    rw [ranIn, there, left]
    simpa using stands
  · refine ⟨_, left, ?_⟩
    have counts : event.runCount < (afterRun (turn.conditions id) false event).runCount := by
      unfold afterRun
      dsimp only
      split <;> exact Nat.lt_succ_self _
    rw [ranIn, there, left]
    dsimp only
    rw [if_pos counts]
    exact stands.run positive isDue smooth

theorem Stands.turns (turns : List (Turn F)) (stands : Stands start period limit earlier event)
    (positive : 0 < period) (distinct : (ids state).Nodup) (there : found id state = some event)
    (smooth : ∀ turn ∈ turns, Smooth id turn) :
    ∃ after, found id (turns.foldl Events.work state) = some after ∧
      Stands start period limit (earlier ++ occurrences id state turns) after := by
  induction turns generalizing earlier event state with
  | nil => exact ⟨event, there, by simpa [occurrences] using stands⟩
  | cons turn rest ih =>
    obtain ⟨middle, reached, kept⟩ := stands.work positive distinct there (smooth turn mem_cons_self)
    have later : (ids (Events.work state turn)).Nodup := by
      rw [Events.work, executeAll_ids]
      exact distinct
    obtain ⟨after, left, result⟩ :=
      ih kept later reached fun other member => smooth other (mem_cons_of_mem _ member)
    refine ⟨after, left, ?_⟩
    rw [occurrences, ← append_assoc]
    exact result

end History

section Created

variable {rt : Platform F} {body : Value F} {id : String} {now : Int} {event : Event F}

theorem buildEvent_ok (built : rt.buildEvent body id now = .ok event) :
    event.id = id ∧ event.nextRunAt = event.runAt ∧ event.runCount = 0 := by
  unfold Platform.buildEvent at built
  split at built
  · cases built
  · obtain ⟨plans, -, built⟩ := result_bind.mp built
    obtain ⟨repeatSeconds, -, built⟩ := result_bind.mp built
    split at built
    · cases built
    obtain ⟨maxRuns, -, built⟩ := result_bind.mp built
    split at built
    · cases built
    obtain ⟨runAt, -, built⟩ := result_bind.mp built
    cases built
    exact ⟨rfl, rfl, rfl⟩
  · cases built

theorem buildEvent_stands {start : Int} (built : rt.buildEvent body id now = .ok event)
    (timed : event.runAt = some start) : Stands start event.repeatSeconds event.maxRuns [] event := by
  obtain ⟨-, next, count⟩ := buildEvent_ok built
  exact ⟨rfl, rfl, count, start, .none, .inl ⟨next.trans timed, by simp⟩⟩

theorem createEvent_found {state after : State F} (fresh : id ∉ ids state)
    (distinct : (ids state).Nodup) (created : rt.createEvent body id now state = .ok after) :
    ∃ event, rt.buildEvent body id now = .ok event ∧ found id after = some event ∧ (ids after).Nodup := by
  obtain ⟨event, built, same⟩ := result_bind.mp created
  cases same
  have named := (buildEvent_ok built).1
  have absent : state.events.find? (fun event => event.id = id) = none := Table.find_none.mpr fresh
  refine ⟨event, built, ?_, ?_⟩
  · simp [found, List.find?_append, absent, named]
  · simp only [ids, map_append, map_cons, map_nil, named]
    exact nodup_append.mpr ⟨distinct, nodup_singleton _, by
      rintro first member second inside rfl
      cases mem_singleton.mp inside
      exact fresh member⟩

end Created

/-- How an event recurs: its runs so far, one after another, and its next one. -/
structure Recurring (start period limit : Int) (runs : List Occurrence) (next : Option Int) : Prop where
  ordered : runs.Pairwise fun first second =>
    first.due < second.due ∧ first.ended < second.due ∧ first.ended < second.began
  limited : 0 < limit → (runs.length : Int) ≤ limit
  later : ∀ time, next = some time → ∀ run ∈ runs, run.due < time ∧ run.ended < time
  follows : ∀ time, next = some time → (runs = [] ∧ time = start) ∨
    ∃ before last, runs = before ++ [last] ∧ time = last.next period
  phase : (∀ run ∈ runs, run.Punctual period) → (∀ run ∈ runs, ∃ count : Nat, run.due = start + count * period) ∧
      ∀ time, next = some time → ∃ count : Nat, time = start + count * period

theorem Stands.recurring {start period limit : Int} {runs : List Occurrence} {event : Event F}
    (stands : Stands start period limit runs event) (positive : 0 < period) :
    Recurring start period limit runs event.nextRunAt := by
  obtain ⟨due, recurs, next⟩ := stands.recurs
  have only : ∀ time, event.nextRunAt = some time → time = due := by
    intro time same
    rcases next with ⟨there, -⟩ | ⟨idle, -⟩
    · exact Option.some.inj (same.symm.trans there)
    · rw [idle] at same
      cases same
  constructor
  · exact recurs.ordered positive
  · intro limited
    rcases next with ⟨-, room⟩ | ⟨-, room⟩
    · exact (room limited).le
    · exact room limited
  · intro time same
    rw [only time same]
    exact recurs.before positive
  · intro time same
    rw [only time same]
    exact recurs.follows
  · intro punctual
    refine ⟨recurs.phases punctual, fun time same => ?_⟩
    rw [only time same]
    exact ⟨runs.length, recurs.phase punctual⟩

section Claim

variable {κ : Type} [DecidableEq κ]

theorem backup_next (rt : Backups.Platform F Int) (calls : List (Backups.Call F Int κ)) (now : Int)
    (path : κ) (attempts : Int) (ran : Backups.Platform.due (rt.run calls).schedule now = true) :
    (rt.run (calls ++ [.tick now (.verified path attempts)])).schedule.nextRun =
      some (rt.plus now (Backups.orInt (rt.run calls).schedule.intervalHours 24 * 3600)) := by
  rw [Backups.Platform.run_snoc, Backups.Platform.perform, Backups.Platform.tick_ran rt ran rfl]
  by_cases limited : 0 < (rt.listed now (.verified path attempts)
      (⟨true, some path, some attempts, none⟩ : Backups.Report κ) (rt.run calls)).schedule.retentionDays
  · rw [Backups.Platform.pruneScheduledBackups, if_neg (not_le.mpr limited)]
    rfl
  · rw [rt.prune_unlimited (not_lt.mp limited)]
    rfl

/-- An event keeps its phase while its runs are punctual; after one that is not, the phase starts anew just
after its end. A backup schedule counts its interval from the tick that ran the backup. -/
theorem recurring_phases (rt : Platform F) (body : Value F) (id : String) (created start : Int)
    (state after : State F) (event : Event F) (turns : List (Turn F))
    (backups : Backups.Platform F Int) (calls : List (Backups.Call F Int κ)) (now : Int) (path : κ)
    (attempts : Int)
    (fresh : id ∉ ids state) (distinct : (ids state).Nodup)
    (stored : rt.createEvent body id created state = .ok after) (there : found id after = some event)
    (timed : event.runAt = some start) (positive : 0 < event.repeatSeconds)
    (smooth : ∀ turn ∈ turns, Smooth id turn)
    (adds : ∀ time seconds, backups.plus time seconds = time + seconds)
    (ran : Backups.Platform.due (backups.run calls).schedule now = true) :
    (∃ last, found id (turns.foldl work after) = some last ∧
      Recurring start event.repeatSeconds event.maxRuns (occurrences id after turns) last.nextRunAt) ∧
    let interval := Backups.orInt (backups.run calls).schedule.intervalHours 24 * 3600
    (backups.run (calls ++ [.tick now (.verified path attempts)])).schedule.nextRun = some (now + interval) ∧
      ∀ clock : Int, (∃ count : Int, now + interval = clock + count * interval) ↔
        ∃ count : Int, now = clock + count * interval := by
  constructor
  · obtain ⟨found, built, here, apart⟩ := createEvent_found fresh distinct stored
    cases there.symm.trans here
    obtain ⟨last, left, stands⟩ :=
      (buildEvent_stands built timed).turns turns positive apart here smooth
    exact ⟨last, left, stands.recurring positive⟩
  · refine ⟨by rw [backup_next backups calls now path attempts ran, adds], fun clock => ?_⟩
    constructor
    · rintro ⟨count, same⟩
      exact ⟨count - 1, by rw [sub_mul, one_mul]; omega⟩
    · rintro ⟨count, same⟩
      exact ⟨count + 1, by rw [add_mul, one_mul]; omega⟩

end Claim

def seconds : Platform Int where
  toRuntime := wholeRuntime
  eventTime text :=
    match plainInt text with
    | some time => .ok time
    | none => valueError "Invalid isoformat string"
  gameMapServices := []

def minutely : Value Int :=
  .object [("actions", .list [.object [("type", .str "typed-knob-plan")]]), ("runAt", .str "1000"),
    ("repeatSeconds", .int 60)]

def created : Event Int where
  id := "a"
  name := "admin event"
  status := .scheduled
  createdAt := 900
  runAt := some 1000
  nextRunAt := some 1000
  repeatSeconds := 60
  maxRuns := 0
  runCount := 0
  lastRunAt := none
  actions := [.object [("type", .str "typed-knob-plan")]]
  plan := [.dryRun "typed-knob-plan"]

def turnAt (now : Int) : Turn Int := ⟨now, fun _ => ⟨now, now, "r", fun _ => .ok ()⟩⟩

theorem minutely_created : seconds.createEvent minutely "a" 900 ⟨[], [], none⟩ = .ok ⟨[created], [], none⟩ := by
  rfl

/-- The next run after one that is a period and forty seconds late is off the phase, and so is the next
backup after one that ran seven seconds late. -/
theorem phases_drift : (∃ last, found "a" (work ⟨[created], [], none⟩ (turnAt 1100)) = some last ∧
      last.nextRunAt = some 1101 ∧ ¬ ∃ count : Int, 1101 = 1000 + count * created.repeatSeconds) ∧
    (Backups.hourly.run [.configure (Backups.settings 24 0) 0] : Backups.World Int Nat).schedule.nextRun = some 18000 ∧
    (Backups.hourly.run [.configure (Backups.settings 24 0) 0, .tick 18007 (.verified 0 1)] :
      Backups.World Int Nat).schedule.nextRun = some 104407 ∧
    ¬ ∃ count : Int, 104407 = 18000 + count * (24 * 3600) := by
  refine ⟨⟨_, rfl, rfl, ?_⟩, by decide +kernel, by decide +kernel, ?_⟩
  · rintro ⟨count, same⟩
    simp only [created] at same
    omega
  · rintro ⟨count, same⟩
    omega

/-- A punctual run, and a backup. -/
theorem minutely_recurs : (∃ last, found "a" ([turnAt 1005].foldl work ⟨[created], [], none⟩) = some last ∧
      Recurring 1000 60 0 (occurrences "a" ⟨[created], [], none⟩ [turnAt 1005]) last.nextRunAt) ∧
    let calls : List (Backups.Call Int Int Nat) := [.configure (Backups.settings 24 0) 0]
    let interval := Backups.orInt (Backups.hourly.run calls).schedule.intervalHours 24 * 3600
    (Backups.hourly.run (calls ++ [.tick 18000 (.verified 0 1)])).schedule.nextRun = some (18000 + interval) ∧
      ∀ clock : Int, (∃ count : Int, 18000 + interval = clock + count * interval) ↔
        ∃ count : Int, 18000 = clock + count * interval :=
  recurring_phases seconds minutely "a" 900 1000 ⟨[], [], none⟩ ⟨[created], [], none⟩ created
    [turnAt 1005] Backups.hourly [.configure (Backups.settings 24 0) 0] 18000 0 1 (by simp [ids])
    (by simp [ids]) minutely_created rfl rfl (by decide)
    (by
      intro turn member
      cases mem_singleton.mp member
      exact ⟨by decide, by decide, fun _ => rfl⟩)
    (fun _ _ => rfl) (by decide +kernel)

end Dash.Events
