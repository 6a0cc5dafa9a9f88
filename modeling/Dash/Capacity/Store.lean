import Dash.Foundation.Table
import Dash.Foundation.Transaction
import Dash.Python.Value

/-! The capacity ledger: starts of services, what an observation of the maps records, and what the writes do
to the events of one service.

The identifiers that a call draws are given with it. A policy is read at every observation,
so each one has its own.
-/

set_option autoImplicit false

namespace Dash.Capacity

open Dash.Python Dash.Foundation

inductive Mode where
  | alwaysOn | dynamic | disabled
  deriving DecidableEq, Repr

inductive RuntimeState where
  | running | exited | created | restarting | paused | dead | missing | unknown
  deriving DecidableEq, Repr

inductive Kind where
  | start | revisit
  deriving DecidableEq, Repr

inductive Outcome where
  | ready | timeout | failed | warm | cold
  deriving DecidableEq, Repr

def validModes : List (String × Mode) :=
  [("always-on", .alwaysOn), ("dynamic", .dynamic), ("disabled", .disabled)]

def validStates : List (String × RuntimeState) :=
  [("running", .running), ("exited", .exited), ("created", .created), ("restarting", .restarting),
    ("paused", .paused), ("dead", .dead), ("missing", .missing), ("unknown", .unknown)]

structure Completion (T : Type) [LE T] [Zero T] where
  (completedAt durationSeconds : T)
  outcome : Outcome
  nonneg : 0 ≤ durationSeconds

structure Event (T : Type) [LE T] [Zero T] where
  (id service : String)
  kind : Kind
  startedAt : T
  completion : Option (Completion T)
  (source detailsJson : String)
  createdAt : T

structure ServiceState (T : Type) where
  service : String
  lastObservedAt : T
  lastRuntimeState : RuntimeState
  (lastReady lastActive : Bool)
  lastInactiveAt : Option T
  pendingStartId : Option String
  updatedAt : T

structure MapSample where
  service : String
  mode : Mode
  state : RuntimeState
  players : Int
  (demanded ready optionalWarm : Bool)
  retentionSeconds : Int
  active : Bool

structure Sample (T : Type) where
  observedAt : T
  row : MapSample
  intervalSeconds : T

structure Db (T : Type) [LE T] [Zero T] where
  states : List (ServiceState T)
  samples : List (Sample T)
  events : List (Event T)

structure Policy (T : Type) [LE T] where
  (sampleIntervalSeconds maxObservationGapSeconds startTimeoutSeconds : T)
  /-- `now - sampleRetentionDays * 86400` -/
  sampleCutoff : T → T
  /-- `now - eventRetentionDays * 86400` -/
  eventCutoff : T → T
  eventCutoff_le : ∀ now, eventCutoff now ≤ now

/-- The interpreter, and times: `sub` is the difference as the interpreter rounds it. -/
structure Platform (F T : Type) [LinearOrder T] [Zero T] extends Runtime F where
  sub : T → T → T
  sub_nonneg : ∀ later earlier, earlier ≤ later → 0 ≤ sub later earlier
  /-- NaN and the infinities raise ValueError and OverflowError. -/
  intOfFloat_error : ∀ value why, intOfFloat value = .error why → why.type ≠ .integrityError

/-- The identifiers `uuid.uuid4().hex` that are drawn for the start and the revisit of a service. -/
structure Drawn where
  start : String → String
  revisit : String → String

structure Completed (T : Type) where
  service : String
  durationSeconds : T
  outcome : Outcome

structure Revisit (T : Type) where
  service : String
  gapSeconds : T
  outcome : Outcome

structure Observed (T : Type) where
  maps : Nat
  startsCompleted : List (Completed T)
  revisits : List (Revisit T)

def pendingClash : Exception := ⟨.integrityError, "UNIQUE constraint failed: events.service"⟩

variable {F T : Type} [LinearOrder T] [Zero T]

def Event.isPending (event : Event T) : Bool :=
  decide (event.kind = .start) && event.completion.isNone

def Db.pending? (db : Db T) (service : String) : Option (Event T) :=
  db.events.find? fun event => decide (event.service = service) && event.isPending

def Db.event? (db : Db T) (id : String) : Option (Event T) :=
  db.events.find? fun event => event.id = id

def Db.state? (db : Db T) (service : String) : Option (ServiceState T) :=
  db.states.find? fun state => state.service = service

/-- Complete an event; a duration is never negative. -/
def Event.complete (event : Event T) (now duration : T) (outcome : Outcome) : Event T :=
  { event with completion := some ⟨now, max 0 duration, outcome, le_max_left ..⟩ }

namespace Platform

variable (rt : Platform F T)

abbrev Action (T α : Type) [LE T] [Zero T] : Type := Transaction (Db T) Exception α

/-- `insert into events`, with its two unique indexes. -/
def insertEvent (event : Event T) : Action T Unit := do
  let db ← Transaction.read id
  Transaction.check (!(event.isPending && (db.pending? event.service).isSome)) pendingClash
  Transaction.check (event.id ∉ db.events.map Event.id) ⟨.integrityError, "UNIQUE constraint failed: events.id"⟩
  Transaction.write fun db => { db with events := db.events ++ [event] }

def updateEvent (id : String) (change : Event T → Event T) : Action T Unit :=
  Transaction.write fun db => { db with events := update Event.id id change db.events }

def updateState (service : String) (change : ServiceState T → ServiceState T) : Action T Unit :=
  Transaction.write fun db => { db with
    states := update ServiceState.service service change db.states }

/-- `insert into service_state ... on conflict(service) do update` of every column. -/
def upsertState (row : ServiceState T) : Action T Unit :=
  Transaction.write fun db => { db with
    states := upsert ServiceState.service row db.states }

def recordStart (service source : Value F) (now : T) (details : Value F) (uuid : String) :
    Action T String := do
  let service := strip (rt.str (rt.orElse service (.str "")))
  Transaction.check (decide (service ≠ "") && decide (service.length ≤ 128)) ⟨.valueError, "service is required"⟩
  match ← Transaction.read fun db => db.pending? service with
  | some existing => pure existing.id
  | none => do
    let eventId := "start-" ++ uuid
    let detailsJson ← Transaction.lift (rt.dumps true (rt.orElse details (.dict [])))
    insertEvent ⟨eventId, service, .start, now, none, clip 64 (rt.str source), detailsJson, now⟩
    updateState service fun state => { state with
      pendingStartId := some eventId
      updatedAt := now }
    pure eventId

/-- `details["error"] = error` -/
def setError (details : Value F) (error : String) : Result (Value F) :=
  match details with
  | .dict entries => .ok (.dict (insertEntry entries ("error", .str error)))
  | _ => typeError "object does not support item assignment"

def failStart (service : String) (error : Value F) (now : T) : Action T Unit := do
  match ← Transaction.read fun db => db.pending? service with
  | none => pure ()
  | some row => do
    let details ← Transaction.lift (rt.loads (if row.detailsJson = "" then "{}" else row.detailsJson))
    let details ← Transaction.lift
      (setError details (clip 1000 (rt.str (rt.orElse error (.str "start failed")))))
    let detailsJson ← Transaction.lift (rt.dumps true details)
    updateEvent row.id fun event =>
      { event.complete now (rt.sub now row.startedAt) .failed with detailsJson }
    updateState service fun state => { state with
      pendingStartId := none
      updatedAt := now }

/-- The first loop of `observe`, after the services that were seen. -/
def normalize (seen : List String) : List (Value F) → Result (List MapSample)
  | [] => .ok []
  | raw :: rest =>
    if !raw.isDict then valueError "each map sample must be an object"
    else
      let service := strip (rt.str (rt.orElse (raw.get "service") (.str "")))
      if service = "" ∨ 128 < service.length ∨ service ∈ seen then
        valueError "map services must be unique non-empty identifiers"
      else
        let mode := strip (rt.str (rt.orElse (raw.get "mode") (.str "")))
        let state := rt.lower (strip (rt.str (rt.orElse (raw.get "state") (.str "unknown"))))
        match validModes.lookup mode with
        | none => valueError s!"invalid mode for {service}"
        | some mode => do
          let state := (validStates.lookup state).getD .unknown
          let players ← rt.int (rt.orElse (raw.get "players") (.int 0))
          if ¬ (0 ≤ players ∧ players ≤ 100000) then
            valueError s!"invalid player count for {service}"
          else do
            let demanded := rt.truthy (raw.get "demanded")
            let retention ← rt.int (rt.orElse (raw.get "retentionSeconds") (.int 0))
            let others ← normalize (service :: seen) rest
            .ok ({ service
                   mode
                   state
                   players
                   demanded
                   ready := rt.truthy (raw.get "ready")
                   optionalWarm := rt.truthy (raw.get "optionalWarm")
                   retentionSeconds := max 0 (min retention 86400)
                   active := decide (0 < players) || demanded } :: others)

/-- `maps must be a non-empty list`, and the maps normalized. -/
def incoming (maps : Value F) : Result (List MapSample) :=
  match maps with
  | .list items => if items.isEmpty then valueError "maps must be a non-empty list"
      else rt.normalize [] items
  | _ => valueError "maps must be a non-empty list"

/-- `previous["last_inactive_at"] or previous["last_observed_at"]`, where zero counts as missing. -/
def idleStart (previous : ServiceState T) : T :=
  match previous.lastInactiveAt with
  | some time => if time = 0 then previous.lastObservedAt else time
  | none => previous.lastObservedAt

/-- Complete a pending start that is ready or took too long, and what stays pending. -/
def settle (policy : Policy T) (now : T) (row : MapSample) (pending : Option String) :
    Action T (Option String × List (Completed T)) := do
  match pending with
  | none => pure (none, [])
  | some id =>
    match ← Transaction.read fun db => db.event? id with
    | none => pure (some id, [])
    | some event =>
      if event.completion.isSome then pure (some id, [])
      else
        let age := max 0 (rt.sub now event.startedAt)
        if row.state = .running ∧ row.ready = true then do
          updateEvent id fun event => event.complete now age .ready
          pure (none, [⟨row.service, age, .ready⟩])
        else if policy.startTimeoutSeconds ≤ age then do
          updateEvent id fun event => event.complete now age .timeout
          pure (none, [⟨row.service, age, .timeout⟩])
        else pure (some id, [])

def detect (now : T) (drawn : Drawn) (row : MapSample) (previous : Option (ServiceState T))
    (known : Option String) : Action T (Option String) :=
  match previous, known with
  | some previous, none =>
    if row.state = .running ∧ previous.lastRuntimeState ≠ .running then do
      let id := "start-" ++ drawn.start row.service
      insertEvent ⟨id, row.service, .start, previous.lastObservedAt, none, "observed", "{}", now⟩
      pure (some id)
    else pure none
  | _, known => pure known

def revisit (now : T) (drawn : Drawn) (row : MapSample) (previous : Option (ServiceState T))
    (pending : Option String) (lastInactive : Option T) :
    Action T (Option T × List (Revisit T)) :=
  match previous with
  | some previous =>
    if row.active = true ∧ previous.lastActive = false then do
      let gap := max 0 (rt.sub now (idleStart previous))
      let outcome := if row.state = .running ∧ row.ready = true ∧ pending = none then Outcome.warm else .cold
      insertEvent ⟨"revisit-" ++ drawn.revisit row.service, row.service, .revisit,
        idleStart previous, some ⟨now, gap, outcome, le_max_left ..⟩, "observed", "{}", now⟩
      pure (none, [⟨row.service, gap, outcome⟩])
    else if row.active = false ∧ previous.lastActive = true then pure (some now, [])
    else pure (lastInactive, [])
  | none => pure (if row.active then lastInactive else some now, [])

/-- One round of the second loop of `observe`. -/
def observeMap (policy : Policy T) (now : T) (drawn : Drawn) (row : MapSample) :
    Action T (List (Completed T) × List (Revisit T)) := do
  let previous ← Transaction.read fun db => db.state? row.service
  let interval := match previous with
    | some previous => max 0 (min (rt.sub now previous.lastObservedAt) policy.maxObservationGapSeconds)
    | none => policy.sampleIntervalSeconds
  Transaction.write fun db => { db with samples := db.samples ++ [⟨now, row, interval⟩] }
  let lastInactive := match previous.bind ServiceState.lastInactiveAt with
    | some time => some time
    | none => if row.active then none else some now
  let known ← Transaction.read fun db => match previous.bind ServiceState.pendingStartId with
    | some id => some id
    | none => (db.pending? row.service).map Event.id
  let pending ← detect now drawn row previous known
  let (lastInactive, revisits) ← rt.revisit now drawn row previous pending lastInactive
  let (pending, completed) ← rt.settle policy now row pending
  upsertState ⟨row.service, now, row.state, row.ready, row.active, lastInactive, pending, now⟩
  pure (completed, revisits)

/-- The two deletions at the end of `observe`. -/
def prune (policy : Policy T) (now : T) : Action T Unit :=
  Transaction.write fun db => { db with
    samples := db.samples.filter fun sample => !decide (sample.observedAt < policy.sampleCutoff now)
    events := db.events.filter fun event => match event.completion with
      | some completion => !decide (completion.completedAt < policy.eventCutoff now)
      | none => true }

def observe (policy : Policy T) (maps : Value F) (now : T) (drawn : Drawn) : Action T (Observed T) := do
  let normalized ← Transaction.lift (rt.incoming maps)
  let rounds ← Transaction.each (rt.observeMap policy now drawn) normalized
  prune policy now
  pure ⟨normalized.length, (rounds.map Prod.fst).flatten, (rounds.map Prod.snd).flatten⟩

end Platform

open List

/-- An observation of a service, and whether one of its starts was pending when it came. -/
structure Observation (T : Type) where
  now : T
  state : RuntimeState
  (ready active pending : Bool)

structure Edge (T : Type) where
  /-- The first inactive observation of the idle period. -/
  (since now : T)
  warm : Bool

variable {T : Type}

def idleSince (history : List (Observation T)) : Option T :=
  (history.reverse.takeWhile fun seen => !seen.active).getLast?.map Observation.now

/-- The edge an observation makes after the ones before it. It is warm if the map is running and
ready and no start is pending; a map that was not running before has just been started. -/
def edge (before : List (Observation T)) (seen : Observation T) : Option (Edge T) :=
  match before.getLast?, idleSince before with
  | some last, some since =>
    if seen.active = true ∧ last.active = false then
      some ⟨since, seen.now, decide (seen.state = .running) && seen.ready &&
        !(seen.pending || decide (last.state ≠ .running))⟩
    else none
  | _, _ => none

def edges (past : List (Observation T)) : List (Observation T) → List (Edge T)
  | [] => []
  | seen :: rest => (edge past seen).toList ++ edges (past ++ [seen]) rest

theorem edges_append (past history : List (Observation T)) (seen : Observation T) :
    edges past (history ++ [seen]) = edges past history ++ (edge (past ++ history) seen).toList := by
  induction history generalizing past with
  | nil => simp [edges]
  | cons first rest ih => simp [edges, ih]

@[simp] theorem idleSince_active (history : List (Observation T)) (seen : Observation T)
    (active : seen.active = true) : idleSince (history ++ [seen]) = none := by
  simp [idleSince, active]

theorem idleSince_inactive (history : List (Observation T)) (seen : Observation T) (inactive : seen.active = false) :
    idleSince (history ++ [seen]) = some ((idleSince history).getD seen.now) := by
  simp only [idleSince, reverse_append, reverse_singleton, singleton_append,
    takeWhile_cons, inactive, Bool.not_false, ↓reduceIte]
  cases tail : history.reverse.takeWhile fun seen => !seen.active with
  | nil => simp
  | cons first rest => simp [List.getLast?_eq_getLast_of_ne_nil]

theorem idleSince_none {history : List (Observation T)} {last : Observation T}
    (final : history.getLast? = some last) : idleSince history = none ↔ last.active = true := by
  obtain ⟨before, rfl⟩ := List.getLast?_eq_some_iff.mp final
  cases active : last.active with
  | true => simp [active]
  | false => simp [idleSince_inactive, active]

theorem idleSince_mem {history : List (Observation T)} {time : T}
    (since : idleSince history = some time) : ∃ seen ∈ history, seen.now = time := by
  obtain ⟨seen, last, same⟩ := Option.map_eq_some_iff.mp since
  have member := List.mem_of_getLast? last
  exact ⟨seen, mem_reverse.mp ((List.takeWhile_prefix _).mem member), same⟩

end Dash.Capacity

namespace Dash.Capacity

open Dash.Python Dash.Foundation List
open Foundation.Transaction (check_bind read_bind write_ok)

variable {F T : Type} [LinearOrder T] [Zero T]

def eventsOf (service : String) (db : Db T) : List (Event T) :=
  db.events.filter fun event => event.service = service

def pendingOf (service : String) (db : Db T) : List (Event T) :=
  (eventsOf service db).filter Event.isPending

def revisitsOf (service : String) (db : Db T) : List (Event T) :=
  (eventsOf service db).filter fun event => event.kind = .revisit

def startOutcomes : List Outcome := [.ready, .timeout, .failed]

def Event.Proper (event : Event T) : Prop :=
  match event.kind, event.completion with
  | .start, none => True
  | .start, some completion => completion.outcome ∈ startOutcomes
  | .revisit, none => False
  | .revisit, some completion => completion.outcome = .warm ∨ completion.outcome = .cold

def Event.Moves (before after : Event T) : Prop :=
  after = before ∨ (before.completion = none ∧ ∃ completion detailsJson, completion.outcome ∈ startOutcomes ∧
      after = { before with completion := some completion, detailsJson })

structure Sound (db : Db T) : Prop where
  ids : (db.events.map Event.id).Nodup
  services : (db.states.map ServiceState.service).Nodup
  proper : ∀ event ∈ db.events, event.Proper

structure Linked (service : String) (db : Db T) : Prop where
  single : (pendingOf service db).length ≤ 1
  points : ∀ row, db.state? service = some row → row.pendingStartId = (pendingOf service db).head?.map Event.id

/-- A write for one service leaves the others alone, and no event goes back. -/
structure Step (service : String) (db after : Db T) : Prop where
  sound : Sound after
  states : ∀ other, other ≠ service → after.state? other = db.state? other
  events : ∀ other, other ≠ service → eventsOf other after = eventsOf other db
  moves : ∀ event ∈ db.events, ∃ later ∈ after.events, event.Moves later

theorem Event.Moves.trans {first second third : Event T} (one : first.Moves second)
    (other : second.Moves third) : first.Moves third := by
  rcases one with rfl | ⟨pending, completion, text, outcome, rfl⟩
  · exact other
  · rcases other with rfl | ⟨impossible, _⟩
    · exact .inr ⟨pending, completion, text, outcome, rfl⟩
    · cases impossible

namespace Step

variable {service : String} {db middle after : Db T}

theorem refl (sound : Sound db) : Step service db db :=
  ⟨sound, fun _ _ => rfl, fun _ _ => rfl, fun event member => ⟨event, member, .inl rfl⟩⟩

theorem trans (one : Step service db middle) (other : Step service middle after) : Step service db after where
  sound := other.sound
  states name apart := (other.states name apart).trans (one.states name apart)
  events name apart := (other.events name apart).trans (one.events name apart)
  moves event member := by
    obtain ⟨second, inside, first⟩ := one.moves event member
    obtain ⟨third, last, rest⟩ := other.moves second inside
    exact ⟨third, last, first.trans rest⟩

end Step

theorem pending_eq (db : Db T) (service : String) : db.pending? service = (pendingOf service db).head? := by
  rw [Db.pending?, pendingOf, eventsOf, filter_filter, List.head?_filter]
  congr 1
  funext event
  rw [Bool.and_comm]

variable {service : String} {event : Event T}

theorem mem_pending {db : Db T} (member : event ∈ pendingOf service db) :
    event ∈ db.events ∧ event.service = service ∧ event.kind = .start ∧ event.completion = none := by
  rw [pendingOf, mem_filter, eventsOf, mem_filter] at member
  obtain ⟨⟨inside, named⟩, pending⟩ := member
  simp only [Event.isPending, Bool.and_eq_true, decide_eq_true_eq, Option.isNone_iff_eq_none] at pending
  exact ⟨inside, by simpa using named, pending⟩

variable {db after : Db T}

theorem insert_effect (sound : Sound db) (proper : event.Proper)
    (done : Platform.insertEvent event db = .ok ((), after)) :
    Step event.service db after ∧ after.states = db.states ∧
      eventsOf event.service after = eventsOf event.service db ++ [event] := by
  simp only [Platform.insertEvent, read_bind, check_bind, write_ok,
    Prod.mk.injEq, true_and, id_eq, decide_eq_true_eq] at done
  obtain ⟨_, fresh, rfl⟩ := done
  refine ⟨⟨⟨Table.insert_keys sound.ids fresh, sound.services, ?_⟩, fun _ _ => rfl, ?_, ?_⟩, rfl, ?_⟩
  · intro other member
    rcases mem_append.mp member with old | new
    · exact sound.proper other old
    · exact mem_singleton.mp new ▸ proper
  · intro other apart
    simp [eventsOf, Ne.symm apart]
  · exact fun old member => ⟨old, mem_append_left _ member, .inl rfl⟩
  · simp [eventsOf]

theorem complete_effect {change : Event T → Event T} (sound : Sound db) (pending : pendingOf service db = [event])
    (shape : ∀ row : Event T, ∃ completion detailsJson, completion.outcome ∈ startOutcomes ∧
      change row = { row with completion := some completion, detailsJson })
    (done : Platform.updateEvent event.id change db = .ok ((), after)) :
    Step service db after ∧ after.states = db.states ∧ pendingOf service after = [] ∧
      revisitsOf service after = revisitsOf service db := by
  simp only [Platform.updateEvent, write_ok, Prod.mk.injEq, true_and] at done
  subst done
  have selected : event ∈ pendingOf service db := by simp [pending]
  obtain ⟨inside, rfl, start, uncompleted⟩ := mem_pending selected
  have kept : ∀ row, (change row).id = row.id ∧ (change row).service = row.service ∧ (change row).kind = row.kind := by
    intro row
    obtain ⟨completion, text, _, same⟩ := shape row
    rw [same]
    exact ⟨rfl, rfl, rfl⟩
  -- the one row with this identifier is the pending start
  have only : ∀ row ∈ db.events, row.id = event.id → row = event := fun row member same =>
    Table.same_row sound.ids member inside same
  refine ⟨⟨⟨?_, sound.services, ?_⟩, fun _ _ => rfl, ?_, ?_⟩, rfl, ?_, ?_⟩
  · rw [Table.update_keys fun row => (kept row).1]
    exact sound.ids
  · intro row member
    rcases Table.mem_update.mp member with ⟨old, before, same, rfl⟩ | ⟨before, _⟩
    · obtain ⟨completion, text, outcome, shaped⟩ := shape old
      rw [only old before same] at shaped ⊢
      rw [shaped, Event.Proper]
      simpa [start] using outcome
    · exact sound.proper row before
  · intro other apart
    refine Table.filter_update_same fun row member same => ?_
    rw [only row member same, (kept event).2.1]
    simp [Ne.symm apart]
  · intro row member
    by_cases same : row.id = event.id
    · obtain ⟨completion, text, outcome, shaped⟩ := shape row
      refine ⟨change row, Table.mem_update.mpr (.inl ⟨row, member, same, rfl⟩), .inr ⟨?_, ?_⟩⟩
      · rw [only row member same, uncompleted]
      · exact ⟨completion, text, outcome, shaped⟩
    · exact ⟨row, Table.mem_kept member same, .inl rfl⟩
  · rw [pendingOf, eventsOf, filter_filter] at pending ⊢
    rw [Table.filter_update, pending]
    · simp
    · intro row member same
      obtain ⟨completion, text, _, shaped⟩ := shape row
      simp [shaped, Event.isPending]
  · rw [revisitsOf, eventsOf, revisitsOf, eventsOf, filter_filter, filter_filter]
    refine Table.filter_update_same fun row member same => ?_
    rw [only row member same, (kept event).2.2, start]
    simp

theorem state_update {change : ServiceState T → ServiceState T} (sound : Sound db)
    (done : Platform.updateState service change db = .ok ((), after))
    (kept : ∀ row, (change row).service = row.service) :
    Step service db after ∧ after.events = db.events ∧ after.state? service = (db.state? service).map change := by
  simp only [Platform.updateState, write_ok, Prod.mk.injEq, true_and] at done
  subst done
  have found : ∀ wanted, (update ServiceState.service service change db.states).find?
      (fun row => row.service = wanted) = _ :=
    Table.find_update fun row same => (kept row).trans same
  refine ⟨⟨⟨sound.ids, ?_, sound.proper⟩, fun other apart => ?_, fun _ _ => rfl, ?_⟩, rfl, ?_⟩
  · rw [Table.update_keys kept]
    exact sound.services
  · exact (found other).trans (if_neg apart)
  · exact fun event member => ⟨event, member, .inl rfl⟩
  · exact (found service).trans (if_pos rfl)

theorem state_upsert {row : ServiceState T} (sound : Sound db) (done : Platform.upsertState row db = .ok ((), after)) :
    Step row.service db after ∧ after.events = db.events ∧ after.state? row.service = some row := by
  simp only [Platform.upsertState, write_ok, Prod.mk.injEq, true_and] at done
  subst done
  have found : ∀ wanted, (upsert ServiceState.service row db.states).find?
      (fun other => other.service = wanted) = _ := Table.find_upsert row db.states
  refine ⟨⟨⟨sound.ids, Table.upsert_keys sound.services, sound.proper⟩, fun other apart => ?_,
    fun _ _ => rfl, fun event member => ⟨event, member, .inl rfl⟩⟩, rfl, ?_⟩
  · exact (found other).trans (if_neg apart)
  · exact (found row.service).trans (if_pos rfl)

end Dash.Capacity
