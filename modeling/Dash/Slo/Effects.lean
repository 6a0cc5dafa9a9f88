import Dash.Slo.Store
import Dash.Python.Reencoding

/-! What the calls of the objectives' store do, said once. -/

set_option autoImplicit false

namespace Dash.Slo

open Dash.Python Dash.Foundation
open Foundation.Transaction (bind_ok check_bind check_ok lift_bind lift_ok pure_ok read_bind
  read_ok write_bind write_ok)

variable {F : Type}

theorem openIncident_mem {objective : String} {db : Db F} {incident : Incident F}
    (found : Platform.openIncident? objective db = some incident) :
    incident ∈ db.incidents ∧ incident.objectiveId = objective ∧ incident.status = .opened := by
  have holds := List.find?_some found
  simp only [Bool.and_eq_true, decide_eq_true_eq] at holds
  exact ⟨List.mem_of_find?_eq_some found, holds⟩

theorem prune_effect [LinearOrder F] {cutoff : F} {db after : Db F} (done : Platform.prune cutoff db = .ok ((), after)) :
    after.incidents = db.incidents ∧ after.events = db.events ∧
      after.snapshots = db.snapshots.filter (fun snapshot => !decide (snapshot.observedAt < cutoff)) ∧
      after.samples = db.samples.filter fun sample =>
        sample.snapshotId ∈ after.snapshots.map Snapshot.id := by
  simp only [Platform.prune, write_ok, Prod.mk.injEq, true_and] at done
  subst done
  exact ⟨rfl, rfl, rfl, rfl⟩

variable [LinearOrder F] [Zero F]

def head (events : List (Event F)) : Option String := events.getLast?.map Event.eventHash

def Incident.core (row : Incident F) : Incident F :=
  { row with
    acknowledgedAt := none
    acknowledgedBy := none }

namespace Platform

variable (rt : Platform F)

/-- The event is about the incident and carries the digest that is due. -/
structure Appends (events : List (Event F)) (incidentId : String) (eventType : EventType)
    (event : Event F) : Prop where
  incidentId : event.incidentId = incidentId
  eventType : event.eventType = eventType
  valid : rt.rowValid (head events) event = true

/-- What a call can do to the incidents and their events, one thing at a time. -/
inductive Moves : Db F → Db F → Prop where
  | other {db after : Db F} (incidents : after.incidents = db.incidents)
      (events : after.events = db.events) : Moves db after
  | opens {db after : Db F} (objective : Objective) (id : String) (epoch : F) (event : Event F)
      (fresh : id ∉ db.incidents.map Incident.id)
      (alone : openIncident? objective.id db = none)
      (told : rt.Appends db.events id .opened event)
      (incidents : after.incidents = db.incidents ++ [objective.incident id epoch])
      (events : after.events = db.events ++ [event]) : Moves db after
  | fails {db after : Db F} (incident : Incident F) (epoch : F) (member : incident ∈ db.incidents)
      (opened : incident.status = .opened)
      (incidents : after.incidents = update Incident.id incident.id (Incident.fail epoch) db.incidents)
      (events : after.events = db.events) : Moves db after
  | resolves {db after : Db F} (incident : Incident F) (epoch : F) (event : Event F)
      (member : incident ∈ db.incidents) (opened : incident.status = .opened)
      (told : rt.Appends db.events incident.id .resolved event)
      (incidents : after.incidents = update Incident.id incident.id (Incident.resolve epoch) db.incidents)
      (events : after.events = db.events ++ [event]) : Moves db after
  | acknowledges {db after : Db F} (incident : Incident F) (epoch : F) (actor : String)
      (event : Event F) (member : incident ∈ db.incidents) (opened : incident.status = .opened)
      (told : rt.Appends db.events incident.id .acknowledged event)
      (incidents : after.incidents = update Incident.id incident.id (Incident.acknowledge epoch actor) db.incidents)
      (events : after.events = db.events ++ [event]) : Moves db after
  | notes {db after : Db F} (incident : Incident F) (event : Event F)
      (member : incident ∈ db.incidents) (told : rt.Appends db.events incident.id .note event)
      (incidents : after.incidents = db.incidents)
      (events : after.events = db.events ++ [event]) : Moves db after

theorem eventHash_congr {first second : Value F} (same : rt.jsonable first = rt.jsonable second)
    (incidentId objectiveId : String) (eventType : EventType) (epoch : F)
    (actor note previous : Option String) :
    rt.eventHash incidentId objectiveId eventType epoch actor note first previous =
      rt.eventHash incidentId objectiveId eventType epoch actor note second previous := by
  have written : rt.jsonable (Event.payloadOf incidentId objectiveId eventType epoch actor note first
      previous) = rt.jsonable (Event.payloadOf incidentId objectiveId eventType epoch actor note
      second previous) := by
    simp [Event.payloadOf, Value.object, Runtime.jsonable, Runtime.jsonableEntries, same]
  rw [eventHash, canonical, Runtime.dumps, written, ← Runtime.dumps, ← canonical, ← eventHash]

variable {db after : Db F} {epoch : F}

theorem event_effect {incidentId objectiveId eventHash : String}
    {eventType : EventType} {actor note : Option String} {payload : Value F} (plain : payload.Plain)
    (done : rt.event incidentId objectiveId eventType epoch actor note payload db = .ok (eventHash, after)) :
    ∃ event, after = { db with events := db.events ++ [event] } ∧ rt.Appends db.events incidentId eventType event := by
  simp only [event, read_bind, bind_ok, lift_ok, check_ok, write_ok, pure_ok, Prod.mk.injEq] at done
  obtain ⟨digest, _, ⟨hashed, rfl⟩, text, _, ⟨written, rfl⟩, _, _, ⟨_, -, rfl⟩, _, _, ⟨-, rfl⟩, -, rfl⟩ := done
  refine ⟨_, rfl, rfl, rfl, ?_⟩
  obtain ⟨document, encoded, loaded, again⟩ := rt.dumps_loads plain written
  have same : rt.jsonable (rt.ofDocument document) = rt.jsonable payload := again.trans encoded.symm
  simp only [rowValid, loaded]
  rw [rt.eventHash_congr same, hashed]
  simp [head]

/-- What a sample that counts does, by whether an incident is open and whether it is good. -/
inductive Judged (objective : Objective) (epoch : F) : Bool → Db F → Db F → Prop where
  | resolves {db : Db F} (incident : Incident F) (event : Event F)
      (found : openIncident? objective.id db = some incident)
      (told : rt.Appends db.events incident.id .resolved event) :
      Judged objective epoch true db { db with
        incidents := update Incident.id incident.id (Incident.resolve epoch) db.incidents
        events := db.events ++ [event] }
  | healthy {db : Db F} (found : openIncident? objective.id db = none) :
      Judged objective epoch true db db
  | fails {db : Db F} (incident : Incident F)
      (found : openIncident? objective.id db = some incident) :
      Judged objective epoch false db { db with
        incidents := update Incident.id incident.id (Incident.fail epoch) db.incidents }
  | opens {db : Db F} (id : String) (event : Event F)
      (found : openIncident? objective.id db = none) (bad : streak objective db.samples = true)
      (fresh : id ∉ db.incidents.map Incident.id)
      (told : rt.Appends db.events id .opened event) :
      Judged objective epoch false db { db with
        incidents := db.incidents ++ [objective.incident id epoch]
        events := db.events ++ [event] }
  | waits {db : Db F} (found : openIncident? objective.id db = none)
      (short : streak objective db.samples = false) : Judged objective epoch false db db

variable {objective : Objective} {tokens : Tokens} {good : Bool}

theorem judge_cases {snapshotId reason : String} {made : List String × List String}
    (done : rt.judge objective snapshotId reason epoch tokens good db = .ok (made, after)) :
    rt.Judged objective epoch good db after := by
  rw [judge, read_bind] at done
  cases found : openIncident? objective.id db with
  | some incident =>
    cases good with
    | true =>
      simp only [found, updateIncident, write_bind, bind_ok, pure_ok, Prod.mk.injEq] at done
      obtain ⟨_, final, told, -, rfl⟩ := done
      obtain ⟨event, rfl, appends⟩ := rt.event_effect (plain_texts [("snapshotId", snapshotId)] (by simp)) told
      exact .resolves incident event found appends
    | false =>
      simp only [found, updateIncident, write_bind, pure_ok, Prod.mk.injEq] at done
      obtain ⟨-, rfl⟩ := done
      exact .fails incident found
  | none =>
    cases good with
    | true =>
      simp only [found, pure_ok, Prod.mk.injEq] at done
      obtain ⟨-, rfl⟩ := done
      exact .healthy found
    | false =>
      simp only [found, read_bind] at done
      split at done
      next bad =>
        simp only [insertIncident, bind_ok, read_ok, check_ok, write_ok, pure_ok, Prod.mk.injEq] at done
        obtain ⟨_, _, ⟨_, _, ⟨rfl, rfl⟩, _, _, ⟨fresh, -, rfl⟩, _, _, ⟨-, -, rfl⟩, -, rfl⟩, _, final,
          told, -, rfl⟩ := done
        obtain ⟨event, rfl, appends⟩ := rt.event_effect
          (plain_texts [("snapshotId", snapshotId), ("reason", reason)] (by simp)) told
        exact .opens _ event found bad (of_decide_eq_true fresh) appends
      next short =>
        simp only [pure_ok, Prod.mk.injEq] at done
        obtain ⟨-, rfl⟩ := done
        exact .waits found (by simpa using short)

theorem Judged.moves (judged : rt.Judged objective epoch good db after) : rt.Moves db after := by
  cases judged with
  | resolves incident event found told =>
    obtain ⟨member, _, opened⟩ := openIncident_mem found
    exact .resolves incident epoch event member opened told rfl rfl
  | healthy found => exact .other rfl rfl
  | fails incident found =>
    obtain ⟨member, _, opened⟩ := openIncident_mem found
    exact .fails incident epoch member opened rfl rfl
  | opens id event found bad fresh told =>
    exact .opens objective id epoch event fresh found told rfl rfl
  | waits found short => exact .other rfl rfl

theorem Judged.same (judged : rt.Judged objective epoch good db after) :
    after.snapshots = db.snapshots ∧ after.samples = db.samples := by
  cases judged <;> exact ⟨rfl, rfl⟩

structure Read (signals : Value F) (objective : Objective) (maintenance : Bool) (snapshotId : String)
    (epoch : F) (sample : Sample F) : Prop where
  snapshotId : sample.snapshotId = snapshotId
  objectiveId : sample.objectiveId = objective.id
  observedAt : sample.observedAt = epoch
  good : sample.good = ((signals.get? objective.signal).isSome && rt.truthy (signals.get objective.signal))
  excluded : sample.excluded = (maintenance && objective.excludeMaintenance)

/-- One round: a sample, and what it does if it is not excluded. -/
theorem recordObjective_cases {policy : Policy F} {signals : Value F}
    {snapshotId : String} {maintenance : Bool} {made : Moved F}
    (done : rt.recordObjective policy signals epoch tokens snapshotId maintenance objective db = .ok (made, after)) :
    ∃ sample, rt.Read signals objective maintenance snapshotId epoch sample ∧
      ((sample.excluded = true ∧ after = { db with samples := db.samples ++ [sample] }) ∨
        (sample.excluded = false ∧ rt.Judged objective epoch sample.good
          { db with samples := db.samples ++ [sample] } after)) := by
  simp only [recordObjective, read_bind, write_bind, bind_ok, lift_ok] at done
  obtain ⟨signalJson, _, ⟨-, rfl⟩, done⟩ := done
  split at done
  next excluded =>
    simp only [pure_ok, Prod.mk.injEq] at done
    refine ⟨_, ?_, .inl ⟨?_, done.2.symm⟩⟩
    · exact ⟨rfl, rfl, rfl, rfl, rfl⟩
    · exact excluded
  next counts =>
    simp only [bind_ok, pure_ok, Prod.mk.injEq] at done
    obtain ⟨_, middle, judged, -, rfl⟩ := done
    refine ⟨_, ?_, .inr ⟨?_, rt.judge_cases judged⟩⟩
    · exact ⟨rfl, rfl, rfl, rfl, rfl⟩
    · simpa using counts

theorem recordObjective_moves (policy : Policy F) (signals : Value F) (epoch : F) (tokens : Tokens)
    (snapshotId : String) (maintenance : Bool) (objective : Objective) :
    Transaction.Within rt.Moves (rt.recordObjective policy signals epoch tokens snapshotId maintenance objective) := by
  intro db made after done
  obtain ⟨sample, _, ⟨_, rfl⟩ | ⟨_, judged⟩⟩ := rt.recordObjective_cases done
  · exact .single (.other rfl rfl)
  · have begun : rt.Moves db { db with samples := db.samples ++ [sample] } := .other rfl rfl
    exact .head begun (.single judged.moves)

/-- What a successful `record` went through. -/
structure Recording (policy : Policy F) (signals : Value F) (epoch : F) (tokens : Tokens)
    (db after : Db F) (snapshot : Snapshot F) where
  rounds : List (Moved F)
  middle : Db F
  positive : 0 < epoch
  observedAt : snapshot.observedAt = epoch
  fresh : snapshot.id ∉ db.snapshots.map Snapshot.id
  loop : Transaction.each (rt.recordObjective policy signals epoch tokens snapshot.id
    (activeMaintenance epoch db).isSome) policy.objectives
      { db with snapshots := db.snapshots ++ [snapshot] } = .ok (rounds, middle)
  pruned : prune (policy.sampleCutoff epoch) middle = .ok ((), after)

theorem record_parts {policy : Policy F} {signals context : Value F} {result : Recorded F}
    (done : rt.record policy signals context epoch tokens db = .ok (result, after)) :
    ∃ snapshot, Nonempty (rt.Recording policy signals epoch tokens db after snapshot) := by
  rw [record, check_bind] at done
  obtain ⟨_, done⟩ := done
  rw [check_bind] at done
  obtain ⟨positive, done⟩ := done
  rw [lift_bind] at done
  obtain ⟨stamp, _, done⟩ := done
  rw [read_bind, lift_bind] at done
  obtain ⟨contextJson, _, done⟩ := done
  rw [read_bind, check_bind] at done
  obtain ⟨fresh, done⟩ := done
  rw [write_bind, bind_ok] at done
  obtain ⟨rounds, middle, loop, done⟩ := done
  rw [bind_ok] at done
  obtain ⟨_, final, pruned, done⟩ := done
  rw [pure_ok, Prod.mk.injEq] at done
  obtain ⟨-, rfl⟩ := done
  exact ⟨⟨_, epoch, contextJson⟩, ⟨rounds, middle, of_decide_eq_true positive, rfl,
    of_decide_eq_true fresh, loop, pruned⟩⟩

theorem acknowledge_moves {incidentId actor note : Value F}
    {hash : String} (done : rt.acknowledge incidentId actor note epoch db = .ok (hash, after)) :
    rt.Moves db after ∧ after.snapshots = db.snapshots ∧ after.samples = db.samples ∧
      after.incidents.map Incident.core = db.incidents.map Incident.core := by
  rw [acknowledge, check_bind] at done
  obtain ⟨_, done⟩ := done
  rw [read_bind] at done
  generalize found : db.incidents.find? _ = sought at done
  cases sought with
  | none => simp at done
  | some incident =>
    simp only [updateIncident, write_bind] at done
    obtain ⟨event, rfl, told⟩ := rt.event_effect (plain_texts [] (by simp)) done
    have holds := List.find?_some found
    simp only [Bool.and_eq_true, decide_eq_true_eq] at holds
    refine ⟨.acknowledges incident epoch _ event (List.mem_of_find?_eq_some found) holds.2 told rfl rfl, rfl, rfl, ?_⟩
    rw [update, List.map_map]
    exact List.map_congr_left fun row _ => by simp only [Function.comp_apply]; split <;> rfl

theorem addNote_moves {incidentId actor note : Value F}
    {hash : String} (done : rt.addNote incidentId actor note epoch db = .ok (hash, after)) :
    rt.Moves db after ∧ after.snapshots = db.snapshots ∧ after.samples = db.samples ∧
      after.incidents.map Incident.core = db.incidents.map Incident.core := by
  rw [addNote, check_bind] at done
  obtain ⟨_, done⟩ := done
  rw [read_bind] at done
  generalize found : db.incidents.find? _ = sought at done
  cases sought with
  | none => simp at done
  | some incident =>
    obtain ⟨event, rfl, told⟩ := rt.event_effect (plain_texts [] (by simp)) done
    exact ⟨.notes incident event (List.mem_of_find?_eq_some found) told rfl rfl, rfl, rfl, rfl⟩

theorem createMaintenance_same {startsAt endsAt reason actor : Value F} {now : F} {token id : String}
    (done : rt.createMaintenance startsAt endsAt reason actor now token db = .ok (id, after)) :
    ∃ windows, after = { db with windows } := by
  rw [createMaintenance, lift_bind] at done
  obtain ⟨start, _, done⟩ := done
  rw [lift_bind] at done
  obtain ⟨finish, _, done⟩ := done
  rw [check_bind] at done
  obtain ⟨_, done⟩ := done
  rw [check_bind] at done
  obtain ⟨_, done⟩ := done
  rw [read_bind, check_bind] at done
  obtain ⟨_, done⟩ := done
  rw [check_bind] at done
  obtain ⟨_, done⟩ := done
  rw [write_bind, pure_ok, Prod.mk.injEq] at done
  exact ⟨_, done.2.symm⟩

theorem cancelMaintenance_same {identifier actor : Value F}
    (done : rt.cancelMaintenance identifier actor epoch db = .ok ((), after)) :
    ∃ windows, after = { db with windows } := by
  rw [cancelMaintenance, check_bind] at done
  obtain ⟨_, done⟩ := done
  rw [read_bind] at done
  generalize db.windows.find? _ = sought at done
  cases sought with
  | none => simp at done
  | some window =>
    simp only [check_bind, write_ok, Prod.mk.injEq, true_and] at done
    obtain ⟨_, rfl⟩ := done
    exact ⟨_, rfl⟩

theorem quiet_moves {call : Call F} (quiet : ∀ policy signals context epoch tokens,
      call ≠ .record policy signals context epoch tokens)
    (done : rt.body call db = .ok ((), after)) :
    rt.Moves db after ∧ after.snapshots = db.snapshots ∧ after.samples = db.samples ∧
      after.incidents.map Incident.core = db.incidents.map Incident.core := by
  cases call with
  | record policy signals context epoch tokens => exact absurd rfl (quiet policy signals context epoch tokens)
  | acknowledge incidentId actor note epoch =>
    simp only [body, bind_ok, pure_ok, Prod.mk.injEq] at done
    obtain ⟨_, _, told, _, rfl⟩ := done
    exact rt.acknowledge_moves told
  | addNote incidentId actor note epoch =>
    simp only [body, bind_ok, pure_ok, Prod.mk.injEq] at done
    obtain ⟨_, _, told, _, rfl⟩ := done
    exact rt.addNote_moves told
  | createMaintenance startsAt endsAt reason actor now token =>
    rw [body, bind_ok] at done
    obtain ⟨id, middle, made, done⟩ := done
    rw [pure_ok, Prod.mk.injEq] at done
    obtain ⟨windows, same⟩ := rt.createMaintenance_same made
    rw [← done.2, same]
    exact ⟨.other rfl rfl, rfl, rfl, rfl⟩
  | cancelMaintenance identifier actor epoch =>
    rw [body] at done
    obtain ⟨windows, rfl⟩ := rt.cancelMaintenance_same done
    exact ⟨.other rfl rfl, rfl, rfl, rfl⟩

theorem body_moves (call : Call F) : Transaction.Within rt.Moves (rt.body call) := by
  intro db made after done
  by_cases quiet : ∀ policy signals context epoch tokens, call ≠ .record policy signals context epoch tokens
  · exact .single (rt.quiet_moves quiet done).1
  · simp only [not_forall, not_not] at quiet
    obtain ⟨policy, signals, context, epoch, tokens, rfl⟩ := quiet
    simp only [body, bind_ok, pure_ok, Prod.mk.injEq] at done
    obtain ⟨_, _, recorded, _, rfl⟩ := done
    obtain ⟨snapshot, ⟨parts⟩⟩ := rt.record_parts recorded
    obtain ⟨incidents, events, _⟩ := prune_effect parts.pruned
    have rounds := Transaction.Within.each (rt.recordObjective_moves policy signals epoch tokens snapshot.id
        (activeMaintenance epoch db).isSome) policy.objectives _ _ _ parts.loop
    have begun : rt.Moves db { db with snapshots := db.snapshots ++ [snapshot] } := .other rfl rfl
    exact .head begun (rounds.trans (.single (.other incidents events)))

theorem run_induction (Holds : Db F → Prop) (start : Holds .initial)
    (kept : ∀ db after, rt.Moves db after → Holds db → Holds after) (calls : List (Call F)) :
    Holds (rt.run calls) := by
  induction calls using List.reverseRecOn with
  | nil => exact start
  | append_singleton calls call ih =>
    rw [run, List.foldl_append]
    exact (rt.body_moves call).commit Holds kept ih

end Platform

end Dash.Slo
