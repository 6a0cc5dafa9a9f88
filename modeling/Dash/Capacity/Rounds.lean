import Dash.Capacity.Store

/-! One call of the capacity ledger, and one round of an observation.

In between the calls every row points to the pending start of its service. Inside a round
the row is written last, so its steps carry the pending start along instead.
-/

set_option autoImplicit false

namespace Dash.Capacity

open Dash.Python Dash.Foundation
open Foundation.Transaction (bind_error bind_ok check_bind check_ok lift_error lift_ok pure_error
  pure_ok read_bind write_bind write_error)

variable {F T : Type} [LinearOrder T] [Zero T]

structure Points (service : String) (pending : Option String) (db : Db T) : Prop where
  single : (pendingOf service db).length ≤ 1
  pending : pending = (pendingOf service db).head?.map Event.id

structure Starts (service : String) (db after : Db T) : Prop where
  step : Step service db after
  states : after.states = db.states
  revisits : revisitsOf service after = revisitsOf service db

variable {db : Db T} {service : String}

theorem Starts.refl (sound : Sound db) : Starts service db db :=
  ⟨.refl sound, rfl, rfl⟩

theorem Linked.known (linked : Linked service db) :
    Points service (match (db.state? service).bind ServiceState.pendingStartId with
      | some id => some id
      | none => (db.pending? service).map Event.id) db := by
  refine ⟨linked.single, ?_⟩
  cases found : db.state? service with
  | none => simp [pending_eq]
  | some row =>
    have points := linked.points row found
    cases pointer : row.pendingStartId with
    | none => simp [pointer, pending_eq]
    | some id => simpa [pointer] using points

theorem Points.none_iff {pending : Option String}
    (points : Points service pending db) : pending = none ↔ pendingOf service db = [] := by
  rw [points.pending]
  simp

theorem Points.some {service id : String} (points : Points service (some id) db) :
    ∃ event, pendingOf service db = [event] ∧ event.id = id := by
  have single := points.single
  have named := points.pending
  match shape : pendingOf service db with
  | [] => simp [shape] at named
  | [event] => exact ⟨event, rfl, by simpa [shape, eq_comm] using named⟩
  | _ :: _ :: _ => simp [shape] at single

variable {db after : Db T}

theorem insert_start {event : Event T} (sound : Sound db)
    (none_ : pendingOf event.service db = []) (start : event.kind = .start)
    (pending : event.completion = none)
    (done : Platform.insertEvent event db = .ok ((), after)) :
    Starts event.service db after ∧ Points event.service (some event.id) after := by
  have proper : event.Proper := by simp [Event.Proper, start, pending]
  obtain ⟨step, states, events⟩ := insert_effect sound proper done
  have pends : pendingOf event.service after = [event] := by
    rw [pendingOf] at none_ ⊢
    rw [events, List.filter_append, none_]
    simp [Event.isPending, start, pending]
  refine ⟨⟨step, states, ?_⟩, ⟨by simp [pends], by simp [pends]⟩⟩
  rw [revisitsOf, events, List.filter_append]
  simp [revisitsOf, start]

theorem insert_clash {event : Event T} (allowed : event.isPending = true → pendingOf event.service db = []) :
    Platform.insertEvent event db ≠ .error pendingClash := by
  intro clash
  simp only [Platform.insertEvent, read_bind, bind_error,
    Transaction.check_error, check_ok, write_error, id_eq] at clash
  rcases clash with ⟨holds, _⟩ | ⟨_, _, _, ⟨_, other⟩ | ⟨_, _, _, impossible⟩⟩
  · simp only [Bool.not_eq_false', Bool.and_eq_true] at holds
    rw [pending_eq, allowed holds.1] at holds
    simp at holds
  · simp [pendingClash] at other
  · exact impossible

/-- After the detection a start is pending if one was, or if the map was found running. -/
theorem detect_effect {now : T} {drawn : Drawn} {row : MapSample}
    {previous : Option (ServiceState T)} {known pending : Option String} (sound : Sound db)
    (points : Points row.service known db)
    (done : Platform.detect now drawn row previous known db = .ok (pending, after)) :
    Starts row.service db after ∧ Points row.service pending after ∧
      (pending = none ↔ pendingOf row.service db = [] ∧ ∀ before, previous = some before →
        ¬ (row.state = .running ∧ before.lastRuntimeState ≠ .running)) := by
  have skipped (same : (pure known : Platform.Action T (Option String)) db = .ok (pending, after))
      (quiet : known = none → ∀ before, previous = some before →
        ¬ (row.state = .running ∧ before.lastRuntimeState ≠ .running)) :
      Starts row.service db after ∧ Points row.service pending after ∧
        (pending = none ↔ pendingOf row.service db = [] ∧ ∀ before, previous = some before →
          ¬ (row.state = .running ∧ before.lastRuntimeState ≠ .running)) := by
    rw [pure_ok, Prod.mk.injEq] at same
    obtain ⟨rfl, rfl⟩ := same
    refine ⟨.refl sound, points, ?_⟩
    rw [← points.none_iff]
    exact ⟨fun absent => ⟨absent, quiet absent⟩, And.left⟩
  cases previous with
  | none => exact skipped (by simpa [Platform.detect] using done) fun _ _ impossible => by cases impossible
  | some before =>
    cases known with
    | some id => exact skipped (by simpa [Platform.detect] using done) fun impossible => by cases impossible
    | none =>
      rw [Platform.detect] at done
      split at done
      next found =>
        simp only [bind_ok, pure_ok, Prod.mk.injEq] at done
        obtain ⟨_, final, inserted, rfl, rfl⟩ := done
        have absent := points.none_iff.mp rfl
        obtain ⟨starts, points⟩ := insert_start sound absent rfl rfl inserted
        refine ⟨starts, points, ?_⟩
        constructor
        · exact fun impossible => by cases impossible
        · exact fun quiet => absurd found (quiet.2 before rfl)
      next quiet =>
        refine skipped done fun _ other same => ?_
        cases same
        exact quiet

theorem detect_clash {now : T} {drawn : Drawn} {row : MapSample}
    {previous : Option (ServiceState T)} {known : Option String}
    (points : Points row.service known db) :
    Platform.detect now drawn row previous known db ≠ .error pendingClash := by
  intro clash
  cases previous with
  | none => simp [Platform.detect] at clash
  | some before =>
    cases known with
    | some id => simp [Platform.detect] at clash
    | none =>
      rw [Platform.detect] at clash
      split at clash
      next =>
        simp only [bind_error, pure_error, and_false, exists_false, or_false] at clash
        exact insert_clash (fun _ => points.none_iff.mp rfl) clash
      next => simp at clash

namespace Platform

variable (rt : Platform F T)

def isEdge (row : MapSample) (previous : Option (ServiceState T)) : Bool :=
  match previous with
  | some before => row.active && !before.lastActive
  | none => false

def IsRevisit (now : T) (row : MapSample) (before : ServiceState T) (pending : Option String)
    (event : Event T) : Prop :=
  event.startedAt = idleStart before ∧ ∃ completion, event.completion = some completion ∧
    completion.completedAt = now ∧
    completion.durationSeconds = max 0 (rt.sub now (idleStart before)) ∧
    completion.outcome = if row.state = .running ∧ row.ready = true ∧ pending = none then .warm
      else .cold

def nextInactive (now : T) (row : MapSample) (previous : Option (ServiceState T)) : Option T :=
  match previous with
  | none => if row.active then none else some now
  | some before =>
    if row.active = true ∧ before.lastActive = false then none
    else if row.active = false ∧ before.lastActive = true then some now
    else match before.lastInactiveAt with
      | some time => some time
      | none => if row.active then none else some now

variable {pending : Option String} {row : MapSample} {now : T}

theorem revisit_effect {db after : Db T} {drawn : Drawn} {previous : Option (ServiceState T)}
    {result : Option T × List (Revisit T)} (sound : Sound db)
    (done : rt.revisit now drawn row previous pending
      (match previous.bind ServiceState.lastInactiveAt with
        | some time => some time
        | none => if row.active then none else some now) db = .ok (result, after)) :
    Step row.service db after ∧ after.states = db.states ∧ pendingOf row.service after = pendingOf row.service db ∧
      result.1 = nextInactive now row previous ∧
      (isEdge row previous = false → revisitsOf row.service after = revisitsOf row.service db) ∧
      (∀ before, previous = some before → isEdge row previous = true →
        ∃ event, revisitsOf row.service after = revisitsOf row.service db ++ [event] ∧
          rt.IsRevisit now row before pending event) := by
  cases previous with
  | none =>
    simp only [revisit, pure_ok, Prod.mk.injEq] at done
    obtain ⟨rfl, rfl⟩ := done
    refine ⟨.refl sound, rfl, rfl, ?_, fun _ => rfl, fun _ impossible => by cases impossible⟩
    cases active : row.active <;> simp [nextInactive, active]
  | some before =>
    rw [revisit] at done
    split at done
    next back =>
      simp only [bind_ok, pure_ok, Prod.mk.injEq] at done
      obtain ⟨_, final, inserted, rfl, rfl⟩ := done
      have proper : ∀ (outcome : Outcome) (started gap : T) (bound : 0 ≤ gap) (name : String),
          outcome = .warm ∨ outcome = .cold →
          Event.Proper (⟨name, row.service, .revisit, started, some ⟨now, gap, outcome, bound⟩,
            "observed", "{}", now⟩ : Event T) := fun _ _ _ _ _ either => either
      obtain ⟨step, states, events⟩ := insert_effect sound (proper _ _ _ _ _ (by split <;> simp)) inserted
      dsimp only at step events
      refine ⟨step, states, ?_, ?_, ?_, ?_⟩
      · simp [pendingOf, events, Event.isPending]
      · simp [nextInactive, back]
      · simp [isEdge, back]
      · intro other same _
        cases same
        rw [revisitsOf, events, List.filter_append]
        exact ⟨_, rfl, rfl, _, rfl, rfl, rfl, rfl⟩
    next stays =>
      have still : isEdge row (some before) = false := by
        simpa [isEdge] using stays
      split at done
      next idle =>
        rw [pure_ok, Prod.mk.injEq] at done
        obtain ⟨rfl, rfl⟩ := done
        refine ⟨.refl sound, rfl, rfl, ?_, fun _ => rfl, fun _ _ edge => ?_⟩
        · simp [nextInactive, idle]
        · simp [still] at edge
      next same =>
        rw [pure_ok, Prod.mk.injEq] at done
        obtain ⟨rfl, rfl⟩ := done
        refine ⟨.refl sound, rfl, rfl, ?_, fun _ => rfl, fun _ _ edge => ?_⟩
        · simp [nextInactive, stays, same]
        · simp [still] at edge

theorem revisit_clash {db : Db T} {drawn : Drawn} {previous : Option (ServiceState T)} {lastInactive : Option T} :
    rt.revisit now drawn row previous pending lastInactive db ≠ .error pendingClash := by
  intro clash
  cases previous with
  | none => simp [revisit] at clash
  | some before =>
    rw [revisit] at clash
    split at clash
    next =>
      simp only [bind_error, pure_error, and_false, exists_false, or_false] at clash
      exact insert_clash (by simp [Event.isPending]) clash
    next => split at clash <;> simp at clash

theorem settle_effect {db after : Db T} {policy : Policy T}
    {result : Option String × List (Completed T)} (sound : Sound db)
    (points : Points row.service pending db)
    (done : rt.settle policy now row pending db = .ok (result, after)) :
    Starts row.service db after ∧ Points row.service result.1 after := by
  cases pending with
  | none =>
    simp only [settle, pure_ok, Prod.mk.injEq] at done
    obtain ⟨rfl, rfl⟩ := done
    exact ⟨.refl sound, points⟩
  | some id =>
    obtain ⟨event, only, rfl⟩ := points.some
    obtain ⟨inside, _, _, uncompleted⟩ := mem_pending (by rw [only]; exact List.mem_cons_self)
    have found : db.event? event.id = some event := Table.find_mem sound.ids inside
    simp only [settle, read_bind, found, uncompleted, Option.isSome_none, Bool.false_eq_true, ↓reduceIte] at done
    have completed (outcome : Outcome) (duration : T) (proper : outcome ∈ startOutcomes)
        (written : (updateEvent event.id fun event => event.complete now duration outcome) db = .ok ((), after)) :
        Starts row.service db after ∧ Points row.service none after := by
      obtain ⟨step, states, none_, revisits⟩ := complete_effect sound only (fun row => ⟨_, _, proper, rfl⟩) written
      exact ⟨⟨step, states, revisits⟩, ⟨by simp [none_], by simp [none_]⟩⟩
    split at done
    next =>
      simp only [bind_ok, pure_ok, Prod.mk.injEq] at done
      obtain ⟨_, final, written, rfl, rfl⟩ := done
      exact completed .ready _ (by simp [startOutcomes]) written
    next =>
      split at done
      next =>
        simp only [bind_ok, pure_ok, Prod.mk.injEq] at done
        obtain ⟨_, final, written, rfl, rfl⟩ := done
        exact completed .timeout _ (by simp [startOutcomes]) written
      next =>
        rw [pure_ok, Prod.mk.injEq] at done
        obtain ⟨rfl, rfl⟩ := done
        exact ⟨.refl sound, points⟩

theorem settle_clash {db : Db T} {policy : Policy T} : rt.settle policy now row pending db ≠ .error pendingClash := by
  intro clash
  cases pending with
  | none => simp [settle] at clash
  | some id =>
    simp only [settle, read_bind] at clash
    cases found : db.event? id with
    | none => simp [found] at clash
    | some event =>
      simp only [found] at clash
      split at clash
      next => simp at clash
      next =>
        split at clash
        next => simp [updateEvent] at clash
        next => split at clash <;> simp [updateEvent] at clash

end Platform

def ServiceState.seen (row : ServiceState T) : T × RuntimeState × Bool × Bool × Option T :=
  (row.lastObservedAt, row.lastRuntimeState, row.lastReady, row.lastActive, row.lastInactiveAt)

structure Good (db : Db T) : Prop where
  sound : Sound db
  linked : ∀ service, Linked service db

theorem Step.good (step : Step service db after) (good : Good db) (own : Linked service after) : Good after := by
  refine ⟨step.sound, fun other => ?_⟩
  by_cases same : other = service
  · exact same ▸ own
  · have linked := good.linked other
    have pends : pendingOf other after = pendingOf other db := by
      rw [pendingOf, step.events other same, pendingOf]
    refine ⟨pends ▸ linked.single, fun row found => ?_⟩
    rw [pends]
    exact linked.points row ((step.states other same).symm.trans found)

theorem Good.samples (good : Good db) (samples : List (Sample T)) : Good { db with samples } :=
  ⟨⟨good.sound.ids, good.sound.services, good.sound.proper⟩,
    fun service => ⟨(good.linked service).single, (good.linked service).points⟩⟩

namespace Platform

variable (rt : Platform F T)

variable {now : T} {db after : Db T}

/-- One round of an observation, for the service of its map. -/
theorem observeMap_effect {policy : Policy T} {drawn : Drawn}
    {row : MapSample} {made : List (Completed T) × List (Revisit T)} (good : Good db)
    (done : rt.observeMap policy now drawn row db = .ok (made, after)) :
    Step row.service db after ∧ Good after ∧
      (∃ pending, after.state? row.service = some ⟨row.service, now, row.state, row.ready,
        row.active, nextInactive now row (db.state? row.service), pending, now⟩) ∧
      (isEdge row (db.state? row.service) = false → revisitsOf row.service after = revisitsOf row.service db) ∧
      (∀ before, db.state? row.service = some before → isEdge row (some before) = true →
        ∃ event pending, revisitsOf row.service after = revisitsOf row.service db ++ [event] ∧
          rt.IsRevisit now row before pending event ∧
          (pending = none ↔ pendingOf row.service db = [] ∧
            ¬ (row.state = .running ∧ before.lastRuntimeState ≠ .running))) := by
  simp only [observeMap, read_bind] at done
  rw [write_bind, read_bind] at done
  have kept := good.samples (db.samples ++ [⟨now, row, match db.state? row.service with
    | some previous => max 0 (min (rt.sub now previous.lastObservedAt) policy.maxObservationGapSeconds)
    | none => policy.sampleIntervalSeconds⟩])
  have points := (kept.linked row.service).known
  rw [bind_ok] at done
  obtain ⟨pending, detected, first, done⟩ := done
  rw [bind_ok] at done
  obtain ⟨revisited, recorded, second, done⟩ := done
  rw [bind_ok] at done
  obtain ⟨settled, completed, third, done⟩ := done
  rw [bind_ok] at done
  obtain ⟨_, final, last, done⟩ := done
  rw [pure_ok, Prod.mk.injEq] at done
  obtain ⟨rfl, rfl⟩ := done
  obtain ⟨one, pointsOne, quiet⟩ := detect_effect kept.sound points first
  obtain ⟨two, statesTwo, pendsTwo, inactive, noEdge, anEdge⟩ := rt.revisit_effect one.step.sound second
  have pointsTwo : Points row.service pending recorded :=
    ⟨pendsTwo ▸ pointsOne.single, pendsTwo ▸ pointsOne.pending⟩
  obtain ⟨three, pointsThree⟩ := rt.settle_effect two.sound pointsTwo third
  obtain ⟨four, events, shown⟩ := state_upsert three.step.sound last
  dsimp only at four shown
  have begun : Step row.service db _ := ⟨kept.sound, fun _ _ => rfl, fun _ _ => rfl,
    fun event member => ⟨event, member, .inl rfl⟩⟩
  have whole := (((begun.trans one.step).trans two).trans three.step).trans four
  have pendsFour : pendingOf row.service final = pendingOf row.service completed := by
    rw [pendingOf, eventsOf, events]
    rfl
  have revisitsFour : revisitsOf row.service final = revisitsOf row.service recorded := by
    rw [← three.revisits, revisitsOf, eventsOf, events]
    rfl
  have start := one.revisits
  refine ⟨whole, whole.good good ⟨?_, ?_⟩, ⟨settled.1, ?_⟩, fun still => ?_, fun before found edge => ?_⟩
  · exact pendsFour ▸ pointsThree.single
  · intro other found
    rw [shown] at found
    cases found
    exact pendsFour ▸ pointsThree.pending
  · rw [shown, inactive]
  · rw [revisitsFour, noEdge still, start]
    rfl
  · obtain ⟨event, added, is⟩ := anEdge before found (found ▸ edge)
    refine ⟨event, pending, ?_, is, ?_⟩
    · rw [revisitsFour, added, start]
      rfl
    · rw [quiet]
      constructor
      · exact fun both => ⟨both.1, both.2 before found⟩
      · rintro ⟨none_, still⟩
        refine ⟨none_, fun other same => ?_⟩
        rw [found] at same
        cases same
        exact still

variable {db : Db T}

theorem observeMap_clash {policy : Policy T} {drawn : Drawn} {row : MapSample} (good : Good db) :
    rt.observeMap policy now drawn row db ≠ .error pendingClash := by
  intro clash
  simp only [observeMap, read_bind] at clash
  rw [write_bind, read_bind] at clash
  have kept := good.samples (db.samples ++ [⟨now, row, match db.state? row.service with
    | some previous => max 0 (min (rt.sub now previous.lastObservedAt) policy.maxObservationGapSeconds)
    | none => policy.sampleIntervalSeconds⟩])
  have points := (kept.linked row.service).known
  rw [bind_error] at clash
  rcases clash with clash | ⟨pending, detected, first, clash⟩
  · exact detect_clash points clash
  · rw [bind_error] at clash
    rcases clash with clash | ⟨revisited, recorded, second, clash⟩
    · exact rt.revisit_clash clash
    · rw [bind_error] at clash
      rcases clash with clash | ⟨settled, completed, third, clash⟩
      · exact rt.settle_clash clash
      · simp [upsertState] at clash

/-- `record_start` inserts a start only where none is pending. -/
theorem recordStart_effect {service source : Value F} {details : Value F} {uuid id : String} (good : Good db)
    (done : rt.recordStart service source now details uuid db = .ok (id, after)) :
    ∃ name, Step name db after ∧ Good after ∧ revisitsOf name after = revisitsOf name db ∧
      (after.state? name).map ServiceState.seen = (db.state? name).map ServiceState.seen := by
  rw [recordStart, check_bind] at done
  obtain ⟨_, done⟩ := done
  generalize strip (rt.str (rt.orElse service (.str ""))) = name at done
  refine ⟨name, ?_⟩
  rw [read_bind] at done
  cases found : db.pending? name with
  | some existing =>
    simp only [found, pure_ok, Prod.mk.injEq] at done
    obtain ⟨rfl, rfl⟩ := done
    exact ⟨.refl good.sound, good, rfl, rfl⟩
  | none =>
    have absent : pendingOf name db = [] := by simpa [pending_eq] using found
    simp only [found, bind_ok, lift_ok, pure_ok, Prod.mk.injEq] at done
    obtain ⟨text, _, ⟨_, rfl⟩, _, middle, inserted, _, final, pointed, rfl, rfl⟩ := done
    obtain ⟨starts, points⟩ := insert_start good.sound absent rfl rfl inserted
    dsimp only at starts points
    obtain ⟨step, events, shown⟩ := state_update starts.step.sound pointed fun _ => rfl
    have whole := starts.step.trans step
    have pends : pendingOf name final = pendingOf name middle := by
      rw [pendingOf, eventsOf, events]
      rfl
    refine ⟨whole, whole.good good ⟨pends ▸ points.single, fun row here => ?_⟩, ?_, ?_⟩
    · obtain ⟨old, _, rfl⟩ := Option.map_eq_some_iff.mp (shown.symm.trans here)
      exact pends ▸ points.pending
    · rw [← starts.revisits, revisitsOf, eventsOf, events]
      rfl
    · rw [shown, Option.map_map, Db.state?, starts.states]
      rfl

theorem recordStart_clash {service source : Value F} {details : Value F}
    {uuid : String} : rt.recordStart service source now details uuid db ≠ .error pendingClash := by
  intro clash
  rw [recordStart, bind_error] at clash
  rcases clash with clash | ⟨_, _, checked, clash⟩
  · simp [pendingClash] at clash
  · obtain ⟨_, same⟩ := check_ok.mp checked
    cases same
    generalize strip (rt.str (rt.orElse service (.str ""))) = name at clash
    rw [read_bind] at clash
    cases found : db.pending? name with
    | some existing => simp [found] at clash
    | none =>
      have absent : pendingOf name db = [] := by simpa [pending_eq] using found
      simp only [found, bind_error, lift_error, lift_ok, pure_error, updateState, write_error, and_false, exists_false,
        or_false] at clash
      rcases clash with clash | ⟨_, _, ⟨_, rfl⟩, clash⟩
      · have raised := rt.dumps_error clash
        simp [pendingClash] at raised
      · exact insert_clash (fun _ => absent) clash

/-- `fail_start` completes the pending start. -/
theorem failStart_effect {service : String} {error : Value F}
    (good : Good db) (done : rt.failStart service error now db = .ok ((), after)) :
    Step service db after ∧ Good after ∧ revisitsOf service after = revisitsOf service db ∧
      (after.state? service).map ServiceState.seen = (db.state? service).map ServiceState.seen := by
  rw [failStart, read_bind] at done
  cases found : db.pending? service with
  | none =>
    simp only [found, pure_ok, Prod.mk.injEq, true_and] at done
    subst done
    exact ⟨.refl good.sound, good, rfl, rfl⟩
  | some event =>
    have only : pendingOf service db = [event] := by
      have single := (good.linked service).single
      rw [pending_eq] at found
      cases shape : pendingOf service db with
      | nil => simp [shape] at found
      | cons other rest =>
        obtain rfl : rest = [] := by simpa [shape] using single
        simpa [shape] using found
    simp only [found, bind_ok, lift_ok] at done
    obtain ⟨_, _, ⟨_, rfl⟩, _, _, ⟨_, rfl⟩, text, _, ⟨_, rfl⟩, _, middle, completed, pointed⟩ := done
    obtain ⟨one, states, none_, revisits⟩ := complete_effect good.sound only
      (fun row => ⟨_, _, by simp [startOutcomes], rfl⟩) completed
    obtain ⟨two, events, shown⟩ := state_update one.sound pointed fun _ => rfl
    have whole := one.trans two
    have pends : pendingOf service after = [] := by
      rw [← none_, pendingOf, eventsOf, events]
      rfl
    refine ⟨whole, whole.good good ⟨by simp [pends], fun row here => ?_⟩, ?_, ?_⟩
    · obtain ⟨old, _, rfl⟩ := Option.map_eq_some_iff.mp (shown.symm.trans here)
      simp [pends]
    · rw [← revisits, revisitsOf, eventsOf, events]
      rfl
    · rw [shown, Option.map_map, Db.state?, states]
      rfl

theorem failStart_clash {service : String} {error : Value F} :
    rt.failStart service error now db ≠ .error pendingClash := by
  intro clash
  rw [failStart, read_bind] at clash
  cases found : db.pending? service with
  | none => simp [found] at clash
  | some event =>
    simp only [found, bind_error, lift_error, updateEvent, updateState,
      write_error, and_false, exists_false, or_false] at clash
    rcases clash with clash | ⟨_, _, _, clash | ⟨_, _, _, clash⟩⟩
    · have raised := rt.loads_error clash
      simp [pendingClash] at raised
    · revert clash
      unfold setError
      split <;> simp [pendingClash, typeError]
    · have raised := rt.dumps_error clash
      simp [pendingClash] at raised

end Platform

end Dash.Capacity
