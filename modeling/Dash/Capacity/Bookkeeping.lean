import Dash.Capacity.Rounds
import Dash.Python.Plain

/-! The books of the capacity ledger over whole runs. -/

set_option autoImplicit false

namespace Dash.Capacity

open Dash.Python Dash.Foundation List
open Foundation.Transaction (bind_error bind_ok lift_error lift_ok pure_error pure_ok write_error write_ok)

inductive Call (F T : Type) [LinearOrder T] where
  | recordStart (service source : Value F) (now : T) (details : Value F) (uuid : String)
  | failStart (service : String) (error : Value F) (now : T)
  | observe (policy : Policy T) (maps : Value F) (now : T) (drawn : Drawn)

variable {F T : Type} [LinearOrder T]

def Call.now : Call F T → T
  | .recordStart _ _ now _ _ => now
  | .failStart _ _ now => now
  | .observe _ _ now _ => now

variable [Zero T]

/-- A database, the observations of every service, and the times up to which events were pruned. -/
structure Run (T : Type) [LE T] [Zero T] where
  db : Db T
  history : String → List (Observation T)
  cutoffs : List T

/-- How a map is observed, with the start that is pending for its service. -/
def observation (db : Db T) (now : T) (row : MapSample) : Observation T :=
  ⟨now, row.state, row.ready, row.active, (db.pending? row.service).isSome⟩

namespace Platform

variable (rt : Platform F T)

/-- The transaction of a call. -/
def body : Call F T → Action T Unit
  | .recordStart service source now details uuid => do
    let _ ← rt.recordStart service source now details uuid
    pure ()
  | .failStart service error now => rt.failStart service error now
  | .observe policy maps now drawn => do
    let _ ← rt.observe policy maps now drawn
    pure ()

def sampled : Call F T → List MapSample
  | .observe _ maps _ _ => match rt.incoming maps with
    | .ok rows => rows
    | .error _ => []
  | _ => []

def Call.cutoff : Call F T → List T
  | .observe policy _ now _ => [policy.eventCutoff now]
  | _ => []

def perform (run : Run T) (call : Call F T) : Run T :=
  match rt.body call run.db with
  | .ok (_, after) =>
    { db := after
      history := fun service => run.history service ++
        ((rt.sampled call).filter fun row => row.service = service).map (observation run.db call.now)
      cutoffs := run.cutoffs ++ Call.cutoff call }
  | .error _ => run

def run (calls : List (Call F T)) : Run T :=
  calls.foldl rt.perform ⟨⟨[], [], []⟩, fun _ => [], []⟩

structure Records (event : Event T) (edge : Edge T) : Prop where
  completion : ∃ completion, event.completion = some completion ∧ completion.completedAt = edge.now ∧
    completion.outcome = (if edge.warm then .warm else .cold) ∧
    (edge.since ≠ 0 → event.startedAt = edge.since ∧ completion.durationSeconds = rt.sub edge.now edge.since)

def kept (cutoffs : List T) (edges : List (Edge T)) : List (Edge T) :=
  edges.filter fun edge => cutoffs.all fun cutoff => decide (cutoff ≤ edge.now)

structure Tracks (service : String) (history : List (Observation T)) (cutoffs : List T)
    (db : Db T) : Prop where
  state : (db.state? service).map ServiceState.seen = history.getLast?.map fun last =>
    (last.now, last.state, last.ready, last.active, idleSince history)
  revisits : List.Forall₂ rt.Records (revisitsOf service db) (kept cutoffs (edges [] history))

variable {cutoffs : List T} {db after : Db T}

theorem tracks_same {service : String} {history : List (Observation T)} (tracks : rt.Tracks service history cutoffs db)
    (state : (after.state? service).map ServiceState.seen = (db.state? service).map ServiceState.seen)
    (revisits : revisitsOf service after = revisitsOf service db) :
    rt.Tracks service history cutoffs after :=
  ⟨state.trans tracks.state, revisits ▸ tracks.revisits⟩

variable {policy : Policy T} {drawn : Drawn} {now : T}

theorem tracks_round {row : MapSample} {made : List (Completed T) × List (Revisit T)}
    {history : List (Observation T)} (good : Good db)
    (tracks : rt.Tracks row.service history cutoffs db)
    (later : ∀ seen ∈ history, seen.now ≤ now) (recent : ∀ cutoff ∈ cutoffs, cutoff ≤ now)
    (done : rt.observeMap policy now drawn row db = .ok (made, after)) :
    rt.Tracks row.service (history ++ [observation db now row]) cutoffs after := by
  obtain ⟨_, _, ⟨pending, shown⟩, noEdge, anEdge⟩ := rt.observeMap_effect good done
  have stated := tracks.state
  have keptEdges : kept cutoffs (edges [] (history ++ [observation db now row])) =
      kept cutoffs (edges [] history) ++ (edge history (observation db now row)).toList := by
    rw [edges_append, kept, filter_append, nil_append, ← kept]
    congr 1
    refine filter_eq_self.mpr fun found member => ?_
    have same : found.now = now := by
      revert member
      unfold edge
      split
      next =>
        split
        next => simp +contextual [observation]
        next => simp
      next => simp
    simpa [same] using recent
  cases previous : db.state? row.service with
  | none =>
    rw [previous, Option.map_none] at stated
    have empty : history = [] := by
      cases final : history.getLast? with
      | none => exact List.getLast?_eq_none_iff.mp final
      | some last => simp [final] at stated
    subst empty
    have still : isEdge row (db.state? row.service) = false := by rw [previous]; rfl
    constructor
    · rw [shown, previous]
      cases active : row.active <;>
        simp [ServiceState.seen, observation, nextInactive, idleSince, active]
    · rw [noEdge still, keptEdges]
      simpa [edge, idleSince] using tracks.revisits
  | some before =>
    rw [previous, Option.map_some] at stated
    cases final : history.getLast? with
    | none => simp [final] at stated
    | some last =>
      rw [final, Option.map_some, Option.some.injEq] at stated
      simp only [ServiceState.seen, Prod.mk.injEq] at stated
      obtain ⟨observed, state, _, active, inactive⟩ := stated
      have idle := idleSince_none final
      -- the column that is stored is when the history went idle
      have inactivity : nextInactive now row (some before) = idleSince (history ++ [observation db now row]) := by
        cases running : row.active with
        | true =>
          rw [idleSince_active _ _ running]
          cases was : before.lastActive with
          | false => simp [nextInactive, running, was]
          | true =>
            have none_ := idle.mpr (active.symm.trans was)
            simp [nextInactive, running, was, inactive, none_]
        | false =>
          rw [idleSince_inactive _ _ running]
          cases was : before.lastActive with
          | true =>
            have none_ := idle.mpr (active.symm.trans was)
            simp [nextInactive, running, was, none_, observation]
          | false =>
            cases since : idleSince history with
            | none => simp [active.trans (idle.mp since)] at was
            | some time => simp [nextInactive, running, was, inactive, since]
      constructor
      · rw [shown, previous, inactivity]
        simp [ServiceState.seen, observation]
      · rw [keptEdges]
        cases edged : isEdge row (some before) with
        | false =>
          have none_ : edge history (observation db now row) = none := by
            unfold edge
            split
            next other time found since =>
              rw [final, Option.some.injEq] at found
              subst found
              refine if_neg fun both => ?_
              obtain ⟨runs, idles⟩ := both
              have ran : row.active = true := runs
              simp [isEdge, ran, active.trans idles] at edged
            next => rfl
          rw [noEdge (previous ▸ edged), none_]
          simpa using tracks.revisits
        | true =>
          -- the map comes back: the revisit begins where the history went idle
          obtain ⟨event, waiting, added, is, quiet⟩ := anEdge before previous edged
          obtain ⟨runs, idles⟩ : row.active = true ∧ before.lastActive = false := by
            simpa [isEdge] using edged
          cases since : idleSince history with
          | none => simp [active.trans (idle.mp since)] at idles
          | some time =>
            have edge_ : edge history (observation db now row) = some ⟨time, now,
                decide (row.state = .running) && row.ready &&
                  !((db.pending? row.service).isSome || decide (last.state ≠ .running))⟩ := by
              simp only [edge, final, since]
              exact if_pos ⟨runs, active.symm.trans idles⟩
            obtain ⟨seen, member, at_⟩ := idleSince_mem since
            have before_ : time ≤ now := at_ ▸ later seen member
            rw [added, edge_, Option.toList_some]
            refine rel_append tracks.revisits (.cons ⟨?_⟩ .nil)
            obtain ⟨began, completion, complete, completed, duration, outcome⟩ := is
            refine ⟨completion, complete, completed, ?_, fun nonzero => ?_⟩
            · rw [outcome]
              have pends : (db.pending? row.service).isSome = false ↔ pendingOf row.service db = [] := by
                rw [pending_eq]
                cases pendingOf row.service db <;> simp
              congr 1
              rw [eq_iff_iff, quiet, ← pends, ← state]
              by_cases starts : row.state = .running <;>
                cases row.ready <;> cases (db.pending? row.service).isSome <;>
                simp [starts]
            · have start : idleStart before = time := by
                simp [idleStart, inactive, since, nonzero]
              rw [began, duration, start]
              exact ⟨rfl, max_eq_right (rt.sub_nonneg now time before_)⟩

/-- The rounds of one observation; another service is not seen by a round. -/
theorem tracks_rounds : ∀ {rows : List MapSample} {db after : Db T}
      {made : List (List (Completed T) × List (Revisit T))}
      {history : String → List (Observation T)},
      (rows.map MapSample.service).Nodup → Good db →
      (∀ service, ∀ seen ∈ history service, seen.now ≤ now) →
      (∀ cutoff ∈ cutoffs, cutoff ≤ now) →
      (∀ service, rt.Tracks service (history service) cutoffs db) →
      Transaction.each (rt.observeMap policy now drawn) rows db = .ok (made, after) →
      Good after ∧ (∀ event ∈ db.events, ∃ later ∈ after.events, event.Moves later) ∧
        ∀ service, rt.Tracks service (history service ++
          (rows.filter fun row => row.service = service).map (observation db now)) cutoffs after := by
  intro rows
  induction rows with
  | nil =>
    intro db after made history _ good _ _ tracks done
    simp only [Transaction.each, pure_ok, Prod.mk.injEq] at done
    obtain ⟨rfl, rfl⟩ := done
    refine ⟨good, fun event member => ⟨event, member, .inl rfl⟩, fun service => ?_⟩
    simpa using tracks service
  | cons row rest ih =>
    intro db after made history distinct good later recent tracks done
    obtain ⟨fresh, distinct⟩ := nodup_cons.mp distinct
    simp only [Transaction.each, bind_ok, pure_ok, Prod.mk.injEq] at done
    obtain ⟨first, middle, one, others, last, loop, rfl, rfl⟩ := done
    obtain ⟨step, better, _⟩ := rt.observeMap_effect good one
    have own := rt.tracks_round good (tracks row.service) (later row.service) recent one
    -- the histories after the first round
    have tracked : ∀ service, rt.Tracks service (history service ++
        if row.service = service then [observation db now row] else []) cutoffs middle := by
      intro service
      by_cases same : row.service = service
      · subst same
        simpa using own
      · rw [if_neg same, append_nil]
        refine rt.tracks_same (tracks service) ?_ ?_
        · rw [step.states service (Ne.symm same)]
        · rw [revisitsOf, step.events service (Ne.symm same), revisitsOf]
    obtain ⟨final, moves, whole⟩ := ih distinct better (fun service seen member => by
      rcases mem_append.mp member with old | new
      · exact later service seen old
      · split at new
        next => exact (mem_singleton.mp new) ▸ le_refl now
        next => cases new) recent tracked loop
    refine ⟨final, fun event member => ?_, fun service => ?_⟩
    · obtain ⟨second, inside, early⟩ := step.moves event member
      obtain ⟨third, late, rest⟩ := moves second inside
      exact ⟨third, late, early.trans rest⟩
    · have tail := whole service
      have unseen : ∀ other ∈ rest.filter fun row => row.service = service,
          service = row.service ∨ observation middle now other = observation db now other := by
        intro other member
        by_cases same : service = row.service
        · exact .inl same
        · have named : other.service = service := by
            simpa using (mem_filter.mp member).2
          rw [observation, observation, pending_eq, pending_eq, pendingOf, pendingOf, named, step.events service same]
          exact .inr rfl
      by_cases same : row.service = service
      · have none_ : rest.filter (fun row => row.service = service) = [] := by
          rw [filter_eq_nil_iff]
          intro other member
          simpa using fun named : other.service = service =>
            fresh (same ▸ named ▸ mem_map_of_mem member)
        simpa [same, none_] using tail
      · rw [if_neg same, append_nil] at tail
        have mapped : (rest.filter fun row => row.service = service).map (observation middle now) =
            (rest.filter fun row => row.service = service).map (observation db now) :=
          map_congr_left fun other member =>
            (unseen other member).resolve_left (Ne.symm same)
        rw [mapped] at tail
        simpa [same] using tail

theorem prune_effect (good : Good db) (done : prune policy now db = .ok ((), after)) :
    Good after ∧ after.states = db.states ∧ (∀ event ∈ after.events, event ∈ db.events) ∧
      ∀ service, revisitsOf service after = (revisitsOf service db).filter fun event =>
        match event.completion with
        | some completion => !decide (completion.completedAt < policy.eventCutoff now)
        | none => true := by
  simp only [prune, write_ok, Prod.mk.injEq, true_and] at done
  subst done
  have pends : ∀ service, pendingOf service { db with
        samples := db.samples.filter fun sample => !decide (sample.observedAt < policy.sampleCutoff now)
        events := db.events.filter fun event => match event.completion with
          | some completion => !decide (completion.completedAt < policy.eventCutoff now)
          | none => true } = pendingOf service db := by
    intro service
    simp only [pendingOf, eventsOf, filter_filter]
    refine filter_congr fun event _ => ?_
    cases complete : event.completion <;> simp [Event.isPending, complete]
  refine ⟨⟨⟨?_, good.sound.services, ?_⟩, fun service => ?_⟩, rfl, ?_, fun service => ?_⟩
  · exact good.sound.ids.sublist (filter_sublist.map _)
  · exact fun event member => good.sound.proper event (mem_of_mem_filter member)
  · exact ⟨pends service ▸ (good.linked service).single, fun row found =>
      pends service ▸ (good.linked service).points row found⟩
  · exact fun event member => mem_of_mem_filter member
  · simp only [revisitsOf, eventsOf, filter_filter]
    exact filter_congr fun event _ => by ac_rfl

theorem normalize_distinct : ∀ {items : List (Value F)} {seen : List String}
    {rows : List MapSample}, rt.normalize seen items = .ok rows →
      (rows.map MapSample.service).Nodup ∧ ∀ row ∈ rows, row.service ∉ seen
  | [], seen, rows, done => by
    cases done
    exact ⟨nodup_nil, fun _ impossible => nomatch impossible⟩
  | raw :: rest, seen, rows, done => by
    rw [normalize, result_refuse] at done
    obtain ⟨_, done⟩ := done
    extract_lets service mode state at done
    rw [result_refuse] at done
    obtain ⟨named, done⟩ := done
    cases known : validModes.lookup mode with
    | none => simp [known, valueError] at done
    | some value =>
      simp only [known, result_bind, result_refuse] at done
      obtain ⟨players, _, _, retention, _, others, tail, done⟩ := done
      cases done
      obtain ⟨distinct, absent⟩ := normalize_distinct tail
      simp only [not_or] at named
      constructor
      · refine nodup_cons.mpr ⟨fun member => ?_, distinct⟩
        obtain ⟨other, inside, same⟩ := mem_map.mp member
        exact absent other inside (same ▸ mem_cons_self)
      · intro row member
        rcases mem_cons.mp member with rfl | later
        · exact named.2.2
        · exact fun old => absent row later (mem_cons_of_mem _ old)

structure Follows (times : List T) (run : Run T) : Prop where
  good : Good run.db
  past : ∀ service, ∀ seen ∈ run.history service, seen.now ∈ times
  recent : ∀ cutoff ∈ run.cutoffs, ∃ time ∈ times, cutoff ≤ time
  tracks : ∀ service, rt.Tracks service (run.history service) run.cutoffs run.db

def Once (db after : Db T) : Prop :=
  ∀ event ∈ db.events, event.completion ≠ none → ∀ later ∈ after.events, later.id = event.id → later = event

theorem once_of_moves {db middle after : Db T} (sound : Sound middle)
    (moves : ∀ event ∈ db.events, ∃ later ∈ middle.events, event.Moves later)
    (inside : ∀ event ∈ after.events, event ∈ middle.events) : Once db after := by
  intro event member complete later present same
  obtain ⟨moved, kept, move⟩ := moves event member
  rcases move with rfl | ⟨pending, _⟩
  · exact Table.same_row sound.ids (inside later present) kept same
  · exact absurd pending complete

/-- An observation that goes through tells of one more observation of each of its services. -/
theorem observe_effect {run : Run T} {times : List T} {maps : Value F}
    {result : Observed T} {after : Db T} (follows : rt.Follows times run)
    (latest : ∀ time ∈ times, time ≤ now)
    (done : rt.observe policy maps now drawn run.db = .ok (result, after)) :
    Once run.db after ∧ rt.Follows (times ++ [now]) ⟨after, fun service => run.history service ++
        ((rt.sampled (.observe policy maps now drawn)).filter fun row => row.service = service).map
          (observation run.db now),
      run.cutoffs ++ [policy.eventCutoff now]⟩ := by
  simp only [observe, bind_ok, lift_ok, pure_ok, Prod.mk.injEq] at done
  obtain ⟨rows, _, ⟨normalized, rfl⟩, made, middle, loop, _, final, pruned, _, rfl⟩ := done
  have distinct : (rows.map MapSample.service).Nodup := by
    unfold incoming at normalized
    split at normalized
    next items =>
      split at normalized
      next => cases normalized
      next => exact (rt.normalize_distinct normalized).1
    next => cases normalized
  have recent : ∀ cutoff ∈ run.cutoffs, cutoff ≤ now := fun cutoff member => by
    obtain ⟨time, earlier, bound⟩ := follows.recent cutoff member
    exact bound.trans (latest time earlier)
  obtain ⟨good, moves, tracks⟩ := rt.tracks_rounds distinct follows.good
    (fun service seen member => latest _ (follows.past service seen member)) recent follows.tracks loop
  obtain ⟨better, states, inside, revisits⟩ := prune_effect good pruned
  have rowsIs : rt.sampled (.observe policy maps now drawn) = rows := by
    rw [sampled, normalized]
  rw [rowsIs]
  refine ⟨once_of_moves good.sound moves inside, better, fun service seen member => ?_, ?_, fun service => ⟨?_, ?_⟩⟩
  · rcases mem_append.mp member with old | new
    · exact mem_append_left _ (follows.past service seen old)
    · obtain ⟨row, _, rfl⟩ := mem_map.mp new
      simp [observation]
  · intro cutoff member
    rcases mem_append.mp member with old | new
    · obtain ⟨time, earlier, bound⟩ := follows.recent cutoff old
      exact ⟨time, mem_append_left _ earlier, bound⟩
    · rw [mem_singleton.mp new]
      exact ⟨now, by simp, policy.eventCutoff_le now⟩
  · rw [Db.state?, states]
    exact (tracks service).state
  · rw [revisits service]
    have filtered := rel_filter (R := rt.Records)
      (p := fun event => match event.completion with
        | some completion => !decide (completion.completedAt < policy.eventCutoff now)
        | none => true)
      (q := fun edge => decide (policy.eventCutoff now ≤ edge.now))
      (fun event edge records => by
        obtain ⟨completion, complete, completed, _⟩ := records.completion
        simp [complete, completed]) (tracks service).revisits
    rw [kept, filter_filter] at filtered
    simpa [kept, Bool.and_comm] using filtered

theorem perform_follows {run : Run T} {times : List T} {call : Call F T}
    (follows : rt.Follows times run) (latest : ∀ time ∈ times, time ≤ call.now) :
    Once run.db (rt.perform run call).db ∧ rt.Follows (times ++ [call.now]) (rt.perform run call) := by
  have wider : ∀ (db : Db T), Good db → (∀ service, rt.Tracks service (run.history service)
      run.cutoffs db) → rt.Follows (times ++ [call.now]) { run with db } := by
    intro db good tracks
    refine ⟨good, fun service seen member => mem_append_left _ (follows.past service seen member),
      fun cutoff member => ?_, tracks⟩
    obtain ⟨time, earlier, bound⟩ := follows.recent cutoff member
    exact ⟨time, mem_append_left _ earlier, bound⟩
  unfold perform
  split
  next after done =>
    -- a start that is recorded or fails is seen by its own service only
    have started (name : String) (step : Step name run.db after) (good : Good after)
        (revisits : revisitsOf name after = revisitsOf name run.db)
        (state : (after.state? name).map ServiceState.seen = (run.db.state? name).map ServiceState.seen) :
        Once run.db after ∧ rt.Follows (times ++ [call.now]) { run with db := after } := by
      refine ⟨once_of_moves good.sound step.moves fun _ => id, wider after good fun service => ?_⟩
      by_cases same : service = name
      · exact rt.tracks_same (follows.tracks service) (same ▸ state) (same ▸ revisits)
      · refine rt.tracks_same (follows.tracks service) ?_ ?_
        · rw [step.states service same]
        · rw [revisitsOf, step.events service same, revisitsOf]
    cases call with
    | recordStart service source now details uuid =>
      simp only [body, bind_ok, pure_ok, Prod.mk.injEq] at done
      obtain ⟨id, middle, recorded, _, rfl⟩ := done
      obtain ⟨name, step, good, revisits, state⟩ := rt.recordStart_effect follows.good recorded
      simpa [sampled, Call.cutoff] using started name step good revisits state
    | failStart service error now =>
      obtain ⟨step, good, revisits, state⟩ := rt.failStart_effect follows.good done
      simpa [sampled, Call.cutoff] using started service step good revisits state
    | observe policy maps now drawn =>
      simp only [body, bind_ok, pure_ok, Prod.mk.injEq] at done
      obtain ⟨result, middle, observed, _, rfl⟩ := done
      exact rt.observe_effect follows latest observed
  next why failed =>
    refine ⟨fun event member _ later present same => ?_, wider run.db follows.good follows.tracks⟩
    exact Table.same_row follows.good.sound.ids present member same

theorem int_error {value : Value F} {why : Exception} (failed : rt.int value = .error why) :
    why.type ≠ .integrityError := by
  cases value with
  | float value => exact rt.intOfFloat_error value why failed
  | str text =>
    simp only [Runtime.int] at failed
    split at failed
    next => cases failed
    next =>
      cases failed
      simp
  | int value => cases failed
  | bool value => cases failed
  | none => cases failed; simp
  | list items => cases failed; simp
  | dict entries => cases failed; simp

theorem normalize_error : ∀ {items : List (Value F)} {seen : List String} {why : Exception},
    rt.normalize seen items = .error why → why.type ≠ .integrityError
  | [], _, _, failed => nomatch failed
  | raw :: rest, seen, why, failed => by
    have raised {message : String} (same : (valueError message : Result (List MapSample)) =
        .error why) : why.type ≠ .integrityError := by
      cases same
      simp
    rw [normalize] at failed
    extract_lets service mode state at failed
    split at failed
    next => exact raised failed
    next =>
      split at failed
      next => exact raised failed
      next =>
        split at failed
        next => exact raised failed
        next value _ =>
          rcases (result_bind_error).mp failed with first | ⟨players, _, failed⟩
          · exact rt.int_error first
          · split at failed
            next => exact raised failed
            next =>
              rcases (result_bind_error).mp failed with first | ⟨retention, _, failed⟩
              · exact rt.int_error first
              · rcases (result_bind_error).mp failed with first | ⟨others, _, failed⟩
                · exact normalize_error first
                · cases failed

theorem rounds_clash : ∀ {rows : List MapSample} {db : Db T}, Good db →
      Transaction.each (rt.observeMap policy now drawn) rows db ≠ .error pendingClash := by
  intro rows
  induction rows with
  | nil =>
    intro db _ clash
    simp [Transaction.each] at clash
  | cons row rest ih =>
    intro db good clash
    simp only [Transaction.each, bind_error, pure_error, and_false,
      exists_false, or_false] at clash
    rcases clash with clash | ⟨made, middle, one, clash⟩
    · exact rt.observeMap_clash good clash
    · exact ih (rt.observeMap_effect good one).2.1 clash

theorem body_clash {db : Db T} (good : Good db) (call : Call F T) : rt.body call db ≠ .error pendingClash := by
  intro clash
  cases call with
  | recordStart service source now details uuid =>
    simp only [body, bind_error, pure_error, and_false, exists_false, or_false] at clash
    exact rt.recordStart_clash clash
  | failStart service error now => exact rt.failStart_clash clash
  | observe policy maps now drawn =>
    simp only [body, bind_error, pure_error, and_false, exists_false, or_false, observe, lift_error, lift_ok, prune,
      write_error] at clash
    rcases clash with clash | ⟨_, _, ⟨_, rfl⟩, clash⟩
    · have raised : pendingClash.type ≠ .integrityError := by
        unfold incoming at clash
        split at clash
        next items =>
          split at clash
          next => simp [pendingClash, valueError] at clash
          next => exact rt.normalize_error clash
        next => simp [pendingClash, valueError] at clash
      exact raised rfl
    · exact rt.rounds_clash good clash

theorem run_follows (calls : List (Call F T)) (ordered : calls.Pairwise fun earlier later => earlier.now ≤ later.now) :
    rt.Follows (calls.map Call.now) (rt.run calls) := by
  induction calls using List.reverseRecOn with
  | nil =>
    have sound : Sound (⟨[], [], []⟩ : Db T) := ⟨nodup_nil, nodup_nil, fun _ impossible => nomatch impossible⟩
    have linked (service : String) : Linked service (⟨[], [], []⟩ : Db T) :=
      ⟨Nat.zero_le 1, fun _ impossible => nomatch impossible⟩
    exact ⟨⟨sound, linked⟩, by simp [run], by simp [run], fun _ => ⟨rfl, .nil⟩⟩
  | append_singleton calls call ih =>
    obtain ⟨earlier, _, last⟩ := pairwise_append.mp ordered
    rw [run, foldl_append, map_append]
    refine (rt.perform_follows (ih earlier) fun time member => ?_).2
    obtain ⟨old, before, rfl⟩ := mem_map.mp member
    exact last old before call mem_cons_self

structure Balanced (calls : List (Call F T)) (run : Run T) : Prop where
  /-- No call violates the constraint of one pending start for each service. -/
  allowed : ∀ call : Call F T, rt.body call run.db ≠ .error pendingClash
  /-- The row of an observed service points to its one pending start. -/
  pointed : ∀ service, run.history service ≠ [] → ∃ row, run.db.state? service = some row ∧
    ∀ id, row.pendingStartId = some id ↔ ∃ event ∈ run.db.events,
      event.service = service ∧ event.kind = .start ∧ event.completion = none ∧ event.id = id
  single : ∀ first ∈ run.db.events, ∀ second ∈ run.db.events, first.isPending = true →
    second.isPending = true → first.service = second.service → first = second
  /-- A completed start has one of three outcomes. -/
  outcomes : ∀ event ∈ run.db.events, event.kind = .start → ∀ completion, event.completion = some completion →
      completion.outcome ∈ startOutcomes ∧ 0 ≤ completion.durationSeconds
  /-- What is complete is not completed again. -/
  once : ∀ call : Call F T, (∀ earlier ∈ calls, earlier.now ≤ call.now) → Once run.db (rt.perform run call).db
  /-- The revisits are those of the edges that no observation has pruned since. -/
  revisits : ∀ service, List.Forall₂ rt.Records (revisitsOf service run.db)
    (kept run.cutoffs (edges [] (run.history service)))

theorem starts_and_revisits (calls : List (Call F T))
    (ordered : calls.Pairwise fun earlier later => earlier.now ≤ later.now) :
    rt.Balanced calls (rt.run calls) := by
  have follows := rt.run_follows calls ordered
  have pendingMem : ∀ service event, event ∈ pendingOf service (rt.run calls).db ↔
      event ∈ (rt.run calls).db.events ∧ event.service = service ∧ event.isPending = true := by
    intro service event
    simp [pendingOf, eventsOf, and_comm]
  have same : ∀ service, ∀ first ∈ pendingOf service (rt.run calls).db,
      ∀ second ∈ pendingOf service (rt.run calls).db, first = second := by
    intro service first one second other
    have single := (follows.good.linked service).single
    cases shape : pendingOf service (rt.run calls).db with
    | nil => simp [shape] at one
    | cons event rest =>
      obtain rfl : rest = [] := by simpa [shape] using single
      rw [shape, mem_singleton] at one other
      exact one.trans other.symm
  refine ⟨rt.body_clash follows.good, fun service observed => ?_, ?_, ?_, fun call latest => ?_,
    fun service => (follows.tracks service).revisits⟩
  · have state := (follows.tracks service).state
    cases final : ((rt.run calls).history service).getLast? with
    | none => exact absurd (List.getLast?_eq_none_iff.mp final) observed
    | some last =>
      rw [final, Option.map_some] at state
      obtain ⟨row, found, _⟩ := Option.map_eq_some_iff.mp state
      refine ⟨row, found, fun id => ?_⟩
      rw [(follows.good.linked service).points row found, Option.map_eq_some_iff]
      constructor
      · rintro ⟨event, head, rfl⟩
        obtain ⟨inside, named, start, pending⟩ := mem_pending (List.mem_of_head? head)
        exact ⟨event, inside, named, start, pending, rfl⟩
      · rintro ⟨event, inside, named, start, pending, rfl⟩
        have member : event ∈ pendingOf service (rt.run calls).db :=
          (pendingMem service event).mpr ⟨inside, named, by simp [Event.isPending, start, pending]⟩
        cases head : (pendingOf service (rt.run calls).db).head? with
        | none => simp [List.head?_eq_none_iff.mp head] at member
        | some first =>
          exact ⟨first, rfl, congrArg Event.id (same service first (List.mem_of_head? head) event member)⟩
  · intro first one second other pending waiting named
    exact same second.service first ((pendingMem _ _).mpr ⟨one, named, pending⟩) second
      ((pendingMem _ _).mpr ⟨other, rfl, waiting⟩)
  · intro event inside start completion complete
    have proper := follows.good.sound.proper event inside
    simp only [Event.Proper, start, complete] at proper
    exact ⟨proper, completion.nonneg⟩
  · refine (rt.perform_follows follows fun time member => ?_).1
    obtain ⟨old, before, rfl⟩ := mem_map.mp member
    exact latest old before

end Platform

def plainCapacity : Platform FloatText Int where
  toRuntime := plainRuntime
  sub later earlier := later - earlier
  sub_nonneg later earlier ordered := by omega
  intOfFloat_error value why failed := by
    cases failed
    simp

def defaultPolicy : Policy Int where
  sampleIntervalSeconds := 30
  maxObservationGapSeconds := 300
  startTimeoutSeconds := 300
  sampleCutoff now := now - 90 * 86400
  eventCutoff now := now - 730 * 86400
  eventCutoff_le now := by omega

def drawn (start revisit : String) : Drawn := ⟨fun _ => start, fun _ => revisit⟩

def mapAt (state : String) (ready : Bool) (players : Int) (now : Int) (start revisit : String) :
    Call FloatText Int :=
  .observe defaultPolicy (.list [.object [("service", .str "deep-desert"), ("mode", .str "dynamic"),
    ("state", .str state), ("ready", .bool ready), ("players", .int players)]]) now
    (drawn start revisit)

def twoYears : List (Call FloatText Int) := [
  mapAt "exited" false 0 10 "a" "b",
  .recordStart (.str "deep-desert") (.str "autoscaler") 20 .none "c",
  mapAt "running" false 1 40 "d" "e",
  mapAt "running" true 1 70 "f" "g",
  mapAt "exited" false 0 100 "h" "i",
  mapAt "exited" false 0 63158400 "j" "k"]

theorem starts_and_revisits_twoYears : (twoYears.Pairwise fun earlier later => earlier.now ≤ later.now) ∧
      plainCapacity.Balanced twoYears (plainCapacity.run twoYears) := by
  have ordered : twoYears.Pairwise fun earlier later => earlier.now ≤ later.now := by
    decide
  exact ⟨ordered, plainCapacity.starts_and_revisits twoYears ordered⟩

/-- After the retention period an edge has no revisit any more. -/
theorem pruned_revisit : (twoYears.Pairwise fun earlier later => earlier.now ≤ later.now) ∧
      (edges [] ((plainCapacity.run twoYears).history "deep-desert")).length = 1 ∧
      (revisitsOf "deep-desert" (plainCapacity.run (twoYears.take 5)).db).length = 1 ∧
      (revisitsOf "deep-desert" (plainCapacity.run twoYears).db).length = 0 := by
  decide

end Dash.Capacity
