import Dash.Approvals.Effects
import Dash.Foundation.Chain

/-! The events tell the life of every request, and an approval and an execution return.

The two tables are written side by side. After any run the codes of all rows match,
and the events of a request lead through the state machine to the state of its row. The codes can
always be computed, so an operation on a sealed row fails at its own checks or not at all.
-/

set_option autoImplicit false

namespace Dash.Approvals

open Dash.Python Dash.Foundation List

variable {F T : Type}

def Db.history (db : Db T) (id : String) : List (Event T) :=
  db.events.filter fun event => event.requestId = id

def Event.follow (_ : Option State) (event : Event T) : Option State := some event.state

def Event.Follows (state : Option State) (event : Event T) : Prop :=
  event.previousState = state ∧ Transition state event.state

structure Db.Told (db : Db T) (row : Request T) : Prop where
  path : Sound Event.follow Event.Follows none (db.history row.id)
  current : (db.history row.id).foldl Event.follow none = some row.state

theorem Transition.not_terminal {state next : State} (moves : Transition (some state) next) :
    state.terminal = false := by
  cases moves <;> rfl

/-- The later tables keep the decided requests, what was asked for, and the events in their places. -/
structure Db.Stands (db later : Db T) : Prop where
  decided : ∀ row ∈ db.requests, row.state.terminal = true → row ∈ later.requests
  asked : ∀ row ∈ db.requests, ∃ now ∈ later.requests, now.asCreated = row.asCreated
  events : db.events <+: later.events

theorem Db.Stands.refl (db : Db T) : db.Stands db :=
  ⟨fun _ member _ => member, fun row member => ⟨row, member, rfl⟩, prefix_rfl⟩

theorem Db.Stands.trans {db middle later : Db T} (first : db.Stands middle) (second : middle.Stands later) :
    db.Stands later where
  decided row member terminal := second.decided row (first.decided row member terminal) terminal
  asked row member := by
    obtain ⟨next, present, same⟩ := first.asked row member
    obtain ⟨last, there, again⟩ := second.asked next present
    exact ⟨last, there, again.trans same⟩
  events := first.events.trans second.events

variable {event : Event T}

theorem Sound.terminal_last {before after : List (Event T)}
    (path : Sound Event.follow Event.Follows none (before ++ event :: after))
    (terminal : event.state.terminal = true) : after = [] := by
  cases after with
  | nil => rfl
  | cons next rest =>
    obtain ⟨-, -, ⟨-, moves⟩, -⟩ := Sound.append.mp path
    rw [Transition.not_terminal moves] at terminal
    cases terminal

namespace Platform

variable (rt : Platform F T)

structure Coherent (db : Db T) : Prop where
  distinct : (db.requests.map Request.id).Nodup
  sealed : ∀ row ∈ db.requests, rt.Sealed row
  chain : Sound (fun _ event => event.eventHmacSha256) rt.Bound NO_HMAC db.events
  about : ∀ event ∈ db.events, event.requestId ∈ db.requests.map Request.id
  told : ∀ row ∈ db.requests, db.Told row

end Platform

theorem head_eq (events : List (Event T)) : events.foldl (fun _ event => event.eventHmacSha256) NO_HMAC =
      (events.getLast?.map Event.eventHmacSha256).getD NO_HMAC := by
  induction events using List.reverseRecOn with
  | nil => rfl
  | append_singleton before event ih => simp

theorem history_append {db : Db T} {id : String} : (db.appendEvent event).history id =
      db.history id ++ if event.requestId = id then [event] else [] := by
  simp only [Db.history, Db.appendEvent, filter_append, filter_singleton]
  split <;> simp_all

theorem told_other {db other : Db T} {row : Request T} (told : db.Told row)
    (events : other.events = db.events ++ [event]) (apart : event.requestId ≠ row.id) :
    other.Told row := by
  have same : other.history row.id = db.history row.id := by
    rw [Db.history, events, filter_append, filter_singleton]
    simp [apart, Db.history]
  exact ⟨same ▸ told.path, same ▸ told.current⟩

namespace Platform

variable (rt : Platform F T) {db : Db T}

theorem coherent_empty : rt.Coherent (.empty T) where
  distinct := nodup_nil
  sealed _ member := nomatch member
  chain := trivial
  about _ member := nomatch member
  told _ member := nomatch member

theorem opened_coherent {row : Request T} {event : Event T} (kept : rt.Coherent db)
    (new : rt.Opened db row event) : rt.Coherent (db.open row event) where
  distinct := Table.insert_keys kept.distinct new.fresh
  sealed other member := by
    rcases mem_append.mp member with before | last
    · exact kept.sealed other before
    · rw [mem_singleton.mp last]
      exact new.sealed
  chain := kept.chain.concat (by
    rw [head_eq]
    exact new.bound)
  about other member := by
    change _ ∈ (db.requests ++ [row]).map Request.id
    rw [map_append]
    rcases mem_append.mp member with before | last
    · exact mem_append_left _ (kept.about other before)
    · rw [mem_singleton.mp last, new.about]
      exact mem_append_right _ mem_cons_self
  told other member := by
    rcases mem_append.mp member with before | last
    · have apart : event.requestId ≠ other.id := fun same =>
        new.fresh (new.about ▸ same ▸ mem_map_of_mem before)
      exact told_other (kept.told other before) rfl apart
    · -- the identifier is new, so its first event is this one
      have unheard : db.history row.id = [] := by
        rw [Db.history, filter_eq_nil_iff]
        intro earlier member same
        exact new.fresh (of_decide_eq_true same ▸ kept.about earlier member)
      have history : (db.open row event).history row.id = [event] := by
        have appended : (db.open row event).history row.id = db.history row.id ++ _ := history_append
        rwa [if_pos new.about, unheard] at appended
      rw [mem_singleton.mp last]
      refine ⟨history ▸ ⟨⟨new.source, ?_⟩, trivial⟩, history ▸ ?_⟩
      · rw [new.target]
        exact .request
      · rw [new.pending, ← new.target]
        rfl

theorem moved_coherent {row : Request T} {change : Request T → Request T} {event : Event T}
    (kept : rt.Coherent db) (transit : rt.Transit db row change event) :
    rt.Coherent (db.move row change event) where
  distinct := by
    rw [move_ids transit.fixed]
    exact kept.distinct
  sealed other member := by
    rcases move_cases kept.distinct transit.member member with rfl | ⟨before, -⟩
    · exact transit.sealed
    · exact kept.sealed other before
  chain := kept.chain.concat (by
    rw [head_eq]
    exact transit.bound)
  about other member := by
    rw [move_ids transit.fixed]
    rcases mem_append.mp member with before | last
    · exact kept.about other before
    · rw [mem_singleton.mp last, transit.about]
      exact mem_map_of_mem transit.member
  told other member := by
    rcases move_cases kept.distinct transit.member member with rfl | ⟨before, apart⟩
    · have told := kept.told row transit.member
      have history : (db.move row change event).history row.id = db.history row.id ++ [event] := by
        have appended : (db.move row change event).history row.id = db.history row.id ++ _ := history_append
        rwa [if_pos transit.about] at appended
      have moved : Event.Follows (some row.state) event := ⟨transit.source, by
        rw [transit.target]
        exact transit.moves⟩
      have path := told.path.concat (told.current.symm ▸ moved)
      rw [← history, ← same_id (transit.fixed row)] at path
      refine ⟨path, ?_⟩
      rw [same_id (transit.fixed row), history, foldl_append, ← transit.target]
      rfl
    · exact told_other (kept.told other before) rfl (transit.about ▸ apart.symm)

variable {after : Db T}

theorem step_coherent (kept : rt.Coherent db) (step : rt.Step db after) : rt.Coherent after := by
  cases step with
  | opened row event new => exact rt.opened_coherent kept new
  | moved row change event transit => exact rt.moved_coherent kept transit

theorem steps_coherent (kept : rt.Coherent db)
    (steps : Relation.ReflTransGen rt.Step db after) : rt.Coherent after := by
  induction steps with
  | refl => exact kept
  | tail _ step ih => exact rt.step_coherent ih step

variable [LinearOrder T]

theorem swept_steps {now : T} (swept : rt.Swept now db after) : Relation.ReflTransGen rt.Step db after := by
  have steps : ∀ before next, rt.Expiry now before next → rt.Step before next := by
    rintro before next ⟨row, change, event, -, transit, -⟩
    exact .moved row change event transit
  exact Relation.ReflTransGen.mono steps db after swept.path

theorem apply_steps (distinct : (db.requests.map Request.id).Nodup) (call : Call F T) :
    Relation.ReflTransGen rt.Step db (rt.apply db call) := by
  unfold apply
  cases outcome : rt.perform call db with
  | error why =>
    rw [Transaction.commit_error outcome]
  | ok success =>
    obtain ⟨result, after⟩ := success
    rw [Transaction.commit_ok outcome]
    obtain ⟨swept, sweep, effect⟩ := rt.perform_ok distinct outcome
    have first := rt.swept_steps sweep
    rcases effect.step with same | step
    · exact same ▸ first
    · exact first.tail step

theorem apply_coherent (kept : rt.Coherent db) (call : Call F T) : rt.Coherent (rt.apply db call) :=
  rt.steps_coherent kept (rt.apply_steps kept.distinct call)

theorem calls_coherent (kept : rt.Coherent db) (calls : List (Call F T)) : rt.Coherent (calls.foldl rt.apply db) := by
  induction calls generalizing db with
  | nil => exact kept
  | cons call rest ih => exact ih (rt.apply_coherent kept call)

theorem run_coherent (calls : List (Call F T)) : rt.Coherent (rt.run calls) :=
  rt.calls_coherent rt.coherent_empty calls

omit [LinearOrder T] in
theorem step_stands (step : rt.Step db after) : db.Stands after := by
  cases step with
  | opened row event new =>
    exact ⟨fun other member _ => mem_append_left _ member,
      fun other member => ⟨other, mem_append_left _ member, rfl⟩, prefix_append _ _⟩
  | moved row change event transit =>
    refine ⟨fun other member decided => ?_, fun other member => ?_, prefix_append _ _⟩
    · -- The update looks for a state as well, from which there is a transition.
      refine Table.mem_update.mpr (.inr ⟨member, fun same => ?_⟩)
      rw [(Prod.mk.inj same).2, transit.moves.not_terminal] at decided
      cases decided
    · by_cases same : (other.id, other.state) = (row.id, row.state)
      · exact ⟨change other, Table.mem_update.mpr (.inl ⟨other, member, same, rfl⟩), transit.fixed other⟩
      · exact ⟨other, Table.mem_update.mpr (.inr ⟨member, same⟩), rfl⟩

omit [LinearOrder T] in
theorem steps_stand (steps : Relation.ReflTransGen rt.Step db after) : db.Stands after := by
  induction steps with
  | refl => exact .refl db
  | tail _ step before => exact before.trans (rt.step_stands step)

theorem calls_stand (kept : rt.Coherent db) (calls : List (Call F T)) : db.Stands (calls.foldl rt.apply db) := by
  induction calls generalizing db with
  | nil => exact .refl db
  | cons call rest ih =>
    have first := rt.steps_stand (rt.apply_steps kept.distinct call)
    exact first.trans (ih (rt.apply_coherent kept call))

/-- Whatever calls follow a run, in time or late, a request keeps what was asked for, keeps its row once
it is decided, and no event is lost. -/
theorem decided_requests_stand (calls later : List (Call F T)) : (rt.run calls).Stands (rt.run (calls ++ later)) := by
  have stands := rt.calls_stand (rt.run_coherent calls) later
  rwa [run, run, foldl_append]

omit [LinearOrder T] in
theorem failedRequest_none {rows : List (Request T)} (sealed : ∀ row ∈ rows, rt.Sealed row) :
    rt.failedRequest rows = .ok none := by
  induction rows with
  | nil => rfl
  | cons row rest ih =>
    have first : rt.verifyRequestRow row = .ok () := (rt.verifyRequestRow_ok).mpr (sealed row mem_cons_self)
    rw [failedRequest, first]
    exact ih fun other member => sealed other (mem_cons_of_mem _ member)

omit [LinearOrder T] in
theorem verifyEvents_ok {requests checked : Nat} {previous : String} {events : List (Event T)}
    (chain : Sound (fun _ event => event.eventHmacSha256) rt.Bound previous events) :
    rt.verifyEvents requests previous checked events = .ok (.ok (checked + events.length) requests
        (events.foldl (fun _ event => event.eventHmacSha256) previous)) := by
  induction events generalizing previous checked with
  | nil => rfl
  | cons event rest ih =>
    obtain ⟨⟨named, coded⟩, chain⟩ := chain
    have follows : ¬ (event.previousHmacSha256 ≠ previous ∨ event.eventHmacSha256 ≠ event.eventHmacSha256) := by
      simp [named]
    simp only [verifyEvents, coded, length_cons, foldl_cons]
    change (if _ then _ else _) = _
    rw [if_neg follows, ih chain, Nat.add_right_comm, Nat.add_assoc]

theorem verify_coherent (kept : rt.Coherent db) :
    rt.verify db = .ok (.ok db.events.length db.requests.length db.head) := by
  have sealed : ∀ row ∈ inOrder db.requests, rt.Sealed row := fun row member =>
    kept.sealed row ((perm_insertionSort _ _).mem_iff.mp member)
  rw [verify, rt.failedRequest_none sealed]
  rw [rt.verifyEvents_ok kept.chain, Nat.zero_add, head_eq]
  rfl

/-- After any run the ledger verifies, and the events of every request are a path of the
state machine to its stored state, with nothing after a terminal state. -/
theorem histories_refine_states (calls : List (Call F T)) :
    rt.verify (rt.run calls) = .ok (.ok (rt.run calls).events.length
      (rt.run calls).requests.length (rt.run calls).head) ∧
    ∀ row ∈ (rt.run calls).requests, Sound Event.follow Event.Follows none ((rt.run calls).history row.id) ∧
      ((rt.run calls).history row.id).foldl Event.follow none = some row.state ∧
      ∀ before event after, (rt.run calls).history row.id = before ++ event :: after →
        event.state.terminal = true → after = [] := by
  have kept := rt.run_coherent calls
  refine ⟨rt.verify_coherent kept, fun row member => ?_⟩
  have told := kept.told row member
  refine ⟨told.path, told.current, fun before event after split terminal => ?_⟩
  exact Sound.terminal_last (split ▸ told.path) terminal

end Platform

end Dash.Approvals

namespace Dash.Approvals.Platform

open Dash.Python Dash.Foundation List
open Foundation.Transaction (bind_ok lift_bind pure_ok read_bind write_bind)

variable {F T : Type}

section Codes

variable (rt : Platform F T)

theorem dumps_total {value : Value F} (written : ∃ document, rt.jsonable value = .ok document) :
    ∃ text, rt.canonical value = .ok text := by
  obtain ⟨document, encoded⟩ := written
  exact ⟨_, (rt.dumps_ok).mpr ⟨document, encoded, rfl⟩⟩

theorem jsonable_str (text : String) : ∃ document, rt.jsonable (.str text : Value F) = .ok document :=
  ⟨.str text, by simp [Runtime.jsonable]⟩

theorem jsonable_option (text : Option String) : ∃ document, rt.jsonable (.ofOption text) = .ok document := by
  cases text with
  | none => exact ⟨.null, by simp [Value.ofOption, Runtime.jsonable]⟩
  | some text => exact ⟨.str text, by simp [Value.ofOption, Runtime.jsonable]⟩

theorem jsonable_time (at_ : Option T) : ∃ document, rt.jsonable (rt.optionalTime at_) = .ok document := by
  cases at_ with
  | none => exact ⟨.null, by simp [optionalTime, Runtime.jsonable]⟩
  | some at_ => exact ⟨_, by simp [optionalTime, time, Runtime.jsonable]; rfl⟩

theorem jsonable_empty : rt.jsonable (.dict []) = .ok (.object []) := by
  simp [Runtime.jsonable, Runtime.jsonableEntries, sortable, Except.map, Runtime.sortEntries]

theorem stateHmac_total (row : Request T) : ∃ code, rt.stateHmac row = .ok code := by
  have written : ∃ document, rt.jsonable (rt.statePayload row) = .ok document := by
    apply rt.jsonable_object
    simp only [forall_mem_cons, not_mem_nil, false_implies, implies_true, and_true]
    exact ⟨⟨.int 1, by simp [Runtime.jsonable]⟩, rt.jsonable_str _, rt.jsonable_str _, rt.jsonable_option _,
      rt.jsonable_option _, rt.jsonable_time _, rt.jsonable_option _, rt.jsonable_time _,
      rt.jsonable_time _⟩
  obtain ⟨text, encoded⟩ := rt.dumps_total written
  exact ⟨rt.tagged "state" text, by rw [stateHmac, encoded]; rfl⟩

/-- An event whose details can be written twice is recorded. -/
theorem appendEvent_total {db : Db T} {requestId actorId : String} {action : EventAction}
    {previousState : Option State} {state : State} {details : Value F} {now : T}
    {document : Document} (encoded : rt.jsonable details = .ok document)
    (again : ∃ other, rt.jsonable (rt.ofDocument document) = .ok other) :
    ∃ digest event, rt.appendEvent requestId actorId action previousState state details now db =
      .ok (digest, db.appendEvent event) := by
  have loaded := rt.loads_text true document
  have written : rt.canonical details = .ok (String.ofList (document.text true)) :=
    (rt.dumps_ok).mpr ⟨document, encoded, rfl⟩
  have payload : ∃ other, rt.jsonable (.object [("schemaVersion", .int 1),
      ("requestId", .str requestId), ("occurredAt", rt.time now), ("actorId", .str actorId),
      ("action", .str action.text),
      ("previousState", .ofOption (previousState.map State.text)), ("state", .str state.text),
      ("details", rt.ofDocument document), ("previousHmacSha256", .str db.head)]) = .ok other := by
    apply rt.jsonable_object
    simp only [forall_mem_cons, not_mem_nil, false_implies, implies_true, and_true]
    exact ⟨⟨.int 1, by simp [Runtime.jsonable]⟩, rt.jsonable_str _, rt.jsonable_time (some now), rt.jsonable_str _,
      rt.jsonable_str _, rt.jsonable_option _, rt.jsonable_str _, again, rt.jsonable_str _⟩
  obtain ⟨payloadText, coded⟩ := rt.dumps_total payload
  refine ⟨rt.tagged "event" payloadText, ⟨requestId, now, actorId, action, previousState, state,
    String.ofList (document.text true), db.head, rt.tagged "event" payloadText⟩, ?_⟩
  simp only [appendEvent, read_bind, lift_bind, write_bind, pure_ok]
  refine ⟨_, written, rt.tagged "event" payloadText, ?_, rfl⟩
  simp only [eventHmac, eventPayload, loaded]
  exact congrArg (fun text : Result String => text.bind fun text => .ok (rt.tagged "event" text)) coded

end Codes

section Calls

variable [LinearOrder T] (rt : Platform F T) {db : Db T} {now : T}

theorem expire_quiet (quiet : ∀ row ∈ db.requests, overdue now row = false) : rt.expire now db = .ok (0, db) := by
  have none : db.requests.filter (overdue now) = [] := by
    rw [filter_eq_nil_iff]
    intro row member
    simp [quiet row member]
  rw [expire, read_bind, none]
  rfl

variable {row : Request T}

omit [LinearOrder T] in
theorem getRow_finds {requestId : Value F} (found : db.request? row.id = some row)
    (names : rt.named requestId = row.id) (valid : isRequestId row.id = true)
    (sealed : rt.Sealed row) : rt.getRow requestId db = .ok (row, db) := by
  have accepted : ¬ isRequestId row.id = false := by simp [valid]
  have same : strip (rt.str (rt.orElse requestId (.str ""))) = row.id := names
  simp only [getRow, same, if_neg accepted, read_bind, found]
  refine lift_bind.mpr ⟨(), (rt.verifyRequestRow_ok).mpr sealed, ?_⟩
  exact pure_ok.mpr rfl

omit [LinearOrder T] in
/-- A change of state that is written and recorded. -/
theorem move_total {change : Request T → Request T} {actorId : String}
    {action : EventAction} {previousState : Option State} {state : State} {details : Value F}
    {document : Document} (encoded : rt.jsonable details = .ok document)
    (again : ∃ other, rt.jsonable (rt.ofDocument document) = .ok other) {α : Type} {value : α} :
    ∃ code event, (do
      rt.writeState row change
      let _ ← rt.appendEvent row.id actorId action previousState state details now
      pure value : Action T α) db = .ok (value,
        db.move row (fun row => { change row with stateHmacSha256 := code }) event) := by
  obtain ⟨code, coded⟩ := rt.stateHmac_total (change row)
  have recorded (middle : Db T) : ∃ digest event, rt.appendEvent row.id actorId action
      previousState state details now middle = .ok (digest, middle.appendEvent event) :=
    rt.appendEvent_total encoded again
  obtain ⟨digest, event, recorded⟩ := recorded (db.setRequest row.id row.state fun other =>
    { change other with stateHmacSha256 := code })
  refine ⟨code, event, bind_ok.mpr ⟨(), _, ?_, bind_ok.mpr ⟨digest, _, recorded, pure_ok.mpr rfl⟩⟩⟩
  exact lift_bind.mpr ⟨code, coded, rfl⟩

/-- The sweep goes through whatever is due, since it verifies only what is sealed. -/
theorem expire_total (kept : rt.Coherent db) (now : T) : ∃ result, rt.expire now db = .ok result := by
  have expires : ∀ row ∈ inOrder (db.requests.filter (overdue now)), ∀ state, ∃ result,
      rt.expireRow now row state = .ok result := by
    intro row listed state
    have member := mem_of_mem_filter ((perm_insertionSort _ _).mem_iff.mp listed)
    obtain ⟨code, event, moved⟩ := rt.move_total rt.jsonable_empty ⟨_, rt.jsonable_empty⟩
    exact ⟨_, lift_bind.mpr ⟨(), (rt.verifyRequestRow_ok).mpr (kept.sealed row member), moved⟩⟩
  obtain ⟨⟨values, after⟩, swept⟩ := Transaction.each_succeeds expires db
  rw [expire, read_bind]
  exact ⟨_, bind_ok.mpr ⟨values, after, swept, rfl⟩⟩

omit [LinearOrder T] in
theorem states_sum (rows : List (Request T)) :
    ([.pending, .approved, .rejected, .cancelled, .expired, .consumed].map fun state =>
      rows.countP fun row => row.state = state).sum = rows.length := by
  induction rows with
  | nil => rfl
  | cons row rest ih =>
    simp only [map_cons, map_nil, sum_cons, sum_nil, countP_cons, length_cons] at ih ⊢
    cases row.state <;> simp <;> omega

/-- After any run the status answers at any time. The ledger that it reads after its own sweep verifies,
and its counts are those of all requests, none of them pending or approved past its expiry. -/
theorem status_answers (calls : List (Call F T)) (now : T) :
    ∃ status after, rt.status now (rt.run calls) = .ok status ∧ rt.Swept now (rt.run calls) after ∧
      status.ledger = .ok after.events.length after.requests.length after.head ∧
      (∀ state, status.counts state = after.requests.countP fun row => row.state = state) ∧
      ([.pending, .approved, .rejected, .cancelled, .expired, .consumed].map status.counts).sum =
        after.requests.length := by
  have kept := rt.run_coherent calls
  obtain ⟨⟨count, after⟩, expired⟩ := rt.expire_total kept now
  have swept := rt.expire_ok kept.distinct expired
  have verified := rt.verify_coherent (rt.steps_coherent kept (rt.swept_steps swept))
  have answer : rt.status now (rt.run calls) = .ok _ := result_bind.mpr
    ⟨_, bind_ok.mpr ⟨count, after, expired, rfl⟩, result_bind.mpr ⟨_, verified, rfl⟩⟩
  exact ⟨_, after, answer, swept, rfl, fun _ => rfl, states_sum _⟩

theorem approve_succeeds {requestId principal : Value F} {actor : Actor}
    (quiet : ∀ row ∈ db.requests, overdue now row = false)
    (found : db.request? row.id = some row) (names : rt.named requestId = row.id)
    (valid : isRequestId row.id = true) (sealed : rt.Sealed row) (pending : row.state = .pending)
    (who : Policies.actor rt.toRuntime principal = .ok actor) (other : row.requesterId ≠ actor.id) :
    ∃ code event, rt.approve requestId principal now db = .ok (row.id,
      db.move row (fun row => { row.approve actor now with stateHmacSha256 := code }) event) := by
  obtain ⟨code, event, moved⟩ := rt.move_total rt.jsonable_empty ⟨_, rt.jsonable_empty⟩
  refine ⟨code, event, ?_⟩
  rw [approve]
  refine lift_bind.mpr ⟨actor, who, ?_⟩
  refine bind_ok.mpr ⟨_, db, rt.expire_quiet quiet, ?_⟩
  refine bind_ok.mpr ⟨row, db, rt.getRow_finds found names valid sealed, ?_⟩
  rw [if_neg (not_not.mpr pending), if_neg other]
  exact moved

/-- The requester can execute what a sealed request in force says. -/
theorem consume_succeeds {requestId principal body : Value F} {actor : Actor}
    (quiet : ∀ row ∈ db.requests, overdue now row = false)
    (distinct : (db.requests.map Request.id).Nodup) (member : row ∈ db.requests)
    (names : rt.named requestId = row.id) (valid : isRequestId row.id = true)
    (sealed : rt.Sealed row) (approved : row.state = .approved)
    (who : Policies.actor rt.toRuntime principal = .ok actor) (own : row.requesterId = actor.id)
    (coded : rt.bodyHmac body = .ok row.bodyHmacSha256) :
    ∃ code event, rt.consume requestId principal row.targetPath body row.requiredCapability
      row.risk.text now db = .ok (row.id,
        db.move row (fun row => { row.consume actor now with stateHmacSha256 := code }) event) := by
  have details : rt.jsonable (.object [("bodyHmacSha256", .str row.bodyHmacSha256)]) =
      .ok (.object [("bodyHmacSha256", .str row.bodyHmacSha256)]) := by
    simp [Value.object, Runtime.jsonable, Runtime.jsonableEntries, sortable, Except.map,
      Runtime.sortEntries, Runtime.keyText]
  obtain ⟨code, event, moved⟩ := rt.move_total details ⟨_, by rw [Runtime.ofDocument]; exact details⟩
  refine ⟨code, event, ?_⟩
  rw [consume]
  refine lift_bind.mpr ⟨actor, who, ?_⟩
  refine lift_bind.mpr ⟨row.bodyHmacSha256, coded, ?_⟩
  refine bind_ok.mpr ⟨_, db, rt.expire_quiet quiet, ?_⟩
  have found : db.request? row.id = some row := Table.find_mem distinct member
  refine bind_ok.mpr ⟨row, db, rt.getRow_finds found names valid sealed, ?_⟩
  have same : drift row row.targetPath row.bodyHmacSha256 row.requiredCapability row.risk.text = [] := by
    simp [drift]
  -- the update is told how many rows it changed, and identifiers are distinct
  have once : (db.requests.countP fun other =>
      (other.id, other.state) = (row.id, .approved)) = 1 := by
    rw [countP_eq_length_filter, Table.filter_single distinct member (by simp [approved])]
    · rfl
    · intro other _ selected
      exact congrArg Prod.fst (of_decide_eq_true selected)
  rw [if_neg (not_not.mpr approved), if_neg (not_not.mpr own), if_neg (not_not.mpr same),
    read_bind, if_neg (not_not.mpr once)]
  exact moved

theorem perform_approve {requestId principal : Value F} {id : String} {after : Db T}
    (done : rt.approve requestId principal now db = .ok (id, after)) :
    rt.perform ⟨.approve requestId principal, now⟩ db = .ok (some id, after) :=
  bind_ok.mpr ⟨id, after, done, pure_ok.mpr rfl⟩

theorem perform_consume {requestId principal body : Value F} {path capability risk id : String} {after : Db T}
    (done : rt.consume requestId principal path body capability risk now db = .ok (id, after)) :
    rt.perform ⟨.consume requestId principal path body capability risk, now⟩ db = .ok (some id, after) :=
  bind_ok.mpr ⟨id, after, done, pure_ok.mpr rfl⟩

end Calls

end Dash.Approvals.Platform
