import Dash.Approvals.Store

/-! What the operations of the store do to its tables.

A transaction first sweeps: it expires what is overdue. Then it opens a request, moves
one to another state, or changes nothing. `perform_ok` reads this off each operation;
the properties of runs follow from it.
-/

set_option autoImplicit false

namespace Dash.Approvals

open Dash.Python Dash.Foundation List
open Foundation.Transaction (bind_ok check_bind guard_ok lift_bind pure_ok raise_ok read_bind
  read_ok write_bind write_ok)

variable {F T : Type}

inductive Transition : Option State → State → Prop where
  | request : Transition none .pending
  | approve : Transition (some .pending) .approved
  | reject : Transition (some .pending) .rejected
  | cancelPending : Transition (some .pending) .cancelled
  | expirePending : Transition (some .pending) .expired
  | consume : Transition (some .approved) .consumed
  | cancelApproved : Transition (some .approved) .cancelled
  | expireApproved : Transition (some .approved) .expired

def Request.asCreated (row : Request T) : Request T :=
  { row with
    state := .pending
    approverId := none
    approverName := none
    approvedAt := none
    consumedBy := none
    consumedAt := none
    decidedAt := none
    stateHmacSha256 := "" }

theorem same_id {row other : Request T} (same : row.asCreated = other.asCreated) : row.id = other.id := by
  have ids := congrArg Request.id same
  exact ids

namespace Platform

section Rows

variable (rt : Platform F T)

def Sealed (row : Request T) : Prop :=
  rt.requestHmac row = .ok row.requestHmacSha256 ∧ rt.stateHmac row = .ok row.stateHmacSha256

def Bound (previous : String) (event : Event T) : Prop :=
  event.previousHmacSha256 = previous ∧ rt.eventHmac event previous = .ok event.eventHmacSha256

structure Opened (db : Db T) (row : Request T) (event : Event T) : Prop where
  fresh : row.id ∉ db.requests.map Request.id
  pending : row.state = .pending
  sealed : rt.Sealed row
  bound : rt.Bound db.head event
  about : event.requestId = row.id
  source : event.previousState = none
  target : event.state = .pending

structure Transit (db : Db T) (row : Request T) (change : Request T → Request T) (event : Event T) :
    Prop where
  member : row ∈ db.requests
  fixed : ∀ other, (change other).asCreated = other.asCreated
  moves : Transition (some row.state) (change row).state
  sealed : rt.Sealed (change row)
  bound : rt.Bound db.head event
  about : event.requestId = row.id
  source : event.previousState = some row.state
  target : event.state = (change row).state

end Rows

end Platform

def Db.open (db : Db T) (row : Request T) (event : Event T) : Db T :=
  (db.appendRequest row).appendEvent event

def Db.move (db : Db T) (row : Request T) (change : Request T → Request T) (event : Event T) : Db T :=
  (db.setRequest row.id row.state change).appendEvent event

namespace Platform

section Steps

variable (rt : Platform F T)

/-- One request is opened or moved. -/
inductive Step (db : Db T) : Db T → Prop where
  | opened (row : Request T) (event : Event T) (new : rt.Opened db row event) :
      Step db (db.open row event)
  | moved (row : Request T) (change : Request T → Request T) (event : Event T)
      (transit : rt.Transit db row change event) : Step db (db.move row change event)

variable {db after : Db T}

variable {row : Request T} {value : Unit}

theorem verifyRequestRow_ok : rt.verifyRequestRow row = .ok value ↔ rt.Sealed row := by
  unfold verifyRequestRow Sealed
  rw [result_bind]
  constructor
  · rintro ⟨expected, coded, rest⟩
    split at rest
    · cases rest
    · next same =>
      obtain ⟨stateCode, stateCoded, rest⟩ := result_bind.mp rest
      split at rest
      · cases rest
      · next sameState =>
        rw [coded, stateCoded, not_not.mp same, not_not.mp sameState]
        exact ⟨rfl, rfl⟩
  · rintro ⟨coded, stateCoded⟩
    refine ⟨_, coded, ?_⟩
    rw [if_neg (not_not.mpr rfl), stateCoded]
    exact if_neg (not_not.mpr rfl)

theorem requestHmac_asCreated (row : Request T) : rt.requestHmac row.asCreated = rt.requestHmac row := rfl

theorem writeState_ok {change : Request T → Request T} (success : rt.writeState row change db = .ok (value, after)) :
    ∃ code, rt.stateHmac (change row) = .ok code ∧ after = db.setRequest row.id row.state fun other =>
        { change other with stateHmacSha256 := code } := by
  simp only [writeState, lift_bind, write_ok] at success
  obtain ⟨code, coded, same⟩ := success
  exact ⟨code, coded, (Prod.mk.inj same).2.symm⟩

theorem appendEvent_ok {requestId actorId digest : String} {action : EventAction}
    {previousState : Option State} {state : State} {details : Value F} {now : T}
    (success : rt.appendEvent requestId actorId action previousState state details now db = .ok (digest, after)) :
    ∃ event, after = db.appendEvent event ∧ rt.Bound db.head event ∧ event.requestId = requestId ∧
      event.previousState = previousState ∧ event.state = state := by
  simp only [appendEvent, read_bind, lift_bind, write_bind, pure_ok] at success
  obtain ⟨detailsJson, -, code, coded, same⟩ := success
  exact ⟨_, (Prod.mk.inj same).2.symm, ⟨rfl, coded⟩, rfl, rfl, rfl⟩

theorem getRow_ok {requestId : Value F} (success : rt.getRow requestId db = .ok (row, after)) :
    after = db ∧ row ∈ db.requests ∧ row.id = strip (rt.str (rt.orElse requestId (.str ""))) ∧
      rt.Sealed row := by
  simp only [getRow, guard_ok, read_bind] at success
  obtain ⟨-, success⟩ := success
  cases found : db.request? (strip (rt.str (rt.orElse requestId (.str "")))) with
  | none =>
    rw [found] at success
    exact (raise_ok.mp success).elim
  | some other =>
    rw [found] at success
    simp only [lift_bind, pure_ok] at success
    obtain ⟨_, verified, same⟩ := success
    obtain ⟨rfl, rfl⟩ := Prod.mk.inj same
    refine ⟨rfl, List.mem_of_find?_eq_some found, ?_, (rt.verifyRequestRow_ok).mp verified⟩
    simpa using List.find?_some found

theorem insertRequest_ok {draft : Request T} (success : rt.insertRequest draft db = .ok (value, after)) :
    ∃ row, (∃ requestHmac stateHmac, row = draft.withCodes requestHmac stateHmac) ∧ rt.Sealed row ∧
      row.id ∉ db.requests.map Request.id ∧ after = db.appendRequest row := by
  simp only [insertRequest, lift_bind, read_bind, check_bind, write_ok, decide_eq_true_eq] at success
  obtain ⟨requestCode, requestCoded, stateCode, stateCoded, fresh, same⟩ := success
  exact ⟨_, ⟨requestCode, stateCode, rfl⟩, ⟨requestCoded, stateCoded⟩, fresh, (Prod.mk.inj same).2.symm⟩

/-- A verified row that a transition writes and records moves. -/
theorem moved_ok {change : Request T → Request T} {middle : Db T}
    {requestId actorId digest : String} {action : EventAction} {previousState : Option State}
    {state : State} {details : Value F} {now : T}
    (written : rt.writeState row change db = .ok (value, middle))
    (recorded : rt.appendEvent requestId actorId action previousState state details now middle =
      .ok (digest, after)) (member : row ∈ db.requests) (sealed : rt.Sealed row)
    (fixed : ∀ other, (change other).asCreated = other.asCreated)
    (moves : Transition previousState state) (about : requestId = row.id)
    (source : previousState = some row.state) (target : state = (change row).state) :
    ∃ (change : Request T → Request T) (event : Event T), rt.Transit db row change event ∧ (change row).state = state ∧
      after = db.move row change event := by
  obtain ⟨code, coded, rfl⟩ := rt.writeState_ok written
  obtain ⟨event, rfl, bound, eventAbout, eventSource, eventTarget⟩ := rt.appendEvent_ok recorded
  have sameCode : rt.requestHmac (change row) = rt.requestHmac row := by
    rw [← requestHmac_asCreated, fixed, requestHmac_asCreated]
  have kept : (change row).requestHmacSha256 = row.requestHmacSha256 := by
    have codes := congrArg Request.requestHmacSha256 (fixed row)
    exact codes
  have resealed : rt.Sealed { change row with stateHmacSha256 := code } :=
    ⟨(sameCode.trans sealed.1).trans (congrArg Except.ok kept.symm), coded⟩
  refine ⟨fun other => { change other with stateHmacSha256 := code }, event, ?_, target.symm, rfl⟩
  exact {
    member := member
    fixed := fixed
    moves := source ▸ target ▸ moves
    sealed := resealed
    bound := bound
    about := eventAbout.trans about
    source := eventSource.trans source
    target := eventTarget.trans target }

end Steps

section Sweep

variable [LinearOrder T] (rt : Platform F T) {db after : Db T} {now : T}

inductive Expiry (now : T) (db : Db T) : Db T → Prop where
  | expired (row : Request T) (change : Request T → Request T) (event : Event T)
      (due : overdue now row = true) (transit : rt.Transit db row change event)
      (target : (change row).state = .expired) : Expiry now db (db.move row change event)

structure Swept (now : T) (db after : Db T) : Prop where
  path : Relation.ReflTransGen (rt.Expiry now) db after
  done : ∀ row ∈ after.requests, overdue now row = false

theorem expireRow_ok {row : Request T} {value : Unit} (member : row ∈ db.requests)
    (due : overdue now row = true) (success : rt.expireRow now row db = .ok (value, after)) :
    ∃ (change : Request T → Request T) (event : Event T),
      rt.Transit db row change event ∧ (change row).state = .expired ∧
      after = db.move row change event := by
  obtain ⟨_, verified, rest⟩ := lift_bind.mp success
  obtain ⟨_, middle, written, rest⟩ := bind_ok.mp rest
  obtain ⟨digest, last, recorded, same⟩ := bind_ok.mp rest
  cases pure_ok.mp same
  have moves : Transition (some row.state) .expired := by
    simp only [overdue, Bool.and_eq_true, Bool.or_eq_true, decide_eq_true_eq] at due
    rcases due.1 with pending | approved
    · rw [pending]
      exact .expirePending
    · rw [approved]
      exact .expireApproved
  exact rt.moved_ok written recorded member ((rt.verifyRequestRow_ok).mp verified) (fun _ => rfl) moves rfl rfl rfl

end Sweep

end Platform

theorem move_ids {db : Db T} {row : Request T} {change : Request T → Request T} {event : Event T}
    (fixed : ∀ other, (change other).asCreated = other.asCreated) :
    (db.move row change event).requests.map Request.id = db.requests.map Request.id := by
  have kept (other : Request T) : (change other).id = other.id := same_id (fixed other)
  change (update _ _ change db.requests).map Request.id = _
  rw [update, map_map]
  refine map_congr_left fun other _ => ?_
  simp only [Function.comp]
  split
  · exact kept other
  · rfl

theorem move_cases {db : Db T} {row : Request T} {change : Request T → Request T} {event : Event T}
    (distinct : (db.requests.map Request.id).Nodup) (member : row ∈ db.requests)
    {other : Request T} (present : other ∈ (db.move row change event).requests) :
    other = change row ∨ (other ∈ db.requests ∧ other.id ≠ row.id) := by
  rcases Table.mem_update.mp present with ⟨old, oldMember, same, rfl⟩ | ⟨kept, apart⟩
  · have sameId : old.id = row.id := congrArg Prod.fst same
    exact .inl (congrArg change (Table.same_row distinct oldMember member sameId))
  · refine .inr ⟨kept, fun same => apart ?_⟩
    rw [Table.same_row distinct kept member same]

namespace Platform

section Sweep

variable [LinearOrder T] (rt : Platform F T) {db after : Db T} {now : T}

theorem expireRows_ok {rows : List (Request T)} {values : List Unit}
    (distinct : (db.requests.map Request.id).Nodup) (once : (rows.map Request.id).Nodup)
    (stored : ∀ row ∈ rows, row ∈ db.requests ∧ overdue now row = true)
    (success : Transaction.each (rt.expireRow now) rows db = .ok (values, after)) :
    Relation.ReflTransGen (rt.Expiry now) db after ∧
      ∀ row ∈ after.requests, row.state = .expired ∨ (row ∈ db.requests ∧ row ∉ rows) := by
  induction rows generalizing db values with
  | nil =>
    cases pure_ok.mp success
    exact ⟨.refl, fun row member => .inr ⟨member, not_mem_nil⟩⟩
  | cons first rest ih =>
    obtain ⟨absent, once⟩ := nodup_cons.mp once
    obtain ⟨_, middle, expired, others⟩ := bind_ok.mp success
    obtain ⟨values, last, swept, same⟩ := bind_ok.mp others
    cases pure_ok.mp same
    obtain ⟨member, due⟩ := stored first mem_cons_self
    obtain ⟨change, event, transit, target, rfl⟩ := rt.expireRow_ok member due expired
    have step : rt.Expiry now db (db.move first change event) := .expired first change event due transit target
    have ids : (db.move first change event).requests.map Request.id = db.requests.map Request.id :=
      move_ids transit.fixed
    have apart : ∀ row ∈ rest, row.id ≠ first.id := fun row later sameId =>
      absent (sameId ▸ mem_map_of_mem later)
    obtain ⟨path, ends⟩ := ih (ids ▸ distinct) once (fun row later => by
      obtain ⟨present, overdue⟩ := stored row (mem_cons_of_mem _ later)
      refine ⟨Table.mem_kept present fun sameKey => ?_, overdue⟩
      exact apart row later (congrArg Prod.fst sameKey)) swept
    refine ⟨.head step path, fun row present => ?_⟩
    rcases ends row present with past | ⟨before, untouched⟩
    · exact .inl past
    · rcases move_cases distinct member before with rfl | ⟨kept, other⟩
      · exact .inl target
      · refine .inr ⟨kept, fun listed => ?_⟩
        rcases mem_cons.mp listed with rfl | later
        · exact other rfl
        · exact untouched later

theorem expire_ok {count : Nat} (distinct : (db.requests.map Request.id).Nodup)
    (success : rt.expire now db = .ok (count, after)) : rt.Swept now db after := by
  simp only [expire, read_bind] at success
  obtain ⟨values, last, swept, same⟩ := bind_ok.mp success
  cases pure_ok.mp same
  have sorted := perm_insertionSort (fun first second : Request T =>
    first.createdAt < second.createdAt ∨ (first.createdAt = second.createdAt ∧ first.id ≤ second.id))
    (db.requests.filter (overdue now))
  have listed {row : Request T} : row ∈ inOrder (db.requests.filter (overdue now)) ↔
      row ∈ db.requests ∧ overdue now row = true :=
    sorted.mem_iff.trans mem_filter
  have once : ((inOrder (db.requests.filter (overdue now))).map Request.id).Nodup :=
    ((sorted.map Request.id).nodup_iff).mpr (distinct.sublist (filter_sublist.map _))
  obtain ⟨path, ends⟩ := rt.expireRows_ok distinct once (fun row member => listed.mp member) swept
  refine ⟨path, fun row present => ?_⟩
  rcases ends row present with past | ⟨before, untouched⟩
  · simp [overdue, past]
  · by_contra due
    exact untouched (listed.mpr ⟨before, by simpa using due⟩)

end Sweep

end Platform

def Platform.named (rt : Platform F T) (requestId : Value F) : String :=
  strip (rt.str (rt.orElse requestId (.str "")))

namespace Platform

section Calls

variable (rt : Platform F T)

def Creates (call : Call F T) (row : Request T) : Prop :=
  ∃ principal path body capability summary ttl token actor seconds,
    call.operation = .create principal path body capability row.risk.text summary ttl token ∧
    Policies.actor rt.toRuntime principal = .ok actor ∧ row.requesterId = actor.id ∧
    row.targetPath = before '?' path ∧ row.requiredCapability = capability ∧
    rt.bodyHmac body = .ok row.bodyHmacSha256 ∧ rt.lifetime ttl = .ok seconds ∧
    row.expiresAt = rt.later call.now seconds

def Approves (call : Call F T) (row : Request T) : Prop :=
  ∃ requestId principal actor, call.operation = .approve requestId principal ∧
    rt.named requestId = row.id ∧ Policies.actor rt.toRuntime principal = .ok actor ∧
    actor.id ≠ row.requesterId

def Consumes (call : Call F T) (row : Request T) : Prop :=
  ∃ requestId principal body actor,
    call.operation = .consume requestId principal row.targetPath body row.requiredCapability row.risk.text ∧
    rt.named requestId = row.id ∧ Policies.actor rt.toRuntime principal = .ok actor ∧
    actor.id = row.requesterId ∧ rt.bodyHmac body = .ok row.bodyHmacSha256

theorem policyFor_path {path : String} {body : Value F} {policy : Policy}
    (governed : Policies.policyFor rt.toRuntime path body = .ok (some policy)) :
    policy.path = before '?' path := by
  unfold Policies.policyFor at governed
  simp only at governed
  split at governed
  · cases governed
  · split at governed
    · cases governed
    · split at governed
      · cases governed
        rfl
      · cases governed

end Calls

end Platform

def Operation.reads : Operation F → Bool
  | .get _ => true
  | .list _ => true
  | .status => true
  | _ => false

namespace Platform

/-- What a call that returns does to the swept tables. -/
inductive Effect (rt : Platform F T) (call : Call F T) (db : Db T) : Option String → Db T → Prop where
  | read (result : Option String) (quiet : call.operation.reads = true) : Effect rt call db result db
  | opened (row : Request T) (event : Event T) (asked : rt.Creates call row)
      (new : rt.Opened db row event) : Effect rt call db (some row.id) (db.open row event)
  | approved (row : Request T) (change : Request T → Request T) (event : Event T)
      (asked : rt.Approves call row) (transit : rt.Transit db row change event)
      (target : (change row).state = .approved) :
      Effect rt call db (some row.id) (db.move row change event)
  | rejected (row : Request T) (change : Request T → Request T) (event : Event T)
      (asked : ∃ requestId principal reason, call.operation = .reject requestId principal reason)
      (transit : rt.Transit db row change event) (target : (change row).state = .rejected) :
      Effect rt call db (some row.id) (db.move row change event)
  | cancelled (row : Request T) (change : Request T → Request T) (event : Event T)
      (asked : ∃ requestId principal, call.operation = .cancel requestId principal)
      (transit : rt.Transit db row change event) (target : (change row).state = .cancelled) :
      Effect rt call db (some row.id) (db.move row change event)
  | consumed (row : Request T) (change : Request T → Request T) (event : Event T)
      (asked : rt.Consumes call row) (transit : rt.Transit db row change event)
      (target : (change row).state = .consumed) :
      Effect rt call db (some row.id) (db.move row change event)

theorem Effect.step {rt : Platform F T} {call : Call F T} {db after : Db T} {result : Option String}
    (effect : rt.Effect call db result after) : after = db ∨ rt.Step db after := by
  cases effect with
  | read => exact .inl rfl
  | opened row event _ new => exact .inr (.opened row event new)
  | approved row change event _ transit => exact .inr (.moved row change event transit)
  | rejected row change event _ transit => exact .inr (.moved row change event transit)
  | cancelled row change event _ transit => exact .inr (.moved row change event transit)
  | consumed row change event _ transit => exact .inr (.moved row change event transit)

section Operations

variable [LinearOrder T] (rt : Platform F T) {db after : Db T} {now : T}
  (distinct : (db.requests.map Request.id).Nodup)

include distinct

theorem create_ok {principal body summary ttl : Value F} {path capability risk token id : String}
    (success : rt.create principal path body capability risk summary ttl now token db = .ok (id, after)) :
    ∃ swept, rt.Swept now db swept ∧ rt.Effect
      ⟨.create principal path body capability risk summary ttl token, now⟩ swept (some id) after := by
  obtain ⟨actor, who, success⟩ := lift_bind.mp success
  obtain ⟨policy, governed, success⟩ := lift_bind.mp success
  cases policy with
  | none => exact (raise_ok.mp success).elim
  | some policy =>
    obtain ⟨sameRisk, success⟩ := guard_ok.mp success
    simp only [openRequest, guard_ok, lift_bind] at success
    obtain ⟨-, seconds, lifetime, digest, coded, ⟨clean, encoded⟩, -, review, -, rest⟩ := success
    obtain ⟨count, swept, expired, rest⟩ := bind_ok.mp rest
    obtain ⟨_, middle, inserted, rest⟩ := bind_ok.mp rest
    obtain ⟨_, last, recorded, same⟩ := bind_ok.mp rest
    cases pure_ok.mp same
    obtain ⟨row, ⟨requestHmac, stateHmac, made⟩, sealed, fresh, rfl⟩ := rt.insertRequest_ok inserted
    obtain ⟨event, rfl, bound, about, source, target⟩ := rt.appendEvent_ok recorded
    have asked : rt.Creates ⟨.create principal path body capability risk summary ttl token, now⟩ row := by
      rw [made]
      exact ⟨principal, path, body, capability, summary, ttl, token, actor, seconds,
        by rw [← not_not.mp sameRisk]; rfl, who, rfl, rt.policyFor_path governed, rfl, coded,
        lifetime, rfl⟩
    have sameId : rt.stamp now ++ token = row.id := by
      rw [made]
      rfl
    refine ⟨swept, rt.expire_ok distinct expired, ?_⟩
    rw [sameId] at about ⊢
    exact .opened row event asked ⟨fresh, by rw [made]; rfl, sealed, bound, about, source, target⟩

variable {id : String}

theorem approve_ok {requestId principal : Value F} (success : rt.approve requestId principal now db = .ok (id, after)) :
    ∃ swept, rt.Swept now db swept ∧ rt.Effect ⟨.approve requestId principal, now⟩ swept (some id) after := by
  obtain ⟨actor, who, success⟩ := lift_bind.mp success
  obtain ⟨count, swept, expired, success⟩ := bind_ok.mp success
  obtain ⟨row, _, got, rest⟩ := bind_ok.mp success
  obtain ⟨rfl, member, names, sealed⟩ := rt.getRow_ok got
  obtain ⟨pending, rest⟩ := guard_ok.mp rest
  obtain ⟨other, rest⟩ := guard_ok.mp rest
  obtain ⟨_, middle, written, rest⟩ := bind_ok.mp rest
  obtain ⟨digest, last, recorded, same⟩ := bind_ok.mp rest
  cases pure_ok.mp same
  obtain ⟨change, event, transit, target, rfl⟩ := rt.moved_ok written recorded member sealed
    (fun _ => rfl) .approve rfl (congrArg some (not_not.mp pending).symm) rfl
  refine ⟨_, rt.expire_ok distinct expired, ?_⟩
  exact .approved row change event ⟨requestId, principal, actor, rfl, names.symm, who, Ne.symm other⟩ transit target

theorem reject_ok {requestId principal reason : Value F}
    (success : rt.reject requestId principal reason now db = .ok (id, after)) :
    ∃ swept, rt.Swept now db swept ∧ rt.Effect ⟨.reject requestId principal reason, now⟩ swept (some id) after := by
  obtain ⟨actor, -, success⟩ := lift_bind.mp success
  obtain ⟨count, swept, expired, success⟩ := bind_ok.mp success
  obtain ⟨row, _, got, rest⟩ := bind_ok.mp success
  obtain ⟨rfl, member, -, sealed⟩ := rt.getRow_ok got
  obtain ⟨pending, rest⟩ := guard_ok.mp rest
  obtain ⟨-, rest⟩ := guard_ok.mp rest
  obtain ⟨_, middle, written, rest⟩ := bind_ok.mp rest
  obtain ⟨digest, last, recorded, same⟩ := bind_ok.mp rest
  cases pure_ok.mp same
  obtain ⟨change, event, transit, target, rfl⟩ := rt.moved_ok written recorded member sealed
    (fun _ => rfl) .reject rfl (congrArg some (not_not.mp pending).symm) rfl
  refine ⟨_, rt.expire_ok distinct expired, ?_⟩
  exact .rejected row change event ⟨requestId, principal, reason, rfl⟩ transit target

theorem cancel_ok {requestId principal : Value F} (success : rt.cancel requestId principal now db = .ok (id, after)) :
    ∃ swept, rt.Swept now db swept ∧ rt.Effect ⟨.cancel requestId principal, now⟩ swept (some id) after := by
  obtain ⟨actor, -, success⟩ := lift_bind.mp success
  obtain ⟨count, swept, expired, success⟩ := bind_ok.mp success
  obtain ⟨row, _, got, rest⟩ := bind_ok.mp success
  obtain ⟨rfl, member, -, sealed⟩ := rt.getRow_ok got
  obtain ⟨-, rest⟩ := guard_ok.mp rest
  obtain ⟨live, rest⟩ := guard_ok.mp rest
  obtain ⟨_, middle, written, rest⟩ := bind_ok.mp rest
  obtain ⟨digest, last, recorded, same⟩ := bind_ok.mp rest
  cases pure_ok.mp same
  have moves : Transition (some row.state) .cancelled := by
    by_cases pending : row.state = .pending
    · exact pending ▸ .cancelPending
    · have approved : row.state = .approved := by
        by_contra other
        exact live ⟨pending, other⟩
      exact approved ▸ .cancelApproved
  obtain ⟨change, event, transit, target, rfl⟩ := rt.moved_ok written recorded member sealed
    (fun _ => rfl) moves rfl rfl rfl
  refine ⟨_, rt.expire_ok distinct expired, ?_⟩
  exact .cancelled row change event ⟨requestId, principal, rfl⟩ transit target

theorem consume_ok {requestId principal body : Value F} {path capability risk id : String}
    (success : rt.consume requestId principal path body capability risk now db = .ok (id, after)) :
    ∃ swept, rt.Swept now db swept ∧ rt.Effect
      ⟨.consume requestId principal path body capability risk, now⟩ swept (some id) after := by
  obtain ⟨actor, who, success⟩ := lift_bind.mp success
  obtain ⟨digest, coded, success⟩ := lift_bind.mp success
  obtain ⟨count, swept, expired, success⟩ := bind_ok.mp success
  obtain ⟨row, _, got, rest⟩ := bind_ok.mp success
  obtain ⟨rfl, member, names, sealed⟩ := rt.getRow_ok got
  obtain ⟨approved, rest⟩ := guard_ok.mp rest
  obtain ⟨own, rest⟩ := guard_ok.mp rest
  obtain ⟨matching, rest⟩ := guard_ok.mp rest
  rw [read_bind] at rest
  obtain ⟨_, middle, written, rest⟩ := bind_ok.mp rest
  obtain ⟨-, rest⟩ := guard_ok.mp rest
  obtain ⟨hmac, last, recorded, same⟩ := bind_ok.mp rest
  cases pure_ok.mp same
  obtain ⟨change, event, transit, target, rfl⟩ := rt.moved_ok written recorded member sealed
    (fun _ => rfl) .consume rfl (congrArg some (not_not.mp approved).symm) rfl
  rw [not_not, drift, map_eq_nil_iff, filter_eq_nil_iff] at matching
  obtain ⟨rfl, rfl, rfl, rfl⟩ : row.targetPath = path ∧ row.bodyHmacSha256 = digest ∧
      row.requiredCapability = capability ∧ row.risk.text = risk := by simpa using matching
  refine ⟨_, rt.expire_ok distinct expired, ?_⟩
  exact .consumed row change event ⟨requestId, principal, body, actor, rfl, names.symm, who,
    (not_not.mp own).symm, coded⟩ transit target

/-- A call that returns sweeps and then does what its operation does. -/
theorem perform_ok {call : Call F T} {result : Option String} (success : rt.perform call db = .ok (result, after)) :
    ∃ swept, rt.Swept call.now db swept ∧ rt.Effect call swept result after := by
  obtain ⟨operation, now⟩ := call
  cases operation with
  | create principal path body capability risk summary ttl token =>
    obtain ⟨id, middle, done, same⟩ := bind_ok.mp success
    cases pure_ok.mp same
    exact rt.create_ok distinct done
  | approve requestId principal =>
    obtain ⟨id, middle, done, same⟩ := bind_ok.mp success
    cases pure_ok.mp same
    exact rt.approve_ok distinct done
  | reject requestId principal reason =>
    obtain ⟨id, middle, done, same⟩ := bind_ok.mp success
    cases pure_ok.mp same
    exact rt.reject_ok distinct done
  | cancel requestId principal =>
    obtain ⟨id, middle, done, same⟩ := bind_ok.mp success
    cases pure_ok.mp same
    exact rt.cancel_ok distinct done
  | consume requestId principal path body capability risk =>
    obtain ⟨id, middle, done, same⟩ := bind_ok.mp success
    cases pure_ok.mp same
    exact rt.consume_ok distinct done
  | get requestId =>
    obtain ⟨row, middle, done, same⟩ := bind_ok.mp success
    cases pure_ok.mp same
    obtain ⟨count, swept, expired, got⟩ := bind_ok.mp done
    obtain ⟨rfl, -⟩ := rt.getRow_ok got
    exact ⟨_, rt.expire_ok distinct expired, .read _ rfl⟩
  | list limit =>
    obtain ⟨rows, middle, done, same⟩ := bind_ok.mp success
    cases pure_ok.mp same
    obtain ⟨limit, -, done⟩ := lift_bind.mp done
    obtain ⟨count, swept, expired, read⟩ := bind_ok.mp done
    cases read_ok.mp read
    exact ⟨_, rt.expire_ok distinct expired, .read _ rfl⟩
  | status =>
    obtain ⟨counts, middle, done, same⟩ := bind_ok.mp success
    cases pure_ok.mp same
    obtain ⟨count, swept, expired, read⟩ := bind_ok.mp done
    cases read_ok.mp read
    exact ⟨_, rt.expire_ok distinct expired, .read _ rfl⟩

end Operations

end Platform

end Dash.Approvals
