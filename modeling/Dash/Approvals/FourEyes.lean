import Dash.Approvals.Progress

/-! Nothing is executed that one person decided alone.

What a consumed request says about the past is kept along the run: each row was asked
for by an earlier call, and an approved one was approved by another person's later call.
-/

set_option autoImplicit false

namespace Dash.Approvals

open Dash.Python Dash.Foundation List

variable {F T : Type}

def Request.Aged (row later : Request T) : Prop :=
  later.asCreated = row.asCreated ∧ (later.state = row.state ∨ later.state = .expired)

theorem Transition.before_consumed {state : State} (moves : Transition (some state) .consumed) : state = .approved := by
  cases moves
  rfl

namespace Platform

section Past

variable [LinearOrder T] (rt : Platform F T)

def Succeeds (calls : List (Call F T)) (call : Call F T) (id : String) : Prop :=
  ∃ after, rt.perform call (rt.run calls) = .ok (some id, after)

def Created (calls : List (Call F T)) (row : Request T) : Prop :=
  ∃ first create rest, calls = first ++ create :: rest ∧ rt.Succeeds first create row.id ∧ rt.Creates create row

def Reviewed (calls : List (Call F T)) (row : Request T) : Prop :=
  ∃ first create between approve rest, calls = first ++ create :: (between ++ approve :: rest) ∧
    rt.Succeeds first create row.id ∧ rt.Creates create row ∧
    rt.Succeeds (first ++ create :: between) approve row.id ∧ rt.Approves approve row

structure Remembered (calls : List (Call F T)) (row : Request T) : Prop where
  created : rt.Created calls row
  reviewed : row.state = .approved ∨ row.state = .consumed → rt.Reviewed calls row

end Past

section Records

variable (rt : Platform F T) {call : Call F T} {row later : Request T}

theorem creates_same (same : later.asCreated = row.asCreated) (asked : rt.Creates call row) :
    rt.Creates call later := by
  have created : rt.Creates call row.asCreated := asked
  rw [← same] at created
  exact created

theorem approves_same (same : later.asCreated = row.asCreated) (asked : rt.Approves call row) :
    rt.Approves call later := by
  have created : rt.Approves call row.asCreated := asked
  rw [← same] at created
  exact created

end Records

section Runs

variable [LinearOrder T] (rt : Platform F T) {calls : List (Call F T)} {call : Call F T}
  {row later : Request T} {db after : Db T}

theorem created_same (same : later.asCreated = row.asCreated) (created : rt.Created calls row) :
    rt.Created calls later := by
  obtain ⟨first, create, rest, split, succeeded, asked⟩ := created
  exact ⟨first, create, rest, split, same_id same ▸ succeeded, rt.creates_same same asked⟩

theorem reviewed_same (same : later.asCreated = row.asCreated) (reviewed : rt.Reviewed calls row) :
    rt.Reviewed calls later := by
  obtain ⟨first, create, between, approve, rest, split, opened, asked, succeeded, approves⟩ := reviewed
  exact ⟨first, create, between, approve, rest, split, same_id same ▸ opened,
    rt.creates_same same asked, same_id same ▸ succeeded, rt.approves_same same approves⟩

theorem created_snoc (created : rt.Created calls row) : rt.Created (calls ++ [call]) row := by
  obtain ⟨first, create, rest, split, succeeded, asked⟩ := created
  exact ⟨first, create, rest ++ [call], by simp [split], succeeded, asked⟩

theorem reviewed_snoc (reviewed : rt.Reviewed calls row) : rt.Reviewed (calls ++ [call]) row := by
  obtain ⟨first, create, between, approve, rest, split, found⟩ := reviewed
  exact ⟨first, create, between, approve, rest ++ [call], by simp [split], found⟩

theorem remembered_aged (remembered : rt.Remembered calls row) (aged : row.Aged later) :
    rt.Remembered calls later := by
  refine ⟨rt.created_same aged.1 remembered.created, fun live => ?_⟩
  rcases aged.2 with same | expired
  · exact rt.reviewed_same aged.1 (remembered.reviewed (same ▸ live))
  · rw [expired] at live
    simp at live

theorem remembered_snoc (remembered : rt.Remembered calls row) : rt.Remembered (calls ++ [call]) row :=
  ⟨rt.created_snoc remembered.created, fun live => rt.reviewed_snoc (remembered.reviewed live)⟩

theorem swept_aged {now : T} (kept : rt.Coherent db) (swept : rt.Swept now db after) :
    ∀ later ∈ after.requests, ∃ row ∈ db.requests, row.Aged later := by
  obtain ⟨path, -⟩ := swept
  induction path with
  | refl => exact fun row member => ⟨row, member, rfl, .inl rfl⟩
  | tail before step ih =>
    obtain ⟨due, change, event, overdue, transit, target⟩ := step
    have coherent := rt.steps_coherent kept (Relation.ReflTransGen.mono (fun _ _ expiry => by
      obtain ⟨row, change, event, -, transit, -⟩ := expiry
      exact .moved row change event transit) db _ before)
    intro later member
    rcases move_cases coherent.distinct transit.member member with rfl | ⟨untouched, -⟩
    · obtain ⟨row, present, same, -⟩ := ih due transit.member
      exact ⟨row, present, (transit.fixed due).trans same, .inr target⟩
    · exact ih later untouched

theorem run_snoc : rt.run (calls ++ [call]) = rt.apply (rt.run calls) call := by
  simp [run]

theorem effect_remembered {result : Option String} (success : rt.perform call (rt.run calls) = .ok (result, after))
    (kept : rt.Coherent db) (remembered : ∀ row ∈ db.requests, rt.Remembered calls row)
    (effect : rt.Effect call db result after) :
    ∀ row ∈ after.requests, rt.Remembered (calls ++ [call]) row := by
  -- a row that another state was given keeps its creation; only an approval has to be shown
  have moved {row : Request T} {change : Request T → Request T} {event : Event T}
      (transit : rt.Transit db row change event)
      (reviewed : (change row).state = .approved ∨ (change row).state = .consumed → rt.Reviewed (calls ++ [call]) row) :
      ∀ other ∈ (db.move row change event).requests, rt.Remembered (calls ++ [call]) other := by
    intro other member
    rcases move_cases kept.distinct transit.member member with rfl | ⟨before, -⟩
    · have created := (remembered row transit.member).created
      exact ⟨rt.created_same (transit.fixed row) (rt.created_snoc created), fun live =>
        rt.reviewed_same (transit.fixed row) (reviewed live)⟩
    · exact rt.remembered_snoc (remembered other before)
  cases effect with
  | read => exact fun row member => rt.remembered_snoc (remembered row member)
  | opened row event asked new =>
    intro other member
    rcases mem_append.mp member with before | last
    · exact rt.remembered_snoc (remembered other before)
    · rw [mem_singleton.mp last]
      refine ⟨⟨calls, call, [], rfl, ⟨_, success⟩, asked⟩, fun live => ?_⟩
      rw [new.pending] at live
      simp at live
  | approved row change event asked transit target =>
    apply moved transit
    intro _
    obtain ⟨first, create, rest, rfl, opened, creates⟩ := (remembered row transit.member).created
    exact ⟨first, create, rest, call, [], by simp, opened, creates, ⟨_, success⟩, asked⟩
  | rejected row change event asked transit target =>
    apply moved transit
    intro live
    rw [target] at live
    simp at live
  | cancelled row change event asked transit target =>
    apply moved transit
    intro live
    rw [target] at live
    simp at live
  | consumed row change event asked transit target =>
    apply moved transit
    intro _
    have source : row.state = .approved := (target ▸ transit.moves).before_consumed
    exact rt.reviewed_snoc ((remembered row transit.member).reviewed (.inl source))

theorem run_remembered (calls : List (Call F T)) : ∀ row ∈ (rt.run calls).requests, rt.Remembered calls row := by
  induction calls using List.reverseRecOn with
  | nil => exact fun row member => nomatch member
  | append_singleton calls call ih =>
    rw [run_snoc]
    have kept := rt.run_coherent calls
    unfold apply
    cases outcome : rt.perform call (rt.run calls) with
    | error why =>
      rw [Transaction.commit_error outcome]
      exact fun row member => rt.remembered_snoc (ih row member)
    | ok success =>
      obtain ⟨result, after⟩ := success
      rw [Transaction.commit_ok outcome]
      obtain ⟨swept, sweep, effect⟩ := rt.perform_ok kept.distinct outcome
      apply rt.effect_remembered outcome (rt.steps_coherent kept (rt.swept_steps sweep)) _ effect
      intro row member
      obtain ⟨older, present, aged⟩ := rt.swept_aged kept sweep row member
      exact rt.remembered_aged (ih older present) aged

omit [LinearOrder T] in
theorem steps_events (steps : Relation.ReflTransGen rt.Step db after) : ∀ event ∈ db.events, event ∈ after.events :=
  fun _ member => (rt.steps_stand steps).events.subset member

theorem calls_events (kept : rt.Coherent db) (calls : List (Call F T)) :
    ∀ event ∈ db.events, event ∈ (calls.foldl rt.apply db).events :=
  fun _ member => (rt.calls_stand kept calls).events.subset member

omit [LinearOrder T] in
/-- Nothing ended the life of a request in a state that is not terminal. -/
theorem live_history (kept : rt.Coherent db) (member : row ∈ db.requests) (live : row.state.terminal = false) :
    ∀ event ∈ db.events, event.requestId = row.id → event.state.terminal = false := by
  intro event present about
  have told := kept.told row member
  have listed : event ∈ db.history row.id := mem_filter.mpr ⟨present, decide_eq_true about⟩
  obtain ⟨before, after, split⟩ := append_of_mem listed
  by_contra ended
  have last := Sound.terminal_last (split ▸ told.path) (Bool.eq_true_of_not_eq_false ended)
  have current := told.current
  rw [split, last, foldl_append] at current
  rw [← Option.some.inj current] at live
  exact ended live

omit [LinearOrder T] in
/-- An execution that returns has consumed an approved request. -/
theorem consume_effect {result : Option String} (operation : ∃ requestId principal path body capability risk,
      call.operation = .consume requestId principal path body capability risk)
    (effect : rt.Effect call db result after) :
    ∃ (row : Request T) (change : Request T → Request T) (event : Event T), result = some row.id ∧
      row.state = .approved ∧ rt.Consumes call row ∧ rt.Transit db row change event ∧
      event.state = .consumed ∧ after = db.move row change event := by
  obtain ⟨requestId, principal, path, body, capability, risk, operation⟩ := operation
  cases effect with
  | read _ quiet =>
    rw [operation] at quiet
    cases quiet
  | opened row event asked new =>
    obtain ⟨_, _, _, _, _, _, _, _, _, other, -⟩ := asked
    cases operation.symm.trans other
  | approved row change event asked =>
    obtain ⟨_, _, _, other, -⟩ := asked
    cases operation.symm.trans other
  | rejected row change event asked =>
    obtain ⟨_, _, _, other⟩ := asked
    cases operation.symm.trans other
  | cancelled row change event asked =>
    obtain ⟨_, _, other⟩ := asked
    cases operation.symm.trans other
  | consumed row change event asked transit target =>
    have approved : row.state = .approved := (target ▸ transit.moves).before_consumed
    exact ⟨row, change, event, rfl, approved, asked, transit, transit.target.trans target, rfl⟩

/-- A successful execution was asked for by the executing person and approved by another one
before it expired, for the same target. The request was not rejected, cancelled or expired,
and no call executed it before. -/
theorem consumed_after_four_eyes {requestId principal body : Value F} {path capability risk id : String} {now : T}
    (success : rt.perform ⟨.consume requestId principal path body capability risk, now⟩
      (rt.run calls) = .ok (some id, after)) :
    (∃ row : Request T, row.id = id ∧ rt.Reviewed calls row ∧
      rt.Consumes ⟨.consume requestId principal path body capability risk, now⟩ row ∧
      now < row.expiresAt) ∧
    (∀ event ∈ after.events, event.requestId = id →
      event.state ≠ .rejected ∧ event.state ≠ .cancelled ∧ event.state ≠ .expired) ∧
    ∀ first earlier rest, calls = first ++ earlier :: rest → (∃ requestId principal path body capability risk,
        earlier.operation = .consume requestId principal path body capability risk) →
      ¬ rt.Succeeds first earlier id := by
  have kept := rt.run_coherent calls
  obtain ⟨swept, sweep, effect⟩ := rt.perform_ok kept.distinct success
  have steps := rt.swept_steps sweep
  have coherent := rt.steps_coherent kept steps
  obtain ⟨row, change, event, same, approved, asked, transit, target, rfl⟩ :=
    rt.consume_effect ⟨_, _, _, _, _, _, rfl⟩ effect
  cases same
  have active : row.state.terminal = false := by
    rw [approved]
    rfl
  have live := rt.live_history coherent transit.member active
  refine ⟨⟨row, rfl, ?_, asked, ?_⟩, ?_, ?_⟩
  · obtain ⟨older, present, aged⟩ := rt.swept_aged kept sweep row transit.member
    have remembered := rt.remembered_aged (rt.run_remembered calls older present) aged
    exact remembered.reviewed (.inl approved)
  · have fresh := sweep.done row transit.member
    simpa [overdue, approved] using fresh
  · intro other member about
    rcases mem_append.mp member with before | last
    · have going := live other before about
      refine ⟨?_, ?_, ?_⟩ <;> intro state <;> rw [state] at going <;> cases going
    · rw [mem_singleton.mp last, target]
      simp
  · -- the event of an earlier execution would still be there, and be terminal
    rintro first earlier rest rfl operation ⟨middle, done⟩
    have before := rt.run_coherent first
    obtain ⟨_, earlierSweep, earlierEffect⟩ := rt.perform_ok before.distinct done
    obtain ⟨other, _, ended, same, -, -, earlierTransit, terminal, rfl⟩ :=
      rt.consume_effect operation earlierEffect
    have about : ended.requestId = row.id := earlierTransit.about.trans (Option.some.inj same).symm
    have written : rt.run (first ++ [earlier]) = _ :=
      rt.run_snoc.trans (Transaction.commit_ok done)
    have present : ended ∈ (rt.run (first ++ [earlier])).events := by
      rw [written]
      exact mem_append_right _ mem_cons_self
    have later : ended ∈ (rt.run (first ++ earlier :: rest)).events := by
      have grown := rt.calls_events (rt.run_coherent (first ++ [earlier])) rest ended present
      simpa [run] using grown
    have going := live ended (rt.steps_events steps ended later) about
    rw [terminal] at going
    cases going

end Runs

end Platform

def requested : List (Call FloatText Int) := [
  ⟨.create (person "requester") (envPath ++ "?x") envBody "settings.write" "critical" .none .none requestToken, 0⟩,
  ⟨.approve requestId (person "approver"), 10⟩]

def execution : Call FloatText Int :=
  ⟨.consume requestId (person "requester") envPath envBody "settings.write" "critical", 20⟩

def executedId : String := "approval-20260717T000000Z-" ++ requestToken

deriving instance DecidableEq for Actor

def Request.columns (row : Request Int) : List String × Int × Risk × State :=
  ([row.id, row.requesterId, row.targetPath, row.requiredCapability, row.bodyHmacSha256],
    row.expiresAt, row.risk, row.state)

def envDigest : String := "mbody\x00\x7b\"key\":\"value\"\x7d"

theorem asked : (plain.run (requested.take 1)).requests.map Request.columns =
    [([executedId, "requester", envPath, "settings.write", envDigest], 900, .critical, .pending)] := by
  decide +kernel

theorem requestId_valid : isRequestId executedId = true := by decide

theorem reviewed : ∃ row : Request Int, (plain.run requested).requests = [row] ∧
    row.columns = ([executedId, "requester", envPath, "settings.write", envDigest], 900, .critical, .approved) := by
  obtain ⟨row, rest, rows, columns, none⟩ := map_eq_cons_iff.mp asked
  rw [map_eq_nil_iff.mp none] at rows
  simp only [Request.columns, Prod.mk.injEq, List.cons.injEq, and_true] at columns
  obtain ⟨⟨sameId, requester, path, capability, digest⟩, expires, risk, pending⟩ := columns
  have member : row ∈ (plain.run (requested.take 1)).requests := by
    rw [rows]
    exact mem_singleton_self row
  have kept := plain.run_coherent (requested.take 1)
  have quiet : ∀ other ∈ (plain.run (requested.take 1)).requests, Platform.overdue 10 other = false := by
    rw [rows, forall_mem_singleton]
    simp [Platform.overdue, expires]
  have who : Policies.actor plain.toRuntime (person "approver") = .ok ⟨"approver", "approver"⟩ := by
    decide
  have found := Table.find_mem kept.distinct member
  have names : plain.named requestId = row.id := by
    rw [sameId]
    decide
  have other : row.requesterId ≠ "approver" := by
    rw [requester]
    decide
  obtain ⟨code, event, done⟩ := plain.approve_succeeds quiet found names
    (sameId ▸ requestId_valid) (kept.sealed row member) pending who other
  have next : plain.run requested = (plain.run (requested.take 1)).move row
      (fun row => { row.approve ⟨"approver", "approver"⟩ 10 with stateHmacSha256 := code })
      event := by
    have run_two : plain.run requested =
        plain.apply (plain.run (requested.take 1)) ⟨.approve requestId (person "approver"), 10⟩ := by
      rw [← Platform.run_snoc]
      rfl
    rw [run_two, Platform.apply]
    exact Transaction.commit_ok (plain.perform_approve done)
  refine ⟨{ row.approve ⟨"approver", "approver"⟩ 10 with stateHmacSha256 := code }, ?_, ?_⟩
  · simp [next, Db.move, Db.setRequest, Db.appendEvent, update, rows]
  · simp [Request.columns, Request.approve, sameId, requester, path, capability, digest, expires, risk]

/-- The execution succeeds wherever the request is as it was approved. -/
theorem execution_succeeds {db : Db Int} {row : Request Int} (rows : db.requests = [row]) (sealed : plain.Sealed row)
    (columns : row.columns = ([executedId, "requester", envPath, "settings.write", envDigest], 900,
      .critical, .approved)) :
    ∃ after, plain.perform execution db = .ok (some executedId, after) := by
  simp only [Request.columns, Prod.mk.injEq, List.cons.injEq, and_true] at columns
  obtain ⟨⟨sameId, requester, path, capability, digest⟩, expires, risk, approved⟩ := columns
  have quiet : ∀ other ∈ db.requests, Platform.overdue 20 other = false := by
    rw [rows, forall_mem_singleton]
    simp [Platform.overdue, expires]
  have who : Policies.actor plain.toRuntime (person "requester") = .ok ⟨"requester", "requester"⟩ := by
    decide
  have distinct : (db.requests.map Request.id).Nodup := by simp [rows]
  have member : row ∈ db.requests := by simp [rows]
  have names : plain.named requestId = row.id := by
    rw [sameId]
    decide
  have coded : plain.bodyHmac envBody = .ok row.bodyHmacSha256 := by
    rw [digest]
    decide
  obtain ⟨code, event, done⟩ := plain.consume_succeeds quiet distinct member names
    (sameId ▸ requestId_valid) sealed approved who requester coded
  rw [path, capability, risk, sameId] at done
  exact ⟨_, plain.perform_consume done⟩

theorem executed : plain.Succeeds requested execution executedId := by
  obtain ⟨row, rows, columns⟩ := reviewed
  have kept := plain.run_coherent requested
  exact execution_succeeds rows (kept.sealed row (rows ▸ mem_singleton_self row)) columns

theorem consumed_after_four_eyes_env : ∃ after,
    plain.perform execution (plain.run requested) = .ok (some executedId, after) ∧
      ∃ row, row.id = executedId ∧ plain.Reviewed requested row := by
  obtain ⟨after, success⟩ := executed
  obtain ⟨⟨row, same, reviewed, -⟩, -⟩ := plain.consumed_after_four_eyes success
  exact ⟨after, success, row, same, reviewed⟩

/-- The path of the execution need not be one that any call asked for: a request keeps its
target without the query. -/
theorem target_path_without_query : ¬ ∀ (calls : List (Call FloatText Int)) (requestId principal body : Value FloatText)
      (path capability risk id : String) (now : Int),
      plain.Succeeds calls ⟨.consume requestId principal path body capability risk, now⟩ id →
      ∃ create ∈ calls, ∃ principal body summary ttl token,
        create.operation = .create principal path body capability risk summary ttl token := by
  intro same
  obtain ⟨create, member, _, _, _, _, _, operation⟩ :=
    same requested _ _ _ _ _ _ _ _ executed
  rcases mem_cons.mp member with rfl | member
  · simp only [Operation.create.injEq] at operation
    exact absurd operation.2.1 (by decide)
  · rw [mem_singleton.mp member] at operation
    cases operation

end Dash.Approvals
