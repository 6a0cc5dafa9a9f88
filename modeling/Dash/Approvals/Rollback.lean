import Dash.Approvals.FourEyes

/-! What verification finds of edits that were made without the key.

An edit can leave request rows as the store itself has written them at some time, and events that it
wrote. Verification then passes exactly when the events left are the first ones, whatever versions of
the request rows stand beside them.
-/

set_option autoImplicit false

namespace Dash.Approvals

open Dash.Python Dash.Foundation List

variable {F T : Type}

namespace Platform

section Codes

variable (rt : Platform F T)

/-- What the entries of a dictionary with names were written as. -/
theorem jsonableEntries_mem {fields : List (String × Value F)} {entries : List (Key F × Document)}
    (written : rt.jsonableEntries (fields.map fun field => (Key.str field.1, field.2)) = .ok entries) :
    (∀ entry ∈ entries, ∃ field ∈ fields, entry.1 = .str field.1 ∧ rt.jsonable field.2 = .ok entry.2) ∧
    ∀ field ∈ fields, ∃ item, rt.jsonable field.2 = .ok item ∧ (Key.str field.1, item) ∈ entries := by
  induction fields generalizing entries with
  | nil =>
    cases written
    exact ⟨fun _ member => absurd member not_mem_nil, fun _ member =>
      absurd member not_mem_nil⟩
  | cons field rest ih =>
    rw [map_cons, Runtime.jsonableEntries] at written
    split at written
    · rename_i first others one more
      cases written
      obtain ⟨back, forth⟩ := ih more
      constructor
      · intro entry member
        rcases mem_cons.mp member with rfl | inside
        · exact ⟨field, mem_cons_self, rfl, one⟩
        · obtain ⟨found, listed, named, item⟩ := back entry inside
          exact ⟨found, mem_cons_of_mem _ listed, named, item⟩
      · intro found member
        rcases mem_cons.mp member with rfl | inside
        · exact ⟨first, one, mem_cons_self⟩
        · obtain ⟨item, encoded, listed⟩ := forth found inside
          exact ⟨item, encoded, mem_cons_of_mem _ listed⟩
    · cases written
    · cases written

theorem jsonable_members {fields : List (String × Value F)} {document : Document}
    (written : rt.jsonable (.object fields) = .ok document) :
    ∃ members, document = .object members ∧ (∀ member ∈ members, ∃ field ∈ fields, member.1 = field.1 ∧
        rt.jsonable field.2 = .ok member.2) ∧
      ∀ field ∈ fields, ∃ item, rt.jsonable field.2 = .ok item ∧ (field.1, item) ∈ members := by
  have named : sortable ((fields.map fun field => ((Key.str field.1 : Key F), field.2)).map Prod.fst) = true := by
    simp [sortable, Key.isStr]
  rw [Value.object, Runtime.jsonable, if_pos named] at written
  cases encoded : rt.jsonableEntries (fields.map fun field => (Key.str field.1, field.2)) with
  | error why =>
    rw [encoded] at written
    cases written
  | ok entries =>
    rw [encoded] at written
    cases written
    obtain ⟨back, forth⟩ := jsonableEntries_mem rt encoded
    have sorted : ∀ entry, entry ∈ rt.sortEntries entries ↔ entry ∈ entries :=
      fun entry => (perm_insertionSort _ _).mem_iff
    refine ⟨_, rfl, fun member listed => ?_, fun field listed => ?_⟩
    · obtain ⟨entry, inside, rfl⟩ := mem_map.mp listed
      obtain ⟨field, found, key, item⟩ := back entry ((sorted entry).mp inside)
      exact ⟨field, found, by rw [key]; rfl, item⟩
    · obtain ⟨item, one, inside⟩ := forth field listed
      exact ⟨item, one, mem_map.mpr ⟨_, (sorted _).mpr inside, rfl⟩⟩

/-- The document of an event's payload names the code before it. -/
theorem eventPayload_previous {event : Event T} {previous : String} {payload : Value F}
    {document : Document} (made : rt.eventPayload event previous = .ok payload)
    (written : rt.jsonable payload = .ok document) :
    ∃ members, document = .object members ∧ ∀ item, ("previousHmacSha256", item) ∈ members ↔ item = .str previous := by
  obtain ⟨details, -, same⟩ := result_bind.mp made
  cases same
  obtain ⟨members, object, back, forth⟩ := jsonable_members rt written
  refine ⟨members, object, fun item => ⟨fun listed => ?_, ?_⟩⟩
  · obtain ⟨field, found, name, encoded⟩ := back _ listed
    simp only [mem_cons, not_mem_nil, or_false] at found
    rcases found with rfl | rfl | rfl | rfl | rfl | rfl | rfl | rfl | rfl
    case inr.inr.inr.inr.inr.inr.inr.inr => exact (Except.ok.inj encoded).symm
    all_goals exact absurd (show _ = _ from name) (by simp)
  · rintro rfl
    obtain ⟨item, encoded, listed⟩ := forth ("previousHmacSha256", .str previous) (by simp)
    cases encoded
    exact listed

theorem eventHmac_previous (injective : Function.Injective rt.mac) {first second : Event T}
    {one two code : String} (coded : rt.eventHmac first one = .ok code)
    (again : rt.eventHmac second two = .ok code) : one = two := by
  obtain ⟨payload, made, coded⟩ := result_bind.mp coded
  obtain ⟨text, written, coded⟩ := result_bind.mp coded
  obtain ⟨other, madeAgain, again⟩ := result_bind.mp again
  obtain ⟨otherText, writtenAgain, again⟩ := result_bind.mp again
  have same : rt.tagged "event" text = rt.tagged "event" otherText := by
    rw [Except.ok.inj coded, Except.ok.inj again]
  have texts : text = otherText := by
    have joined := congrArg String.toList (injective same)
    simp only [String.toList_append, append_assoc, append_cancel_left_eq] at joined
    exact String.toList_injective joined
  obtain ⟨document, encoded, shown⟩ := (rt.dumps_ok).mp written
  obtain ⟨otherDocument, encodedAgain, shownAgain⟩ := (rt.dumps_ok).mp writtenAgain
  have documents : document = otherDocument :=
    Runtime.ofList_text_injective _ (shown.symm.trans (texts.trans shownAgain))
  obtain ⟨members, object, found⟩ := rt.eventPayload_previous made encoded
  obtain ⟨others, otherObject, foundAgain⟩ := rt.eventPayload_previous madeAgain encodedAgain
  have equal : members = others := by
    rw [object, otherObject] at documents
    exact Document.object.inj documents
  have named := (foundAgain _).mp (equal ▸ (found (.str one)).mpr rfl)
  exact Document.str.inj named

variable {events : List (Event T)}

/-- The codes of a chain all differ, from each other and from the one before the first. -/
theorem codes_distinct (injective : Function.Injective rt.mac) (unforgeable : ∀ text, rt.mac text ≠ NO_HMAC)
    (chain : Sound (fun _ event => event.eventHmacSha256) rt.Bound NO_HMAC events) :
    (NO_HMAC :: events.map Event.eventHmacSha256).Nodup := by
  induction events using List.reverseRecOn with
  | nil => exact nodup_singleton _
  | append_singleton before last ih =>
    obtain ⟨chained, ⟨-, coded⟩, -⟩ := Sound.append.mp chain
    have distinct := ih chained
    have new : last.eventHmacSha256 ∉ NO_HMAC :: before.map Event.eventHmacSha256 := by
      intro member
      rcases mem_cons.mp member with none | old
      · obtain ⟨payload, -, coded⟩ := result_bind.mp coded
        obtain ⟨text, -, coded⟩ := result_bind.mp coded
        exact unforgeable _ ((Except.ok.inj coded).trans none)
      · obtain ⟨event, listed, same⟩ := mem_map.mp old
        obtain ⟨first, second, place⟩ := append_of_mem listed
        obtain ⟨-, ⟨-, codedThere⟩, -⟩ := Sound.append.mp (place ▸ chained)
        -- Both follow the same code, so they stand at the same place.
        have heads := rt.eventHmac_previous injective coded (same ▸ codedThere)
        obtain ⟨-, empty⟩ := same_place distinct (append_nil before).symm place heads
        cases empty
    rw [map_append, ← cons_append, map_singleton]
    exact nodup_append.mpr ⟨distinct, nodup_singleton _, fun code listed other single =>
      fun same => new (by rw [← mem_singleton.mp single, ← same]; exact listed)⟩

theorem Bound.linked {previous : String}
    (chain : Sound (fun _ event => event.eventHmacSha256) rt.Bound previous events) :
    Linked Event.previousHmacSha256 Event.eventHmacSha256 previous events := by
  induction events generalizing previous with
  | nil => trivial
  | cons event rest ih => exact ⟨chain.1.1, ih chain.2⟩

theorem verifyEvents_sound {requests checked checkedNow requestsNow : Nat} {previous last : String}
    (passed : rt.verifyEvents requests previous checked events = .ok (.ok checkedNow requestsNow last)) :
    Sound (fun _ event => event.eventHmacSha256) rt.Bound previous events := by
  induction events generalizing previous checked with
  | nil => trivial
  | cons event rest ih =>
    obtain ⟨expected, coded, passed⟩ := result_bind.mp passed
    split at passed
    · cases passed
    · rename_i same
      push Not at same
      exact ⟨⟨same.1, same.2 ▸ coded⟩, ih passed⟩

end Codes

section Edits

variable [LinearOrder T] (rt : Platform F T)

def Verifies (db : Db T) : Prop := ∃ checked requests head, rt.verify db = .ok (.ok checked requests head)

/-- What an edit without the key can leave: versions of request rows and events, both written by the
store. -/
structure Rearranged (calls : List (Call F T)) (edited : Db T) : Prop where
  requests : ∀ row ∈ edited.requests, ∃ passed, passed <+: calls ∧ row ∈ (rt.run passed).requests
  events : ∀ event ∈ edited.events, event ∈ (rt.run calls).events

def Current (calls : List (Call F T)) (edited : Db T) : Prop :=
  ∀ row ∈ edited.requests, ((rt.run calls).history row.id).foldl Event.follow none = some row.state

def PutBack (calls : List (Call F T)) (edited : Db T) : Prop :=
  ∃ row ∈ edited.requests, ∃ last ∈ (rt.run calls).requests, last.id = row.id ∧ last.state ≠ row.state

variable {rt} {calls : List (Call F T)} {edited : Db T}

theorem Rearranged.sealed (rearranged : rt.Rearranged calls edited) : ∀ row ∈ edited.requests, rt.Sealed row := by
  intro row member
  obtain ⟨passed, -, written⟩ := rearranged.requests row member
  exact (rt.run_coherent passed).sealed row written

theorem Rearranged.last (rearranged : rt.Rearranged calls edited) {row : Request T}
    (member : row ∈ edited.requests) : ∃ last ∈ (rt.run calls).requests, last.id = row.id := by
  obtain ⟨passed, ⟨rest, rfl⟩, written⟩ := rearranged.requests row member
  have kept := rt.run_coherent passed
  have current := (kept.told row written).current
  have some_ : (rt.run passed).history row.id ≠ [] := by
    intro empty
    rw [empty] at current
    cases current
  obtain ⟨event, listed⟩ := exists_mem_of_ne_nil _ some_
  obtain ⟨present, about⟩ := mem_filter.mp listed
  have later : event ∈ (rt.run (passed ++ rest)).events := by
    have grown := rt.calls_events kept rest event present
    simpa [run] using grown
  have named := (rt.run_coherent (passed ++ rest)).about event later
  rw [of_decide_eq_true about] at named
  obtain ⟨last, inside, same⟩ := mem_map.mp named
  exact ⟨last, inside, same⟩

/-- Verification passes exactly when the events left are the first ones. -/
theorem Rearranged.verifies (injective : Function.Injective rt.mac)
    (unforgeable : ∀ text, rt.mac text ≠ NO_HMAC) (rearranged : rt.Rearranged calls edited) :
    rt.Verifies edited ↔ edited.events <+: (rt.run calls).events := by
  have sealed : ∀ row ∈ inOrder edited.requests, rt.Sealed row := fun row member =>
    rearranged.sealed row ((perm_insertionSort _ _).mem_iff.mp member)
  have chain := (rt.run_coherent calls).chain
  have reads : rt.verify edited = rt.verifyEvents edited.requests.length NO_HMAC 0 edited.events := by
    rw [verify, rt.failedRequest_none sealed]
    rfl
  constructor
  · rintro ⟨checked, requests, head, passed⟩
    rw [reads] at passed
    exact (Bound.linked rt chain).initial (rt.codes_distinct injective unforgeable chain)
      (Bound.linked rt (rt.verifyEvents_sound passed)) rearranged.events
  · rintro ⟨rest, split⟩
    have first := (Sound.append.mp (split ▸ chain)).1
    exact ⟨_, _, _, reads.trans (rt.verifyEvents_ok first)⟩

/-- An edit is found, or leaves every stored state as its last event says, unless it leaves the first
events and puts a request row back to another state. -/
theorem rollback_detected_iff (rt : Platform F T) (injective : Function.Injective rt.mac)
    (unforgeable : ∀ text, rt.mac text ≠ NO_HMAC) (calls : List (Call F T)) (edited : Db T)
    (rearranged : rt.Rearranged calls edited) :
    (rt.Verifies edited → rt.Current calls edited) ↔
      ¬ (edited.events <+: (rt.run calls).events ∧ rt.PutBack calls edited) := by
  have told := (rt.run_coherent calls).told
  constructor
  · rintro detects ⟨first, row, member, last, inside, same, apart⟩
    have current := detects ((rearranged.verifies injective unforgeable).mpr first) row member
    rw [← same, (told last inside).current] at current
    exact apart (Option.some.inj current)
  · intro condition passes row member
    have first := (rearranged.verifies injective unforgeable).mp passes
    obtain ⟨last, inside, same⟩ := rearranged.last member
    rw [← same, (told last inside).current]
    by_contra apart
    exact condition ⟨first, row, member, last, inside, same, fun equal =>
      apart (congrArg some equal)⟩

variable (rt) in
/-- The request rows after the first calls, beside all events. -/
def reopened (calls rest : List (Call F T)) : Db T :=
  ⟨(rt.run calls).requests, (rt.run (calls ++ rest)).events⟩

variable {rest : List (Call F T)}

theorem reopened_requests : (rt.reopened calls rest).requests = (rt.run calls).requests := rfl

theorem reopened_rearranged : rt.Rearranged (calls ++ rest) (rt.reopened calls rest) where
  requests _ member := ⟨calls, prefix_append _ _, member⟩
  events _ member := member

theorem reopened_verifies : rt.Verifies (rt.reopened calls rest) := by
  have sealed : ∀ row ∈ inOrder (rt.reopened calls rest).requests, rt.Sealed row := fun row member =>
    reopened_rearranged.sealed row ((perm_insertionSort _ _).mem_iff.mp member)
  have reads : rt.verify (rt.reopened calls rest) = rt.verifyEvents
      (rt.reopened calls rest).requests.length NO_HMAC 0 (rt.run (calls ++ rest)).events := by
    rw [verify, rt.failedRequest_none sealed]
    rfl
  exact ⟨_, _, _, reads.trans (rt.verifyEvents_ok (rt.run_coherent (calls ++ rest)).chain)⟩

/-- A request that was live before its execution stands live again. -/
theorem reopened_live {call : Call F T} {after : Db T} {row : Request T}
    (operation : ∃ requestId principal path body capability risk,
      call.operation = .consume requestId principal path body capability risk)
    (done : rt.perform call (rt.run calls) = .ok (some row.id, after))
    (member : row ∈ (rt.run calls).requests) (live : row.state.terminal = false) :
    rt.PutBack (calls ++ [call]) (rt.reopened calls [call]) := by
  have kept := rt.run_coherent calls
  have written : rt.run (calls ++ [call]) = after := rt.run_snoc.trans (Transaction.commit_ok done)
  obtain ⟨_, sweep, effect⟩ := rt.perform_ok kept.distinct done
  obtain ⟨other, _, ended, same, -, -, transit, terminal, moved⟩ := rt.consume_effect operation effect
  have rearranged : rt.Rearranged (calls ++ [call]) (rt.reopened calls [call]) := reopened_rearranged
  obtain ⟨last, inside, id⟩ := rearranged.last member
  refine ⟨row, member, last, inside, id, fun state => ?_⟩
  have present : ended ∈ (rt.run (calls ++ [call])).events := by
    rw [written, moved]
    exact mem_append_right _ mem_cons_self
  have about : ended.requestId = last.id := by
    rw [transit.about, id]
    exact (Option.some.inj same).symm
  have running := rt.live_history (rt.run_coherent (calls ++ [call])) inside (state ▸ live) ended present about
  rw [terminal] at running
  cases running

end Edits

end Platform

theorem plain_mac (text : String) : (plain.mac text).toList = 'm' :: text.toList := by
  rw [show plain.mac text = "m" ++ text from rfl, String.toList_append]
  rfl

theorem plain_injective : Function.Injective plain.mac := by
  intro first second same
  have chars := congrArg String.toList same
  rw [plain_mac, plain_mac] at chars
  exact String.toList_injective (List.cons.inj chars).2

theorem plain_unforgeable (text : String) : plain.mac text ≠ NO_HMAC := by
  intro same
  have zeros : NO_HMAC.toList = '0' :: List.replicate 63 '0' := String.toList_ofList
  have chars := (plain_mac text).symm.trans ((congrArg String.toList same).trans zeros)
  exact absurd (List.cons.inj chars).1 (by decide)

theorem reopened_stale : plain.PutBack (requested ++ [execution]) (plain.reopened requested [execution]) := by
  obtain ⟨row, rows, columns⟩ := reviewed
  obtain ⟨after, done⟩ := executed
  simp only [Request.columns, Prod.mk.injEq, List.cons.injEq, and_true] at columns
  obtain ⟨⟨sameId, -⟩, -, -, approved⟩ := columns
  have member : row ∈ (plain.run requested).requests := by
    rw [rows]
    exact mem_singleton_self row
  have live : row.state.terminal = false := by
    rw [approved]
    rfl
  rw [← sameId] at done
  exact Platform.reopened_live ⟨_, _, _, _, _, _, rfl⟩ done member live

/-- Verification passes although an executed request stands approved, and it is executed again. -/
theorem reopened_undetected : Function.Injective plain.mac ∧ (∀ text, plain.mac text ≠ NO_HMAC) ∧
      plain.Rearranged (requested ++ [execution]) (plain.reopened requested [execution]) ∧
      plain.Verifies (plain.reopened requested [execution]) ∧
      ¬ plain.Current (requested ++ [execution]) (plain.reopened requested [execution]) ∧
      ∃ after, plain.perform execution (plain.reopened requested [execution]) = .ok (some executedId, after) := by
  obtain ⟨row, rows, columns⟩ := reviewed
  have placed : (plain.reopened requested [execution]).requests = [row] :=
    Platform.reopened_requests.trans rows
  have member : row ∈ (plain.reopened requested [execution]).requests := by
    rw [placed]
    exact mem_singleton_self row
  refine ⟨plain_injective, plain_unforgeable, Platform.reopened_rearranged,
    Platform.reopened_verifies, fun current => ?_,
    execution_succeeds placed (Platform.reopened_rearranged.sealed row member) columns⟩
  obtain ⟨other, listed, last, inside, same, apart⟩ := reopened_stale
  have told := ((plain.run_coherent (requested ++ [execution])).told last inside).current
  rw [same, current other listed] at told
  exact apart (Option.some.inj told).symm

theorem reopened_condition : (plain.Verifies (plain.reopened requested [execution]) →
      plain.Current (requested ++ [execution]) (plain.reopened requested [execution])) ↔
      ¬ ((plain.reopened requested [execution]).events <+: (plain.run (requested ++ [execution])).events ∧
        plain.PutBack (requested ++ [execution]) (plain.reopened requested [execution])) :=
  plain.rollback_detected_iff plain_injective plain_unforgeable (requested ++ [execution])
    (plain.reopened requested [execution]) Platform.reopened_rearranged

end Dash.Approvals
