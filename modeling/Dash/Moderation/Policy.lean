import Dash.Moderation.Store
import Dash.Python.Plain
import Dash.Python.Reencoding

/-! Runs of the moderation store: who is banned, and what the log says about each ban.

A ban is lifted by the operator under the identifier that was typed, and expires by the sweep. As
long as the operator types the identifier of a ban in force as it is stored, the bans in force are
the ones nobody lifted and that have not run out, and the log ends each ban at most once.
-/

set_option autoImplicit false

namespace Dash.Moderation

open Dash.Python Dash.Foundation
open Foundation.Transaction (bind_ok check_bind guard_ok lift_bind pure_ok raise_ok read_bind write_bind write_ok)

variable {F T : Type}

inductive Call (F : Type) where
  | createCase (id : Uuid) (body : Value F) (actor : String)
  | updateCase (caseId : String) (body : Value F) (actor : String)
  | ban (id : Uuid) (caseId : String) (body : Value F) (actor : String)
  | unban (banId actor reason : String)
  | expireBans

structure Entry (F T : Type) where
  call : Call F
  now : T

/-- The column of `{"banId": id}`. -/
def banText (id : String) : String :=
  String.ofList ((Document.object [("banId", .str id)]).text true)

theorem banText_injective {first second : String} (same : banText first = banText second) : first = second := by
  have texts := congrArg String.toList same
  simp only [banText, String.toList_ofList] at texts
  simpa using text_injective true texts

def CaseEvent.endsBan (id : String) (event : CaseEvent T) : Bool :=
  event.eventType.ends && decide (event.metadata = banText id)

def Db.endings (db : Db T) (id : String) : Nat := db.caseEvents.countP (CaseEvent.endsBan id)

namespace Platform

variable (rt : Platform F T)

theorem json_banMetadata (id : String) : rt.json (banMetadata id) = .ok (banText id) := by
  have some_ : (banMetadata id : Value F).isNone = false := rfl
  rw [json, some_, if_neg Bool.false_ne_true, banMetadata, Value.object, Runtime.dumps]
  simp [Runtime.jsonable, Runtime.jsonableEntries, sortable, Runtime.sortEntries, Runtime.keyText, Except.map, banText]

theorem cleanText_uuid (id : Uuid) : cleanText 64 id.text = id.text := by
  rw [cleanText, strip_plain id.plain, clip, List.take_of_length_le, String.ofList_toList]
  exact id.short

variable {db after : Db T} {now : T}

theorem addCaseEvent_ok {caseId actor detail : String} {eventType : EventType} {metadata : Value F} {done : Unit}
    (written : rt.addCaseEvent now caseId eventType actor detail metadata db = .ok (done, after)) :
    ∃ event : CaseEvent T, after = { db with caseEvents := db.caseEvents ++ [event] } ∧
      event.eventType = eventType ∧ rt.json metadata = .ok event.metadata := by
  simp only [addCaseEvent, lift_bind, read_bind, check_bind, write_ok, Prod.mk.injEq] at written
  obtain ⟨text, encoded, -, -, rfl⟩ := written
  exact ⟨_, rfl, rfl, encoded⟩

structure Quiet (before after : Db T) : Prop where
  bans : after.bans = before.bans
  endings : ∀ id, after.endings id = before.endings id

theorem endings_append (db : Db T) (event : CaseEvent T) (id : String) :
    ({ db with caseEvents := db.caseEvents ++ [event] } : Db T).endings id =
      db.endings id + if event.endsBan id then 1 else 0 := by
  simp [Db.endings, List.countP_append, List.countP_singleton]

theorem endings_quiet {db : Db T} {event : CaseEvent T} (quiet : event.eventType.ends = false) (id : String) :
    ({ db with caseEvents := db.caseEvents ++ [event] } : Db T).endings id = db.endings id := by
  rw [endings_append, CaseEvent.endsBan, quiet]
  rfl

theorem createCase_ok {id : Uuid} {body : Value F} {actor result : String}
    (done : rt.createCase id now body actor db = .ok (result, after)) :
    Quiet db after := by
  unfold createCase at done
  simp only [Action.valueError, guard_ok, lift_bind, read_bind, check_bind, write_bind] at done
  obtain ⟨-, -, _, -, _, -, -, done⟩ := done
  obtain ⟨_, middle, logged, done⟩ := bind_ok.mp done
  obtain ⟨-, rfl⟩ := Prod.mk.inj (pure_ok.mp done)
  obtain ⟨event, rfl, type, -⟩ := rt.addCaseEvent_ok logged
  exact ⟨rfl, endings_quiet (by rw [type]; rfl)⟩

theorem findCase_ok {caseId : String} {row : Case T}
    (found : (findCase caseId : Action T (Case T)) db = .ok (row, after)) : after = db := by
  rw [findCase, read_bind] at found
  cases chosen : db.cases.find? fun row => row.id = cleanText 64 caseId with
  | some row =>
    rw [chosen] at found
    exact (Prod.mk.inj (pure_ok.mp found)).2.symm
  | none =>
    rw [chosen] at found
    exact (raise_ok.mp found).elim

theorem updateCase_ok {caseId actor : String} {body : Value F}
    {result : Unit} (done : rt.updateCase now caseId body actor db = .ok (result, after)) :
    Quiet db after := by
  unfold updateCase at done
  simp only [Action.valueError, guard_ok] at done
  obtain ⟨-, done⟩ := done
  obtain ⟨current, middle, found, rest⟩ := bind_ok.mp done
  obtain rfl := findCase_ok found
  simp only [write_bind] at rest
  obtain ⟨event, rfl, type, -⟩ := rt.addCaseEvent_ok rest
  exact ⟨rfl, endings_quiet (by rw [type]; rfl)⟩

theorem ban_ok {id : Uuid} {caseId actor result : String} {body : Value F}
    (done : rt.ban id now caseId body actor db = .ok (result, after)) :
    ∃ row : Ban T, after.bans = db.bans ++ [row] ∧ row.id = id.text ∧ row.active = true ∧
      id.text ∉ db.bans.map Ban.id ∧ ∀ other, after.endings other = db.endings other := by
  obtain ⟨current, middle, found, rest⟩ := bind_ok.mp done
  obtain rfl := findCase_ok found
  simp only [lift_bind, Action.valueError, guard_ok] at rest
  obtain ⟨account, -, -, expiresAt, -, rest⟩ := rest
  obtain ⟨_, last, inserted, same⟩ := bind_ok.mp rest
  obtain ⟨-, rfl⟩ := Prod.mk.inj (pure_ok.mp same)
  simp only [insertBan, read_bind, check_bind, write_bind]
    at inserted
  obtain ⟨-, fresh, logged⟩ := inserted
  obtain ⟨event, rfl, type, -⟩ := rt.addCaseEvent_ok logged
  refine ⟨_, rfl, rfl, rfl, by simpa using fresh, ?_⟩
  exact endings_quiet (by rw [type]; rfl)

def ended (by_ : String) (now : T) (why : String) (row : Ban T) : Ban T :=
  { row with active := false, revokedBy := some by_, revokedAt := some now, revokeReason := some why }

structure Ends (id : String) (before after : Db T) : Prop where
  bans : ∃ by_ now why, after.bans = update Ban.id id (ended by_ now why) before.bans
  endings : ∀ other, after.endings other = before.endings other + if other = id then 1 else 0

theorem endings_end (db : Db T) {event : CaseEvent T} {id : String}
    (ends : event.eventType.ends = true) (text : event.metadata = banText id) (other : String) :
    ({ db with caseEvents := db.caseEvents ++ [event] } : Db T).endings other =
      db.endings other + if other = id then 1 else 0 := by
  rw [endings_append, CaseEvent.endsBan, ends, text]
  by_cases same : other = id
  · simp [same]
  · have apart : banText id ≠ banText other := fun equal => same (banText_injective equal).symm
    simp [same, apart]

/-- A ban that was in force ends under the identifier as it was given; any other is left. -/
theorem unban_ok {banId actor reason : String} {idempotent : Bool}
    (done : rt.unban now banId actor reason db = .ok (idempotent, after)) :
    ∃ row, (db.bans.find? fun row => row.id = cleanText 64 banId) = some row ∧
      (row.active = true → Ends banId db after) ∧ (row.active = false → after = db) := by
  rw [unban, read_bind] at done
  cases found : db.bans.find? fun row => row.id = cleanText 64 banId with
  | none =>
    rw [found] at done
    exact (raise_ok.mp done).elim
  | some row =>
    rw [found] at done
    refine ⟨row, rfl, fun active => ?_, fun inactive => ?_⟩
    · simp only [active, if_true, write_bind] at done
      obtain ⟨_, middle, logged, done⟩ := bind_ok.mp done
      obtain ⟨-, rfl⟩ := Prod.mk.inj (pure_ok.mp done)
      obtain ⟨event, rfl, type, text⟩ := rt.addCaseEvent_ok logged
      rw [json_banMetadata] at text
      refine ⟨⟨_, _, _, rfl⟩, ?_⟩
      exact endings_end db (by rw [type]; rfl) (Except.ok.inj text).symm
    · simp only [inactive, Bool.false_eq_true, if_false] at done
      exact (Prod.mk.inj (pure_ok.mp done)).2.symm

theorem expireOne_ok {row : String × String} {result : Unit}
    (done : rt.expireOne now row db = .ok (result, after)) : Ends row.1 db after := by
  simp only [expireOne, write_bind] at done
  obtain ⟨event, rfl, type, text⟩ := rt.addCaseEvent_ok done
  rw [json_banMetadata] at text
  exact ⟨⟨_, _, _, rfl⟩,
    endings_end db (by rw [type]; rfl) (Except.ok.inj text).symm⟩

variable [LinearOrder T]

/-- A call as one transaction that returns nothing. -/
def body (entry : Entry F T) : Action T Unit :=
  match entry.call with
  | .createCase id body actor => do
    let _ ← rt.createCase id entry.now body actor
  | .updateCase caseId body actor => rt.updateCase entry.now caseId body actor
  | .ban id caseId body actor => do
    let _ ← rt.ban id entry.now caseId body actor
  | .unban banId actor reason => do
    let _ ← rt.unban entry.now banId actor reason
  | .expireBans => do
    let _ ← rt.expireBans entry.now

def next (db : Db T) (entry : Entry F T) : Db T := (rt.body entry).commit db

def run (entries : List (Entry F T)) : Db T := entries.foldl rt.next (Db.empty T)

def unbannedBy (db : Db T) (entry : Entry F T) : List String :=
  match entry.call with
  | .unban banId _ _ => if (rt.body entry db).isOk then [cleanText 64 banId] else []
  | _ => []

def unbanned (db : Db T) : List (Entry F T) → List String
  | [] => []
  | entry :: rest => rt.unbannedBy db entry ++ unbanned (rt.next db entry) rest

theorem unbanned_concat (db : Db T) (entries : List (Entry F T)) (entry : Entry F T) :
    rt.unbanned db (entries ++ [entry]) = rt.unbanned db entries ++ rt.unbannedBy (entries.foldl rt.next db) entry := by
  induction entries generalizing db with
  | nil => simp [unbanned]
  | cons first rest ih => simp [unbanned, ih]

end Platform

open List
open Foundation.Transaction (bind_ok pure_ok read_bind)

variable {F T : Type} [LinearOrder T]

open Platform

/-- The bans, the log and the identifiers that were lifted agree at a time. -/
structure Agree (db : Db T) (lifted : List String) (clock : T) : Prop where
  distinct : (db.bans.map Ban.id).Nodup
  plain : ∀ row ∈ db.bans, cleanText 64 row.id = row.id
  logged : ∀ row ∈ db.bans, db.endings row.id = if row.active then 0 else 1
  fresh : ∀ id, id ∉ db.bans.map Ban.id → db.endings id = 0
  known : ∀ id ∈ lifted, id ∈ db.bans.map Ban.id
  standing : ∀ row ∈ db.bans, row.active = true → row.id ∉ lifted
  settled : ∀ row ∈ db.bans, row.active = false → row.id ∈ lifted ∨ expired clock row = true

theorem expired_later {row : Ban T} {now later : T} (order : now ≤ later)
    (past : expired now row = true) : expired later row = true := by
  unfold expired at past ⊢
  cases ends : row.expiresAt with
  | none => simp [ends] at past
  | some limit =>
    rw [ends] at past
    exact decide_eq_true ((of_decide_eq_true past).trans order)

namespace Agree

variable {db after : Db T} {lifted : List String} {clock now : T}

theorem empty (clock : T) : Agree (Db.empty T) [] clock where
  distinct := nodup_nil
  plain := by simp [Db.empty]
  logged := by simp [Db.empty]
  fresh := fun _ _ => rfl
  known := by simp
  standing := by simp [Db.empty]
  settled := by simp [Db.empty]

theorem later (agree : Agree db lifted clock) (order : clock ≤ now) : Agree db lifted now :=
  { agree with
    settled := fun row member inactive =>
      (agree.settled row member inactive).imp_right (expired_later order) }

theorem quiet (agree : Agree db lifted clock) (same : Quiet db after) : Agree after lifted clock where
  distinct := same.bans ▸ agree.distinct
  plain := same.bans ▸ agree.plain
  logged := fun row member => by
    rw [same.endings]
    exact agree.logged row (same.bans ▸ member)
  fresh := fun id absent => by
    rw [same.endings]
    exact agree.fresh id (same.bans ▸ absent)
  known := same.bans ▸ agree.known
  standing := same.bans ▸ agree.standing
  settled := same.bans ▸ agree.settled

variable {row : Ban T}

theorem insert (agree : Agree db lifted clock)
    (bans : after.bans = db.bans ++ [row]) (spelled : cleanText 64 row.id = row.id)
    (active : row.active = true) (fresh : row.id ∉ db.bans.map Ban.id)
    (endings : ∀ other, after.endings other = db.endings other) : Agree after lifted clock where
  distinct := by
    rw [bans]
    exact Table.insert_keys agree.distinct fresh
  plain := by
    simp only [bans, mem_append, mem_singleton]
    rintro other (member | rfl)
    · exact agree.plain other member
    · exact spelled
  logged := by
    simp only [bans, mem_append, mem_singleton, endings]
    rintro other (member | rfl)
    · exact agree.logged other member
    · rw [agree.fresh _ fresh, active, if_pos rfl]
  fresh := fun id absent => by
    rw [endings]
    apply agree.fresh
    simp only [bans, map_append, mem_append, not_or] at absent
    exact absent.1
  known := fun id member => by
    rw [bans, map_append]
    exact mem_append_left _ (agree.known id member)
  standing := by
    simp only [bans, mem_append, mem_singleton]
    rintro other (member | rfl) holds
    · exact agree.standing other member holds
    · exact fun listed => fresh (agree.known _ listed)
  settled := by
    simp only [bans, mem_append, mem_singleton]
    rintro other (member | rfl) holds
    · exact agree.settled other member holds
    · rw [active] at holds
      cases holds

/-- A ban in force ends when it has run out or is lifted by the same call. -/
theorem ends (more : List String) (agree : Agree db lifted clock)
    (member : row ∈ db.bans) (active : row.active = true) (done : Ends row.id db after)
    (within : ∀ id ∈ more, id = row.id) (reason : row.id ∈ more ∨ expired clock row = true) :
    Agree after (lifted ++ more) clock := by
  obtain ⟨⟨by_, at_, why, bans⟩, endings⟩ := done
  have kept : ∀ other : Ban T, (ended by_ at_ why other).id = other.id := fun _ => rfl
  have ids : after.bans.map Ban.id = db.bans.map Ban.id := by
    rw [bans, Table.update_keys kept]
  -- every row after the call is the row that ended or one of the others
  have rows : ∀ other ∈ after.bans, other = ended by_ at_ why row ∨ (other ∈ db.bans ∧ other.id ≠ row.id) := by
    rw [bans]
    exact fun other => Table.update_cases agree.distinct member
  refine ⟨ids ▸ agree.distinct, ?_, ?_, ?_, ?_, ?_, ?_⟩
  · intro other present
    rcases rows other present with rfl | ⟨old, -⟩
    · exact agree.plain row member
    · exact agree.plain other old
  · intro other present
    rw [endings]
    rcases rows other present with rfl | ⟨old, apart⟩
    · rw [kept, if_pos rfl, agree.logged row member, active]
      rfl
    · rw [if_neg apart]
      exact agree.logged other old
  · intro id absent
    rw [ids] at absent
    have apart : id ≠ row.id := fun same => absent (same ▸ mem_map_of_mem member)
    rw [endings, if_neg apart]
    exact agree.fresh id absent
  · intro id listed
    rw [ids]
    rcases mem_append.mp listed with old | new
    · exact agree.known id old
    · rw [within id new]
      exact mem_map_of_mem member
  · intro other present holds
    rcases rows other present with rfl | ⟨old, apart⟩
    · cases holds
    · simp only [mem_append, not_or]
      exact ⟨agree.standing other old holds, fun new => apart (within _ new)⟩
  · intro other present holds
    rcases rows other present with rfl | ⟨old, -⟩
    · exact reason.imp_left (mem_append_right _)
    · exact (agree.settled other old holds).imp_left (mem_append_left _)

theorem again (agree : Agree db lifted clock) (member : row ∈ db.bans)
    (inactive : row.active = false) : Agree db (lifted ++ [row.id]) clock where
  distinct := agree.distinct
  plain := agree.plain
  logged := agree.logged
  fresh := agree.fresh
  known := fun id listed => by
    rcases mem_append.mp listed with old | new
    · exact agree.known id old
    · rw [mem_singleton.mp new]
      exact mem_map_of_mem member
  standing := fun other present holds => by
    simp only [mem_append, mem_singleton, not_or]
    refine ⟨agree.standing other present holds, fun same => ?_⟩
    rw [Table.same_row agree.distinct present member same, inactive] at holds
    cases holds
  settled := fun other present holds =>
    (agree.settled other present holds).imp_left (mem_append_left _)

theorem in_force (agree : Agree db lifted now) (member : row ∈ db.bans) :
    (row.active = true ∧ expired now row = false) ↔ (row.id ∉ lifted ∧ expired now row = false) := by
  constructor
  · rintro ⟨active, open_⟩
    exact ⟨agree.standing row member active, open_⟩
  · rintro ⟨kept, open_⟩
    cases active : row.active with
    | true => exact ⟨rfl, open_⟩
    | false =>
      rcases agree.settled row member active with gone | past
      · exact absurd gone kept
      · rw [open_] at past
        cases past

end Agree

namespace Platform

variable (rt : Platform F T)

def Spelled (db : Db T) (entry : Entry F T) : Prop :=
  ∀ banId actor reason row, entry.call = .unban banId actor reason → row ∈ db.bans →
    row.id = cleanText 64 banId → row.active = true → banId = cleanText 64 banId

variable {rt}

variable {lifted : List String} {db after : Db T} {now : T}

/-- The loop of the sweep: the rows that are left are in force until their turn. -/
theorem each_expires {rows : List (String × String)}
    {results : List Unit} (agree : Agree db lifted now) (distinct : (rows.map Prod.fst).Nodup)
    (due : ∀ pair ∈ rows, ∃ row ∈ db.bans, row.id = pair.1 ∧ row.active = true ∧ expired now row = true)
    (done : Transaction.each (rt.expireOne now) rows db = .ok (results, after)) :
    Agree after lifted now := by
  induction rows generalizing db results with
  | nil =>
    obtain ⟨-, rfl⟩ := Prod.mk.inj (pure_ok.mp done)
    exact agree
  | cons pair rest ih =>
    obtain ⟨result, middle, first, others⟩ := bind_ok.mp done
    obtain ⟨more, last, loop, same⟩ := bind_ok.mp others
    obtain ⟨-, rfl⟩ := Prod.mk.inj (pure_ok.mp same)
    obtain ⟨absent, distinct⟩ := nodup_cons.mp distinct
    obtain ⟨row, member, key, active, past⟩ := due pair mem_cons_self
    have step := rt.expireOne_ok first
    rw [← key] at step
    have kept : Agree middle lifted now := by
      simpa using agree.ends [] member active step (by simp) (.inr past)
    apply ih kept distinct ?_ loop
    intro later listed
    obtain ⟨other, present, name, holds, past⟩ := due later (mem_cons_of_mem _ listed)
    have apart : other.id ≠ row.id := by
      rw [name, key]
      exact fun same => absent (same ▸ mem_map_of_mem listed)
    obtain ⟨⟨by_, at_, why, bans⟩, -⟩ := step
    exact ⟨other, bans ▸ Table.mem_kept present apart, name, holds, past⟩

theorem expireBans_agree {count : Nat}
    (agree : Agree db lifted now) (done : rt.expireBans now db = .ok (count, after)) :
    Agree after lifted now := by
  simp only [expireBans, read_bind] at done
  obtain ⟨results, middle, loop, same⟩ := bind_ok.mp done
  obtain ⟨-, rfl⟩ := Prod.mk.inj (pure_ok.mp same)
  refine each_expires agree ?_ ?_ loop
  · rw [map_map]
    exact agree.distinct.sublist (filter_sublist.map _)
  · intro pair listed
    obtain ⟨row, chosen, rfl⟩ := mem_map.mp listed
    obtain ⟨member, holds⟩ := mem_filter.mp chosen
    rw [Bool.and_eq_true] at holds
    exact ⟨row, member, rfl, holds.1, holds.2⟩

theorem unban_agree {banId actor reason : String} {idempotent : Bool} (agree : Agree db lifted now)
    (spelled : ∀ row ∈ db.bans, row.id = cleanText 64 banId → row.active = true → banId = cleanText 64 banId)
    (done : rt.unban now banId actor reason db = .ok (idempotent, after)) :
    Agree after (lifted ++ [cleanText 64 banId]) now := by
  obtain ⟨row, found, ends, stays⟩ := rt.unban_ok done
  have member := List.mem_of_find?_eq_some found
  have name : row.id = cleanText 64 banId := by simpa using List.find?_some found
  cases active : row.active with
  | true =>
    have typed := ends active
    rw [spelled row member name active, ← name] at typed
    rw [← name]
    exact agree.ends _ member active typed (by simp) (.inl (by simp))
  | false =>
    rw [stays active, ← name]
    exact agree.again member active

theorem next_agree {db : Db T} {clock : T} {entry : Entry F T}
    (agree : Agree db lifted clock) (order : clock ≤ entry.now) (spelled : Spelled db entry) :
    Agree (rt.next db entry) (lifted ++ rt.unbannedBy db entry) entry.now := by
  have now := agree.later order
  obtain ⟨call, time⟩ := entry
  rw [next, Transaction.commit, unbannedBy]
  cases outcome : rt.body ⟨call, time⟩ db with
  | error why =>
    cases call <;> simpa [Except.isOk, Except.toBool] using now
  | ok pair =>
    obtain ⟨result, after⟩ := pair
    cases call with
    | createCase id body actor =>
      obtain ⟨_, middle, made, same⟩ := bind_ok.mp outcome
      obtain ⟨-, rfl⟩ := Prod.mk.inj (pure_ok.mp same)
      simpa using now.quiet (rt.createCase_ok made)
    | updateCase caseId body actor =>
      simpa using now.quiet (rt.updateCase_ok outcome)
    | ban id caseId body actor =>
      obtain ⟨_, middle, made, same⟩ := bind_ok.mp outcome
      obtain ⟨-, rfl⟩ := Prod.mk.inj (pure_ok.mp same)
      obtain ⟨row, bans, name, active, fresh, endings⟩ := rt.ban_ok made
      simpa using now.insert bans (by rw [name, cleanText_uuid]) active (name ▸ fresh) endings
    | unban banId actor reason =>
      obtain ⟨_, middle, made, same⟩ := bind_ok.mp outcome
      obtain ⟨-, rfl⟩ := Prod.mk.inj (pure_ok.mp same)
      simpa [Except.isOk, Except.toBool] using unban_agree now (fun row => spelled banId actor reason row rfl) made
    | expireBans =>
      obtain ⟨_, middle, made, same⟩ := bind_ok.mp outcome
      obtain ⟨-, rfl⟩ := Prod.mk.inj (pure_ok.mp same)
      simpa using expireBans_agree now made

end Platform

namespace Platform

variable {rt : Platform F T}

def Careful (rt : Platform F T) (entries : List (Entry F T)) : Prop :=
  ∀ earlier entry later, entries = earlier ++ entry :: later → Spelled (rt.run earlier) entry

/-- The bans in force are those nobody lifted and that have not run out, and the log has one end
for each ban that is over. -/
structure Exact (rt : Platform F T) (entries : List (Entry F T)) (now : T) : Prop where
  banned : ∀ identity, ((rt.run entries).activeBan identity now).isSome = true ↔
    ∃ row ∈ (rt.run entries).bans, row.names identity = true ∧
      row.id ∉ rt.unbanned (Db.empty T) entries ∧ expired now row = false
  logged : ∀ row ∈ (rt.run entries).bans, (rt.run entries).endings row.id = if row.active then 0 else 1

theorem Careful.before {earlier : List (Entry F T)} {entry : Entry F T}
    (careful : rt.Careful (earlier ++ [entry])) : rt.Careful earlier := by
  intro first middle last split
  apply careful first middle (last ++ [entry])
  rw [split]
  simp

theorem run_agree {entries : List (Entry F T)} (ordered : entries.Pairwise fun earlier later => earlier.now ≤ later.now)
    (careful : rt.Careful entries) {now : T} (late : ∀ entry ∈ entries, entry.now ≤ now) :
    Agree (rt.run entries) (rt.unbanned (Db.empty T) entries) now := by
  induction entries using List.reverseRecOn generalizing now with
  | nil => exact Agree.empty now
  | append_singleton earlier entry ih =>
    obtain ⟨before, -, last⟩ := pairwise_append.mp ordered
    have agree : Agree (rt.run earlier) (rt.unbanned (Db.empty T) earlier) entry.now :=
      ih before careful.before fun other listed => last other listed entry (by simp)
    have step := @next_agree F T _ rt _ _ _ _ agree le_rfl (careful earlier entry [] rfl)
    rw [run, foldl_append, unbanned_concat]
    exact step.later (late entry (by simp))

theorem activeBan_isSome {db : Db T} {identity : Identity} {now : T} : (db.activeBan identity now).isSome = true ↔
      ∃ row ∈ db.bans, row.names identity = true ∧ row.active = true ∧ expired now row = false := by
  rw [Db.activeBan, List.isSome_head?, ← length_pos_iff, length_insertionSort, length_pos_iff_exists_mem]
  simp only [mem_filter, Bool.and_eq_true, Bool.not_eq_true']
  constructor
  · rintro ⟨row, member, ⟨active, open_⟩, named⟩
    exact ⟨row, member, named, active, open_⟩
  · rintro ⟨row, member, named, active, open_⟩
    exact ⟨row, member, ⟨active, open_⟩, named⟩

/-- A careful run bans exactly who should be banned, and logs the end of each ban once. -/
theorem ban_policy_exact (rt : Platform F T) (entries : List (Entry F T))
    (ordered : entries.Pairwise fun earlier later => earlier.now ≤ later.now)
    (careful : rt.Careful entries) (now : T) (late : ∀ entry ∈ entries, entry.now ≤ now) :
    rt.Exact entries now := by
  have agree := run_agree ordered careful late
  refine ⟨fun identity => ?_, agree.logged⟩
  rw [activeBan_isSome]
  constructor
  · rintro ⟨row, member, named, force⟩
    exact ⟨row, member, named, (agree.in_force member).mp force⟩
  · rintro ⟨row, member, named, force⟩
    exact ⟨row, member, named, (agree.in_force member).mpr force⟩

end Platform

def plainModeration : Platform FloatText Int where
  toRuntime := plainRuntime
  later now hours := now + hours
  iso := toString

theorem unspaced {text : String} (all : (text.toList.all fun char => !isSpace char) = true) :
    ∀ char ∈ text.toList, isSpace char = false := by
  intro char member
  simpa using all_eq_true.mp all char member

def caseId : Uuid := ⟨"7d0a", unspaced (by decide), by decide⟩

def banId : Uuid := ⟨"c41f", unspaced (by decide), by decide⟩

def griefing : Value FloatText := .dict [(.str "summary", .str "griefing"), (.str "accountId", .int 17)]

def lifting (spelling : String) : List (Entry FloatText Int) :=
  [⟨.createCase caseId griefing "ops", 1⟩, ⟨.ban banId "7d0a" (.dict []) "ops", 2⟩,
    ⟨.unban spelling "ops" "appeal", 3⟩]

def player : Identity := ⟨some 17, "", ""⟩

theorem lifting_ordered (spelling : String) :
    (lifting spelling).Pairwise fun earlier later => earlier.now ≤ later.now := by
  simp [lifting]

theorem lifting_late (spelling : String) : ∀ entry ∈ lifting spelling, entry.now ≤ 3 := by
  simp [lifting]

/-- With a blank before the identifier the call returns, the ban stays in force, and the log has
an end for no ban. -/
theorem blank_keeps_ban : ((lifting " c41f").Pairwise fun earlier later => earlier.now ≤ later.now) ∧
      (∀ entry ∈ lifting " c41f", entry.now ≤ 3) ∧
      ¬ plainModeration.Exact (lifting " c41f") 3 := by
  refine ⟨lifting_ordered _, lifting_late _, fun exact_ => ?_⟩
  have banned : ((plainModeration.run (lifting " c41f")).activeBan player 3).isSome = true := by
    decide
  have spelled : ∀ row ∈ (plainModeration.run (lifting " c41f")).bans,
      row.id ∈ plainModeration.unbanned (Db.empty Int) (lifting " c41f") := by decide
  obtain ⟨row, member, -, kept, -⟩ := (exact_.banned player).mp banned
  exact kept (spelled row member)

theorem lifting_careful : plainModeration.Careful (lifting "c41f") := by
  intro earlier entry later split banId actor reason row call _ _ _
  have listed : entry ∈ lifting "c41f" := by simp [split]
  simp only [lifting, mem_cons, not_mem_nil, or_false] at listed
  rcases listed with rfl | rfl | rfl
  · cases call
  · cases call
  · cases call
    decide

theorem lifting_exact : (lifting "c41f").length = 3 ∧ plainModeration.Exact (lifting "c41f") 3 :=
  ⟨rfl, plainModeration.ban_policy_exact _ (lifting_ordered _) lifting_careful 3 (lifting_late _)⟩

example : ((plainModeration.run ((lifting "c41f").take 2)).activeBan player 3).isSome = true ∧
    ((plainModeration.run (lifting "c41f")).activeBan player 3).isSome = false := by
  decide

end Dash.Moderation
