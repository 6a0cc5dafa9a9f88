import Dash.Audit.Effects

/-! When the ledger can still be verified after appends that return and appends that raise.

An append stores columns it derives from the event, and verification compares them with the
stored text. They agree for an event that is spelled the way its columns are.
-/

set_option autoImplicit false

namespace Dash.Audit

open Dash.Python Dash.Foundation List

variable {F : Type}

namespace Platform

variable (rt : Platform F)

structure Spelled (normalized : Normalized F) : Prop where
  eventId : ∃ text, normalized.event.get "eventId" = .str text
  ts : ∃ text, normalized.event.get "ts" = .str text
  action : ∃ text, normalized.event.get "action" = .str text ∧ strip text = text
  requestId : normalized.event.get "request_id" = .none ∨ ∃ text, normalized.event.get "request_id" = .str text
  encoded : ∃ text, rt.canonical normalized.event = .ok text ∧ rt.sha256 text = rt.sha256 normalized.encoded

/-- What `_normalize_event` makes of an event. -/
structure Normalizes (event : Value F) (normalized : Normalized F) : Prop where
  written : rt.canonical event = .ok normalized.encoded
  loaded : rt.loads normalized.encoded = .ok normalized.event
  dict : normalized.event.isDict = true
  eventId : normalized.eventId = rt.str (rt.orElse (normalized.event.get "eventId") (.str ""))
  ts : normalized.occurredAt = rt.str (rt.orElse (normalized.event.get "ts") (.str ""))
  action : normalized.action = strip (rt.str (rt.orElse (normalized.event.get "action") (.str "")))
  ok : normalized.event.get "ok" = .bool normalized.ok
  requestId : normalized.requestId = match normalized.event.get "request_id" with
    | .none => none
    | value => some (rt.str value)

variable {normalized : Normalized F} {event : Value F}

theorem normalizeEvent_ok (accepted : rt.normalizeEvent event = .ok normalized) : rt.Normalizes event normalized := by
  rw [normalizeEvent, result_refuse] at accepted
  obtain ⟨-, accepted⟩ := accepted
  cases written : rt.canonical event with
  | error why => simp [written, valueError] at accepted
  | ok encoded =>
    cases loaded : rt.loads encoded with
    | error why => simp [written, loaded, valueError] at accepted
    | ok value =>
      simp only [written, loaded, result_refuse] at accepted
      obtain ⟨-, -, -, -, accepted⟩ := accepted
      cases flag : value.get "ok" with
      | bool ok =>
        rw [flag] at accepted
        obtain ⟨-, accepted⟩ := result_refuse.mp accepted
        cases accepted
        refine ⟨written, loaded, ?_, rfl, rfl, rfl, flag, rfl⟩
        cases value with
        | dict entries => rfl
        | _ => simp [Value.get, Value.get?] at flag
      | _ => simp [flag, valueError] at accepted

variable {value : Value F} {text : String}

theorem str_orElse (same : value = .str text) : rt.str (rt.orElse value (.str "")) = text := by
  subst same
  by_cases empty : text = "" <;> simp [Runtime.orElse, Runtime.truthy, Runtime.str, empty]

theorem isText_some : isText value (some text) = true ↔ value = .str text := by
  cases value <;> simp [isText]

theorem isText_column :
    isText value (some (rt.str (rt.orElse value (.str "")))) = true ↔ ∃ text, value = .str text := by
  rw [isText_some]
  constructor
  · exact fun same => ⟨_, same⟩
  · rintro ⟨text, rfl⟩
    rw [rt.str_orElse rfl]

theorem plain_encoded (plain : event.Plain) (facts : rt.Normalizes event normalized) :
    ∃ text, rt.canonical normalized.event = .ok text ∧ rt.sha256 text = rt.sha256 normalized.encoded := by
  obtain ⟨document, written, loaded, again⟩ := rt.dumps_loads plain facts.written
  have same : normalized.event = rt.ofDocument document := Except.ok.inj (facts.loaded.symm.trans loaded)
  obtain ⟨other, encoded, text⟩ := rt.dumps_ok.mp facts.written
  cases written.symm.trans encoded
  rw [text, same]
  exact ⟨_, rt.dumps_ok.mpr ⟨document, again, rfl⟩, rfl⟩

variable {rows : List Row}

/-- The row of an event passes its check if and only if the event is spelled as its columns. -/
theorem verifyRow_next (accepted : rt.normalizeEvent event = .ok normalized) :
    rt.verifyRow (place rows).1 (place rows).2 (rt.nextRow rows normalized) = .ok () ↔
      rt.Spelled normalized := by
  have facts := rt.normalizeEvent_ok accepted
  have eventId : isText (normalized.event.get "eventId") (some normalized.eventId) = true ↔
      ∃ text, normalized.event.get "eventId" = .str text := by
    rw [facts.eventId]
    exact rt.isText_column
  have ts : isText (normalized.event.get "ts") (some normalized.occurredAt) = true ↔
      ∃ text, normalized.event.get "ts" = .str text := by
    rw [facts.ts]
    exact rt.isText_column
  have action : isText (normalized.event.get "action") (some normalized.action) = true ↔
      ∃ text, normalized.event.get "action" = .str text ∧ strip text = text := by
    rw [facts.action, isText_some]
    constructor
    · intro same
      exact ⟨_, same, congrArg strip (rt.str_orElse same).symm⟩
    · rintro ⟨text, same, whole⟩
      rw [rt.str_orElse same, whole, same]
  have requestId : isText (normalized.event.get "request_id") normalized.requestId = true ↔
      normalized.event.get "request_id" = .none ∨ ∃ text, normalized.event.get "request_id" = .str text := by
    rw [facts.requestId]
    cases normalized.event.get "request_id" <;> simp [isText, Runtime.str]
  have ok : rt.truthy (normalized.event.get "ok") = normalized.ok := by
    rw [facts.ok]
    rfl
  have number : (rt.nextRow rows normalized).sequence = (place rows).2 := (place_snd rows).symm
  have loaded : rt.loads (rt.nextRow rows normalized).eventJson = .ok normalized.event := facts.loaded
  have columns : (isText (normalized.event.get "eventId") (some (rt.nextRow rows normalized).eventId) = false ∨
      isText (normalized.event.get "ts") (some (rt.nextRow rows normalized).occurredAt) = false ∨
      isText (normalized.event.get "action") (some (rt.nextRow rows normalized).action) = false ∨
      rt.truthy (normalized.event.get "ok") ≠ (rt.nextRow rows normalized).ok ∨
      isText (normalized.event.get "request_id") (rt.nextRow rows normalized).requestId = false) ↔
      ¬ ((∃ text, normalized.event.get "eventId" = .str text) ∧ (∃ text, normalized.event.get "ts" = .str text) ∧
        (∃ text, normalized.event.get "action" = .str text ∧ strip text = text) ∧
        (normalized.event.get "request_id" = .none ∨ ∃ text, normalized.event.get "request_id" = .str text)) := by
    rw [← eventId, ← ts, ← action, ← requestId]
    simp only [nextRow, ok, ne_eq, not_true_eq_false, false_or, not_and_or, Bool.not_eq_true]
  rw [verifyRow, runtimeError_guard, loaded, result_bind]
  constructor
  · rintro ⟨-, text, encoded, rest⟩
    obtain ⟨digest, rest⟩ := runtimeError_guard.mp rest
    rw [facts.dict, if_neg Bool.noConfusion] at rest
    obtain ⟨agree, -⟩ := runtimeError_guard.mp rest
    obtain ⟨eventId, ts, action, requestId⟩ := not_not.mp (columns.not.mp agree)
    exact ⟨eventId, ts, action, requestId, text, encoded, not_not.mp digest⟩
  · rintro ⟨eventId, ts, action, requestId, text, encoded, digest⟩
    refine ⟨not_not.mpr number, text, encoded, runtimeError_guard.mpr ⟨not_not.mpr digest, ?_⟩⟩
    rw [facts.dict, if_neg Bool.noConfusion]
    refine runtimeError_guard.mpr ⟨columns.not.mpr (not_not.mpr ⟨eventId, ts, action, requestId⟩),
      runtimeError_guard.mpr ⟨not_not.mpr rfl, ?_⟩⟩
    rw [digest, eventHmac_eq]
    exact runtimeError_guard.mpr ⟨not_not.mpr (by rw [number, place_snd]; rfl), rfl⟩

theorem verifyRows_ok {start : String × Int} {head : String} : rt.verifyRows start.1 start.2 rows = .ok head ↔
      Sound advance (fun place row => rt.verifyRow place.1 place.2 row = .ok ()) start rows ∧
        head = (rows.foldl advance start).1 := by
  induction rows generalizing start with
  | nil => simp [verifyRows, Sound, eq_comm]
  | cons row rest ih =>
    have later : rt.verifyRows row.eventHmacSha256 (start.2 + 1) rest = .ok head ↔ _ :=
      @ih (advance start row)
    rw [verifyRows, result_bind, Sound, foldl_cons, and_assoc, ← later]
    constructor
    · rintro ⟨_, one, more⟩
      exact ⟨one, more⟩
    · rintro ⟨one, more⟩
      exact ⟨(), one, more⟩

def Verified (rows : List Row) : Prop :=
  Sound advance (fun place row => rt.verifyRow place.1 place.2 row = .ok ()) (ZERO_HMAC, 1) rows

variable {disk : Disk}

theorem verify_iff (level : rt.Level disk) : (∃ result, rt.verify disk = .ok result) ↔ rt.Verified disk.rows := by
  have passed (head : String) : rt.verifyRows ZERO_HMAC 1 disk.rows = .ok head ↔
      rt.Verified disk.rows ∧ head = (place disk.rows).1 :=
    @verifyRows_ok F rt disk.rows (ZERO_HMAC, 1) head
  obtain ⟨digest, document, read, number, code⟩ := level.anchored
  constructor
  · rintro ⟨result, verified⟩
    obtain ⟨head, rows, -⟩ := result_bind.mp verified
    exact ((passed head).mp rows).1
  · intro rows
    refine ⟨(disk.rows.length, (place disk.rows).1), ?_⟩
    simp [verify, (passed _).mpr ⟨rows, rfl⟩, read, number, code, Runtime.int,
      compareDigest_str digest digest, bind, Except.bind]

structure Sane (disk : Disk) : Prop extends rt.Level disk where
  verified : rt.Verified disk.rows
  distinct : (disk.rows.map Row.eventId).Nodup

/-- An append adds a row only of an event that is spelled as its columns, and does not fail
between the commit and the anchor. -/
def Careful (call : Call F) (disk : Disk) : Prop :=
  ∀ normalized, rt.normalizeEvent call.event = .ok normalized → normalized.eventId ∉ disk.rows.map Row.eventId →
    rt.Spelled normalized ∧ ∀ why, call.fault ≠ .between why

variable {rt}

theorem Chained.digest (chain : rt.Chained rows) : ∀ row ∈ rows, row.eventSha256 = rt.sha256 row.eventJson := by
  induction rows using List.reverseRecOn with
  | nil => exact fun _ impossible => nomatch impossible
  | append_singleton rows row ih =>
    intro other member
    rcases mem_append.mp member with old | last
    · exact ih chain.init.1 other old
    · rw [mem_singleton.mp last]
      exact chain.init.2.digest

theorem Sane.opened {updatedAt text : String}
    (written : rt.anchorText 0 ZERO_HMAC updatedAt = .ok text) : rt.Sane ⟨[], text⟩ :=
  { Level.opened written with verified := trivial, distinct := nodup_nil }

theorem Sane.next (sane : rt.Sane disk) (accepted : rt.normalizeEvent event = .ok normalized)
    (fresh : normalized.eventId ∉ disk.rows.map Row.eventId) (spelled : rt.Spelled normalized)
    (level : rt.Level ⟨disk.rows ++ [rt.nextRow disk.rows normalized], text⟩) :
    rt.Sane ⟨disk.rows ++ [rt.nextRow disk.rows normalized], text⟩ :=
  { level with
    verified := Sound.concat sane.verified ((rt.verifyRow_next accepted).mpr spelled)
    distinct := Table.insert_keys sane.distinct fresh }

variable {call : Call F}

theorem Sane.append (sane : rt.Sane disk) (careful : rt.Careful call disk) : rt.Sane (rt.append call disk).2 := by
  have outcome : Outcome rt call disk (rt.append call disk) := append_outcome sane.toLevel
  generalize rt.append call disk = result at outcome
  cases outcome with
  | refused why => exact sane
  | known normalized row => exact sane
  | stranded why normalized between accepted fresh =>
    exact absurd between ((careful normalized accepted fresh).2 why)
  | added outcome text normalized accepted fresh returned level =>
    exact sane.next accepted fresh (careful normalized accepted fresh).1 level

theorem Sane.run {calls : List (Call F)} (sane : rt.Sane disk)
    (careful : ∀ before call after, calls = before ++ call :: after →
      rt.Careful call (rt.ledger disk before)) : rt.Sane (rt.ledger disk calls) := by
  induction calls using List.reverseRecOn with
  | nil => exact sane
  | append_singleton calls call ih =>
    rw [ledger_concat]
    apply Sane.append
    · exact ih fun before other after split =>
        careful before other (after ++ [call]) (by rw [split, append_assoc, cons_append])
    · exact careful calls call [] rfl

variable {row : Row}

section

variable (sane : rt.Sane disk)
include sane

theorem Sane.lookup_here (member : row ∈ disk.rows)
    (same : row.eventId = normalized.eventId) (sequence : Int) (previous : String) :
    rt.lookup normalized sequence previous disk.rows =
      if row.eventSha256 ≠ rt.sha256 normalized.encoded then
        runtimeError "audit event ID collision has a different payload"
      else .ok (.known row) := by
  have found := Table.find_mem sane.distinct member
  rw [same] at found
  rw [lookup, found]

theorem Sane.admits {verifyChain : Bool} {admission : Admission} (accepted : rt.normalizeEvent event = .ok normalized) :
    rt.admitEvent event verifyChain disk = .ok admission ↔
      rt.lookup normalized disk.rows.length (place disk.rows).1 disk.rows = .ok admission := by
  rw [admit_iff sane.chain sane.anchored]
  constructor
  · rintro ⟨other, again, -, -, found⟩
    cases accepted.symm.trans again
    exact found
  · exact fun found => ⟨normalized, accepted,
      fun _ => (rt.verify_iff sane.toLevel).mpr sane.verified, ⟨rfl, rfl⟩, found⟩

theorem Sane.append_known (quiet : call.fault = .never)
    (accepted : rt.normalizeEvent call.event = .ok normalized) (member : row ∈ disk.rows)
    (same : row.eventId = normalized.eventId)
    (digest : row.eventSha256 = rt.sha256 normalized.encoded) :
    rt.append call disk = (.ok (.existing row), disk) := by
  have found := sane.lookup_here member same disk.rows.length (place disk.rows).1
  rw [if_neg (not_not.mpr digest)] at found
  rw [Platform.append, quiet]
  simp [(sane.admits accepted).mpr found]

theorem Sane.append_collision (quiet : call.fault = .never)
    (accepted : rt.normalizeEvent call.event = .ok normalized) (member : row ∈ disk.rows)
    (same : row.eventId = normalized.eventId)
    (digest : row.eventSha256 ≠ rt.sha256 normalized.encoded) :
    ∃ why, rt.append call disk = (.error why, disk) := by
  have found := sane.lookup_here member same disk.rows.length (place disk.rows).1
  rw [if_pos digest] at found
  cases admitted : rt.admitEvent call.event call.verifyChain disk with
  | error why =>
    refine ⟨why, ?_⟩
    rw [Platform.append, quiet]
    simp only [admitted]
  | ok admission =>
    rw [sane.admits accepted, found] at admitted
    cases admitted

theorem Sane.append_new (accepted : rt.normalizeEvent call.event = .ok normalized)
    (fresh : normalized.eventId ∉ disk.rows.map Row.eventId) (late : ∀ why, call.fault ≠ .early why) :
    rt.append call disk = rt.finish (rt.nextRow disk.rows normalized) call.updatedAt call.fault disk := by
  have admitted : rt.admitEvent call.event call.verifyChain disk = .ok (.fresh (rt.nextRow disk.rows normalized)) :=
    (sane.admits accepted).mpr (lookup_new fresh)
  rw [Platform.append]
  split
  next why early => exact absurd early (late why)
  next => simp only [admitted]

theorem Sane.append_fresh (quiet : call.fault = .never) (accepted : rt.normalizeEvent call.event = .ok normalized)
    (fresh : normalized.eventId ∉ disk.rows.map Row.eventId) :
    ∃ text, rt.append call disk = (.ok (.inserted (rt.nextRow disk.rows normalized)),
        ⟨disk.rows ++ [rt.nextRow disk.rows normalized], text⟩) ∧
      rt.Level ⟨disk.rows ++ [rt.nextRow disk.rows normalized], text⟩ := by
  obtain ⟨text, wrote, level⟩ := sane.toLevel.next normalized call.updatedAt
  refine ⟨text, ?_, level⟩
  rw [sane.append_new accepted fresh (by simp [quiet]), finish,
    insert_ok sane.chain (rt.linked_nextRow _ _) fresh, quiet]
  simp only [wrote]

end

variable (rt)

/-- An append that returns leaves a ledger that verifies, numbered without a gap and anchored at
its last event. An event that is there already gets its first row again; one whose identifier is
taken by another payload is refused. -/
def Upheld (call : Call F) (disk : Disk) : Prop :=
  (∀ receipt, (rt.append call disk).1 = .ok receipt →
    (∃ result, rt.verify (rt.append call disk).2 = .ok result) ∧
    (rt.append call disk).2.rows.map Row.sequence =
      ((List.range (rt.append call disk).2.rows.length).map fun index : Nat => (index : Int) + 1) ∧
    rt.AnchoredAt (rt.append call disk).2 (rt.append call disk).2.rows.length
      (place (rt.append call disk).2.rows).1) ∧
  (∀ normalized row, rt.normalizeEvent call.event = .ok normalized → row ∈ disk.rows →
    row.eventId = normalized.eventId →
    (row.eventJson = normalized.encoded → rt.append call disk = (.ok (.existing row), disk)) ∧
    (row.eventSha256 ≠ rt.sha256 normalized.encoded →
      ∃ why, rt.append call disk = (.error why, disk)))

variable {rt}

section

variable (sane : rt.Sane disk) (quiet : call.fault = .never)
include sane quiet

theorem Sane.upheld (careful : rt.Careful call disk) : rt.Upheld call disk := by
  have next := sane.append careful
  refine ⟨fun _ _ => ⟨(rt.verify_iff next.toLevel).mpr next.verified, next.chain.sequences,
    next.anchored⟩, fun normalized row accepted member same => ⟨fun text => ?_, fun other => ?_⟩⟩
  · apply sane.append_known quiet accepted member same
    rw [sane.chain.digest row member, text]
  · exact sane.append_collision quiet accepted member same other

theorem Sane.poisoned (accepted : rt.normalizeEvent call.event = .ok normalized)
    (fresh : normalized.eventId ∉ disk.rows.map Row.eventId) (odd : ¬ rt.Spelled normalized) :
    ∃ receipt next, rt.append call disk = (.ok receipt, next) ∧ ∀ result, rt.verify next ≠ .ok result := by
  obtain ⟨text, appended, level⟩ := sane.append_fresh quiet accepted fresh
  refine ⟨_, _, appended, fun result verified => odd ?_⟩
  have rows := (rt.verify_iff level).mp ⟨result, verified⟩
  exact (rt.verifyRow_next accepted).mp (Sound.append.mp rows).2.1

theorem Sane.careful (upheld : rt.Upheld call disk) : rt.Careful call disk := by
  intro normalized accepted fresh
  refine ⟨?_, by simp [quiet]⟩
  by_contra odd
  obtain ⟨receipt, next, appended, fails⟩ := sane.poisoned quiet accepted fresh odd
  obtain ⟨⟨result, verifies⟩, -⟩ := upheld.1 receipt (congrArg Prod.fst appended)
  rw [appended] at verifies
  exact fails result verifies

end

/-- The ledger stays verifiable through appends, none of which fails in an operation of the
system, if and only if every event that gets a row is spelled as the columns of the row. -/
theorem stays_verifiable_iff {updatedAt text : String} {calls : List (Call F)}
    (written : rt.anchorText 0 ZERO_HMAC updatedAt = .ok text)
    (quiet : ∀ call ∈ calls, call.fault = .never) :
    (∀ before call after, calls = before ++ call :: after → rt.Upheld call (rt.ledger ⟨[], text⟩ before)) ↔
    ∀ before call after, calls = before ++ call :: after → rt.Careful call (rt.ledger ⟨[], text⟩ before) := by
  have start := Sane.opened written
  constructor
  · intro upheld
    have sane : ∀ before rest, calls = before ++ rest → rt.Sane (rt.ledger ⟨[], text⟩ before) := by
      intro before
      induction before using List.reverseRecOn with
      | nil => exact fun _ _ => start
      | append_singleton before call ih =>
        intro rest split
        rw [append_assoc] at split
        have here := ih _ split
        rw [ledger_concat]
        exact here.append (here.careful (quiet call (by simp [split])) (upheld before call rest split))
    intro before call after split
    exact (sane before _ split).careful (quiet call (by simp [split])) (upheld before call after split)
  · intro careful before call after split
    have sane : rt.Sane (rt.ledger ⟨[], text⟩ before) := by
      refine start.run fun first other rest inner => careful first other (rest ++ call :: after) ?_
      rw [split, inner, append_assoc, cons_append]
    exact sane.upheld (quiet call (by simp [split])) (careful before call after split)

end Platform

def firstCall (action : String) (fault : Fault) : Call FloatText :=
  ⟨eventOf (eventName "1") action, false, loginTime, fault⟩

theorem opened_plain : ∃ text, plain.anchorText 0 ZERO_HMAC loginTime = .ok text :=
  ⟨_, plain.anchorText_eq 0 ZERO_HMAC loginTime⟩

theorem eventOf_plain (name action : String) : (eventOf name action).Plain := by
  simp [eventOf, Value.object, Value.Plain, PlainEntries, Key.isStr]

theorem calls_accepted :
    (match plain.normalizeEvent (firstCall "login" .never).event with
      | .ok normalized => isText (normalized.event.get "eventId") (some (eventName "1")) &&
          isText (normalized.event.get "ts") (some loginTime) &&
          isText (normalized.event.get "action") (some "login") &&
          isText (normalized.event.get "request_id") none
      | .error _ => false) = true ∧
    (match plain.normalizeEvent (firstCall " login " .never).event with
      | .ok normalized => isText (normalized.event.get "action") (some " login ")
      | .error _ => false) = true := by
  decide +kernel

theorem login_spelled : ∃ normalized, plain.normalizeEvent (firstCall "login" .never).event = .ok normalized ∧
      plain.Spelled normalized := by
  have checked := calls_accepted.1
  cases accepted : plain.normalizeEvent (firstCall "login" .never).event with
  | error why => simp [accepted] at checked
  | ok normalized =>
    simp only [accepted, Bool.and_eq_true, Platform.isText_some] at checked
    obtain ⟨⟨⟨eventId, ts⟩, action⟩, requestId⟩ := checked
    have facts := plain.normalizeEvent_ok accepted
    refine ⟨normalized, rfl, ⟨_, eventId⟩, ⟨_, ts⟩, ⟨_, action, by decide⟩, ?_, ?_⟩
    · cases missing : normalized.event.get "request_id" with
      | none => exact .inl rfl
      | str text => exact .inr ⟨text, rfl⟩
      | _ => simp [missing, isText] at requestId
    · exact plain.plain_encoded (eventOf_plain _ _) facts

theorem login_careful (fault : Fault) (away : ∀ why, fault ≠ .between why) (text : String) :
    ∀ before call after, [firstCall "login" fault] = before ++ call :: after →
      plain.Careful call (plain.ledger ⟨[], text⟩ before) := by
  intro before call after split
  cases before with
  | nil =>
    cases split
    obtain ⟨normalized, accepted, spelled⟩ := login_spelled
    intro other again _
    cases accepted.symm.trans again
    exact ⟨spelled, away⟩
  | cons first rest => simp at split

theorem stays_verifiable_iff_login : ∃ text, plain.anchorText 0 ZERO_HMAC loginTime = .ok text ∧
    plain.Upheld (firstCall "login" .never) ⟨[], text⟩ := by
  obtain ⟨text, written⟩ := opened_plain
  have quiet : ∀ call ∈ [firstCall "login" .never], call.fault = .never := by simp [firstCall]
  exact ⟨text, written, (Platform.stays_verifiable_iff written quiet).mpr
    (login_careful .never (by simp) text) [] _ [] rfl⟩

theorem spaced_action_poisons : ∃ text, plain.anchorText 0 ZERO_HMAC loginTime = .ok text ∧
    ∃ receipt next, plain.append (firstCall " login " .never) ⟨[], text⟩ = (.ok receipt, next) ∧
      ∀ result, plain.verify next ≠ .ok result := by
  have spaced := calls_accepted.2
  obtain ⟨text, written⟩ := opened_plain
  cases accepted : plain.normalizeEvent (firstCall " login " .never).event with
  | error why => simp [accepted] at spaced
  | ok normalized =>
    simp only [accepted, Platform.isText_some] at spaced
    have odd : ¬ plain.Spelled normalized := by
      intro spelled
      obtain ⟨action, same, whole⟩ := spelled.action
      cases spaced.symm.trans same
      exact absurd whole (by decide)
    have quiet : (firstCall " login " .never).fault = .never := rfl
    exact ⟨text, written, (Platform.Sane.opened written).poisoned quiet accepted not_mem_nil odd⟩

namespace Platform

variable {rt : Platform F}

/-- In a careful run an append that raises leaves the ledger as it was, or with the event and its
anchor, and in both cases it verifies and the next valid event is appended. -/
theorem raising_append_recovers {updatedAt text : String} {calls : List (Call F)}
    (written : rt.anchorText 0 ZERO_HMAC updatedAt = .ok text)
    (careful : ∀ before call after, calls = before ++ call :: after → rt.Careful call (rt.ledger ⟨[], text⟩ before)) :
    ∀ before call after why, calls = before ++ call :: after →
      (rt.append call (rt.ledger ⟨[], text⟩ before)).1 = .error why →
      ∃ next, rt.append call (rt.ledger ⟨[], text⟩ before) = (.error why, next) ∧
        (∃ result, rt.verify next = .ok result) ∧
        (∀ later normalized, later.fault = .never → rt.normalizeEvent later.event = .ok normalized →
          (normalized.eventId ∉ next.rows.map Row.eventId ∨ ∃ row ∈ next.rows,
            row.eventId = normalized.eventId ∧ row.eventJson = normalized.encoded) →
          ∃ receipt, (rt.append later next).1 = .ok receipt) ∧
        (next = rt.ledger ⟨[], text⟩ before ∨ ∃ normalized, rt.normalizeEvent call.event = .ok normalized ∧
            next.rows = (rt.ledger ⟨[], text⟩ before).rows ++
              [rt.nextRow (rt.ledger ⟨[], text⟩ before).rows normalized] ∧
            rt.AnchoredAt next next.rows.length (place next.rows).1) := by
  intro before call after why split raised
  have sane : rt.Sane (rt.ledger ⟨[], text⟩ before) := by
    refine (Sane.opened written).run fun first other rest inner =>
      careful first other (rest ++ call :: after) ?_
    rw [split, inner, append_assoc, cons_append]
  have next := sane.append (careful before call after split)
  refine ⟨_, Prod.ext raised rfl, (rt.verify_iff next.toLevel).mpr next.verified, ?_, ?_⟩
  · rintro later normalized quiet accepted (fresh | ⟨row, member, same, encoded⟩)
    · obtain ⟨_, appended, -⟩ := next.append_fresh quiet accepted fresh
      exact ⟨_, congrArg Prod.fst appended⟩
    · have digest := next.chain.digest row member
      rw [encoded] at digest
      exact ⟨_, congrArg Prod.fst (next.append_known quiet accepted member same digest)⟩
  · have outcome : Outcome rt call _ (rt.append call _) := append_outcome sane.toLevel
    generalize rt.append call (rt.ledger ⟨[], text⟩ before) = result at outcome next raised
    cases outcome with
    | refused => exact .inl rfl
    | known => exact .inl rfl
    | stranded _ normalized between accepted fresh =>
      exact absurd between ((careful before call after split normalized accepted fresh).2 _)
    | added _ _ normalized accepted =>
      exact .inr ⟨normalized, accepted, rfl, next.anchored⟩

/-- After a failure between the commit and the anchor nothing verifies and every append raises. -/
theorem Sane.stranded {disk : Disk} {call : Call F} {normalized : Normalized F} {why : Exception}
    (sane : rt.Sane disk) (between : call.fault = .between why)
    (accepted : rt.normalizeEvent call.event = .ok normalized)
    (fresh : normalized.eventId ∉ disk.rows.map Row.eventId) :
    ∃ next, rt.append call disk = (.error why, next) ∧ (∀ result, rt.verify next ≠ .ok result) ∧
      ∀ later, ∃ other, rt.append later next = (.error other, next) := by
  have linked := rt.linked_nextRow disk.rows normalized
  have chain := sane.chain.concat linked
  have appended : rt.append call disk =
      (.error why, ⟨disk.rows ++ [rt.nextRow disk.rows normalized], disk.anchor⟩) := by
    rw [sane.append_new accepted fresh (by simp [between]), finish, insert_ok sane.chain linked fresh, between]
  have anchored : rt.AnchoredAt ⟨disk.rows ++ [rt.nextRow disk.rows normalized], disk.anchor⟩
    disk.rows.length (place disk.rows).1 := sane.anchored
  refine ⟨_, appended, fun result verified => ?_, fun later => ?_⟩
  · obtain ⟨-, document, read, number, -⟩ := anchored
    obtain ⟨head, -, rest⟩ := result_bind.mp verified
    have apart : ¬ (disk.rows.length : Int) = disk.rows.length + 1 := by omega
    simp [read, number, Runtime.int, bind, Except.bind, runtimeError, apart] at rest
  · cases admitted : rt.admitEvent later.event later.verifyChain
      ⟨disk.rows ++ [rt.nextRow disk.rows normalized], disk.anchor⟩ with
    | error other =>
      rw [Platform.append]
      split
      next early _ => exact ⟨early, rfl⟩
      next => exact ⟨other, by simp only [admitted]⟩
    | ok admission =>
      obtain ⟨_, -, -, ⟨level, -⟩, -⟩ := (admit_iff chain anchored).mp admitted
      simp only [length_append, length_singleton] at level
      omega

end Platform

theorem stranded_append : ∃ text, plain.anchorText 0 ZERO_HMAC loginTime = .ok text ∧
    ∃ why next, plain.append (firstCall "login" (.between ⟨.runtimeError, "disk full"⟩))
        ⟨[], text⟩ = (.error why, next) ∧
      (∀ result, plain.verify next ≠ .ok result) ∧
      ∀ later, ∃ other, plain.append later next = (.error other, next) := by
  obtain ⟨normalized, accepted, -⟩ := login_spelled
  obtain ⟨text, written⟩ := opened_plain
  have between : (firstCall "login" (.between ⟨.runtimeError, "disk full"⟩)).fault =
    .between ⟨.runtimeError, "disk full"⟩ := rfl
  obtain ⟨next, raised, verifies, later⟩ :=
    (Platform.Sane.opened written).stranded between accepted (by simp)
  exact ⟨text, written, _, next, raised, verifies, later⟩

theorem raising_append_recovers_login : ∃ text why next, plain.anchorText 0 ZERO_HMAC loginTime = .ok text ∧
    plain.append (firstCall "login" (.late why)) ⟨[], text⟩ = (.error why, next) ∧
    ∃ result, plain.verify next = .ok result := by
  obtain ⟨normalized, accepted, -⟩ := login_spelled
  obtain ⟨text, written⟩ := opened_plain
  let why : Exception := ⟨.runtimeError, "chmod"⟩
  have sane := Platform.Sane.opened written
  have fresh : normalized.eventId ∉ (⟨[], text⟩ : Disk).rows.map Row.eventId := by simp
  have raised : (plain.append (firstCall "login" (.late why)) ⟨[], text⟩).1 = .error why := by
    obtain ⟨_, wrote, -⟩ := sane.toLevel.next normalized loginTime
    have same : plain.normalizeEvent (firstCall "login" (.late why)).event = .ok normalized :=
      accepted
    rw [sane.append_new same fresh (by simp [firstCall]), Platform.finish,
      Platform.insert_ok sane.chain (plain.linked_nextRow _ _) fresh]
    simp only [firstCall, wrote]
  obtain ⟨next, appended, verifies, -⟩ := Platform.raising_append_recovers written
    (login_careful (.late why) (by simp) text) [] _ [] why rfl raised
  exact ⟨text, why, next, written, appended, verifies⟩

/-- What the codes of the chain are over, and the code. -/
def Row.signed (row : Row) : Int × String × String × String :=
  (row.sequence, row.eventSha256, row.previousHmacSha256, row.eventHmacSha256)

namespace Platform

variable {rt : Platform F}

theorem verifyRow_previous {previous : String} {expected : Int} {row : Row}
    (passed : rt.verifyRow previous expected row = .ok ()) : row.previousHmacSha256 = previous := by
  rw [verifyRow, runtimeError_guard] at passed
  replace passed := passed.2
  split at passed
  · cases passed
  · obtain ⟨encoded, -, passed⟩ := result_bind.mp passed
    replace passed := (runtimeError_guard.mp passed).2
    split at passed
    · cases passed
    · obtain ⟨same, -⟩ := runtimeError_guard.mp (runtimeError_guard.mp passed).2
      exact (not_not.mp same).symm

theorem verify_ok {rows : List Row} {anchor : String} {found : Int × String}
    (verified : rt.verify ⟨rows, anchor⟩ = .ok found) :
    rt.Verified rows ∧ found = ((rows.length : Int), (place rows).1) ∧ ∃ document, rt.readAnchor anchor = .ok document ∧
      rt.int (document.get "sequence") = .ok (rows.length : Int) ∧
      document.get "headHmacSha256" = .str (place rows).1 := by
  obtain ⟨head, chain, rest⟩ := result_bind.mp verified
  obtain ⟨passed, rfl⟩ := (@verifyRows_ok F rt rows (ZERO_HMAC, 1) head).mp chain
  obtain ⟨document, read, rest⟩ := result_bind.mp rest
  obtain ⟨sequence, number, rest⟩ := result_bind.mp rest
  obtain ⟨level, rest⟩ := runtimeError_guard.mp rest
  obtain ⟨same, compared, rest⟩ := result_bind.mp rest
  obtain ⟨holds, rest⟩ := runtimeError_guard.mp rest
  refine ⟨passed, (Except.ok.inj rest).symm, document, read, not_not.mp level ▸ number, ?_⟩
  unfold compareDigest at compared
  split at compared
  next other named =>
    split at compared
    · cases compared
      rw [named, place, of_decide_eq_true ((Bool.not_eq_false _).mp holds)]
    · cases compared
  next => cases compared

/-- Two chains of one length that end in one code are signed alike, or two of their rows collide. -/
theorem Verified.alike {rows others : List Row} (one : rt.Verified rows) (two : rt.Verified others)
    (many : rows.length = others.length) (same : (place rows).1 = (place others).1) :
    rows.map Row.signed = others.map Row.signed ∨ ∃ row ∈ rows, ∃ other ∈ others,
      row.eventHmacSha256 = other.eventHmacSha256 ∧ row.signed ≠ other.signed := by
  induction rows using List.reverseRecOn generalizing others with
  | nil => exact .inl (by rw [length_eq_zero_iff.mp many.symm])
  | append_singleton rows row ih =>
    rcases eq_nil_or_concat' others with rfl | ⟨others, other, rfl⟩
    · simp at many
    obtain ⟨before, last, -⟩ := Sound.append.mp one
    obtain ⟨earlier, final, -⟩ := Sound.append.mp two
    rw [place_concat, place_concat] at same
    by_cases signed : row.signed = other.signed
    · -- equal rows name one code before them
      have previous : (place rows).1 = (place others).1 := by
        have names := congrArg (fun columns => columns.2.2.1) signed
        exact (verifyRow_previous last).symm.trans (names.trans (verifyRow_previous final))
      rcases ih before earlier (by simpa using many) previous with alike | ⟨first, member, second, present, clash⟩
      · exact .inl (by rw [map_append, map_append, alike, map_singleton, map_singleton, signed])
      · exact .inr ⟨first, mem_append_left _ member, second, mem_append_left _ present, clash⟩
    · exact .inr ⟨row, by simp, other, by simp, same, signed⟩

/-- An anchor fixes the ledger: of two that verify with it the events have the same numbers, digests and
codes, unless the code of one is the code of another event. -/
theorem anchor_fixes (rt : Platform F) (rows others : List Row) (anchor : String) :
    match rt.verify ⟨rows, anchor⟩, rt.verify ⟨others, anchor⟩ with
    | .ok found, .ok also => found = also ∧ (rows.map Row.signed = others.map Row.signed ∨
        ∃ row ∈ rows, ∃ other ∈ others, row.eventHmacSha256 = other.eventHmacSha256 ∧ row.signed ≠ other.signed)
    | _, _ => True := by
  cases one : rt.verify ⟨rows, anchor⟩ with
  | error why => trivial
  | ok found =>
    cases two : rt.verify ⟨others, anchor⟩ with
    | error why => trivial
    | ok also =>
      obtain ⟨chain, rfl, document, read, number, code⟩ := verify_ok one
      obtain ⟨other, rfl, _, again, count, same⟩ := verify_ok two
      cases read.symm.trans again
      have many := Except.ok.inj (number.symm.trans count)
      have heads := Value.str.inj (code.symm.trans same)
      exact ⟨by rw [many, heads], chain.alike other (by exact_mod_cast many) heads⟩

end Platform

end Dash.Audit
