import Dash.Intelligence.Batch
import Dash.Python.Calendar

/-! A batch against single calls: the same ledger, every source once, and a chain that verifies unless a time is
negative zero. A row is signed over the times that were bound, and verified over those that its columns give back.
-/

set_option autoImplicit false

namespace Dash.Intelligence

open Dash.Python Dash.Foundation
open Foundation.Transaction (bind_ok commit_induction guard_ok lift_bind)

variable {F : Type}

theorem membersOf_perm {row : Row F} {occurred ingested other another : FloatText} {scope data : Document} :
    (Signer.membersOf row occurred ingested scope data).Perm (Signer.membersOf row other another scope data) ↔
      occurred = other ∧ ingested = another := by
  constructor
  · intro perm
    have one : ("occurredAt", Document.float occurred) ∈ Signer.membersOf row other another scope data :=
      perm.subset (by simp [Signer.membersOf])
    have two : ("ingestedAt", Document.float ingested) ∈ Signer.membersOf row other another scope data :=
      perm.subset (by simp [Signer.membersOf])
    exact ⟨by simpa [Signer.membersOf] using one, by simpa [Signer.membersOf] using two⟩
  · rintro ⟨rfl, rfl⟩
    exact .refl _

theorem membersOf_distinct (row : Row F) (occurred ingested : FloatText) (scope data : Document) :
    ((Signer.membersOf row occurred ingested scope data).map Prod.fst).Nodup := by
  have names : (["id", "occurredAt", "ingestedAt", "action", "kind", "category", "impact", "ok", "actor", "source",
    "sourceFingerprint", "incidentKey", "isChange", "scope", "data", "previousSignature"] : List String).Nodup := by
    decide
  exact names

namespace Signer

variable (rt : Signer F)

def Keeps (time : F) : Prop := rt.floatText time ≠ minusZero

def Readable (row : Row F) : Prop := rt.Keeps row.occurredAt ∧ rt.Keeps row.ingestedAt

instance (time : F) : Decidable (rt.Keeps time) := inferInstanceAs (Decidable (_ ≠ _))

instance (row : Row F) : Decidable (rt.Readable row) := inferInstanceAs (Decidable (_ ∧ _))

def Sealed (previous : Option String) (row : Row F) : Prop :=
  ∃ draft, rt.Written draft ∧ row = rt.signedRow draft previous

def Chained : Option String → Rows F → Prop
  | _, [] => True
  | previous, row :: rest => rt.Sealed previous row ∧ Chained (some row.signature) rest

theorem readBack_keeps (zero : rt.floatText (rt.floatOf plusZero) = plusZero) (time : F) :
    rt.floatText (rt.readBack time) = rt.floatText time ↔ rt.Keeps time := by
  unfold readBack Keeps
  split
  · next minus =>
    rw [zero, minus]
    exact ⟨fun same => absurd same (by decide), fun different => absurd rfl different⟩
  · next other => exact ⟨fun _ => other, fun _ => rfl⟩

section

variable (injective : Function.Injective rt.hmacValue) (zero : rt.floatText (rt.floatOf plusZero) = plusZero)
include injective zero

theorem row_verifies {previous : Option String} {row : Row F} (signed : rt.Sealed previous row) :
    row.previousSignature = previous ∧ ∃ document signature, rt.documentOf row = .ok document ∧
      rt.sign document = .ok signature ∧ (signature = row.signature ↔ rt.Readable row) := by
  obtain ⟨draft, ⟨dataDoc, payload, settled, encoded⟩, rfl⟩ := signed
  obtain ⟨scopeDoc, scopes, scopeSettled⟩ := rt.scope_text draft
  have scopeText : rt.textOf (scopeOfDraft draft) = String.ofList (scopeDoc.text true) := by
    obtain ⟨document, written, same⟩ := (rt.dumps_ok).mp (rt.dumps_textOf scopes)
    rw [scopes] at written
    cases written
    exact same
  have bound := rt.document_written (rt.signedRow draft previous) draft.occurred draft.details.ingested scopes payload
  have given := rt.document_written (rt.signedRow draft previous) (rt.readBack draft.occurred)
    (rt.readBack draft.details.ingested) (rt.jsonable_ofDocument scopeDoc scopeSettled)
    (rt.jsonable_ofDocument dataDoc settled)
  have dumped := (@Runtime.dumps_ok F rt.toRuntime true _ _).mpr ⟨_, given, rfl⟩
  have signed : (rt.signedRow draft previous).signature = rt.hmacValue (String.ofList ((Document.object
      ((membersOf (rt.signedRow draft previous) (rt.floatText draft.occurred) (rt.floatText draft.details.ingested)
        scopeDoc dataDoc).insertionSort byName)).text true)) := by
    obtain ⟨document, written, same⟩ := (rt.dumps_ok).mp (rt.dumps_textOf bound)
    rw [bound] at written
    cases written
    exact congrArg rt.hmacValue same
  have documented : rt.documentOf (rt.signedRow draft previous) = .ok ((rt.signedRow draft previous).document
      (rt.readBack draft.occurred) (rt.readBack draft.details.ingested) (rt.ofDocument scopeDoc)
      (rt.ofDocument dataDoc)) := by
    change (do
      let scope ← rt.loads (rt.textOf (scopeOfDraft draft))
      let data ← rt.loads draft.details.columns.encoded
      .ok ((rt.signedRow draft previous).document (rt.readBack draft.occurred) (rt.readBack draft.details.ingested)
        scope data) : Result (Value F)) = _
    rw [scopeText, encoded, rt.loads_text, rt.loads_text]
    rfl
  refine ⟨rfl, _, _, documented, (congrArg (Except.map rt.hmacValue) dumped).trans rfl, ?_⟩
  rw [signed, injective.eq_iff]
  have texts : ∀ first second : Document, String.ofList (first.text true) = String.ofList (second.text true) ↔
      first = second := fun first second => ⟨Runtime.ofList_text_injective true, fun same => by rw [same]⟩
  rw [texts, Document.object.injEq, sorted_eq_iff_perm (membersOf_distinct _ _ _ _ _), membersOf_perm,
    rt.readBack_keeps zero, rt.readBack_keeps zero]
  exact Iff.rfl

theorem verifyFrom_chained {previous : Option String} {rows : Rows F} (chained : rt.Chained previous rows) :
    rt.verifyFrom previous rows = .ok (decide (∀ row ∈ rows, rt.Readable row)) := by
  induction rows generalizing previous with
  | nil => exact congrArg Except.ok (decide_eq_true (fun _ impossible => nomatch impossible)).symm
  | cons row rest ih =>
    obtain ⟨head, document, signature, documented, signed, same⟩ := rt.row_verifies injective zero chained.1
    refine result_bind.mpr ⟨document, documented, result_bind.mpr ⟨signature, signed,
      result_bind.mpr ⟨_, ih chained.2, ?_⟩⟩⟩
    rw [decide_eq_true head, Bool.true_and, decide_eq_decide.mpr same, ← Bool.decide_and]
    exact congrArg Except.ok (decide_eq_decide.mpr List.forall_mem_cons.symm)

theorem eventChainValid_iff {rows : Rows F} (chained : rt.Chained none rows) :
    rt.eventChainValid rows = .ok true ↔ ∀ row ∈ rows, rt.Readable row := by
  rw [eventChainValid, rt.verifyFrom_chained injective zero chained, Except.ok.injEq, decide_eq_true_eq]

end

theorem chained_append {previous : Option String} {rows : Rows F} {row : Row F} (chained : rt.Chained previous rows)
    (signed : rt.Sealed ((lastSignature rows).or previous) row) : rt.Chained previous (rows ++ [row]) := by
  induction rows generalizing previous with
  | nil => exact ⟨signed, trivial⟩
  | cons first rest ih =>
    refine ⟨chained.1, ih chained.2 ?_⟩
    have heads : (lastSignature (first :: rest)).or previous = (lastSignature rest).or (some first.signature) := by
      cases rest with
      | nil => rfl
      | cons second others =>
        rw [lastSignature, lastSignature, List.getLast?_cons_cons]
        cases found : (second :: others).getLast? with
        | none => cases List.getLast?_eq_none_iff.mp found
        | some last => rfl
    rwa [heads] at signed

structure Sound (rows : Rows F) : Prop where
  chained : rt.Chained none rows
  sources : (rows.map Row.sourceFingerprint).Nodup

theorem Sound.append {rt : Signer F} {rows : Rows F} (sound : rt.Sound rows) {draft : Draft F}
    (written : rt.Written draft) (fresh : draft.sourceFingerprint ∉ rows.map Row.sourceFingerprint) :
    rt.Sound (rows ++ [rt.signedRow draft (lastSignature rows)]) where
  chained := by
    refine rt.chained_append sound.chained ⟨draft, written, ?_⟩
    rw [Option.or_none]
  sources := by
    have new : (rt.signedRow draft (lastSignature rows)).sourceFingerprint ∉ rows.map Row.sourceFingerprint := fresh
    exact Table.insert_keys sound.sources new

variable {rows after : Rows F}

theorem insertNew_sound (sound : rt.Sound rows) {draft : Draft F} (written : rt.Written draft)
    {value : Unit} (done : rt.insertNew draft rows = .ok (value, after)) : rt.Sound after := by
  by_cases known : draft.sourceFingerprint ∈ rows.map Row.sourceFingerprint
  · rw [rt.insertNew_known known] at done
    cases done
    exact sound
  · obtain ⟨-, -, -, rfl⟩ := (rt.insertNew_fresh written known).mp done
    exact sound.append written known

theorem insertMany_sound {drafts : List (Draft F)} (written : ∀ draft ∈ drafts, rt.Written draft) {known : List String}
    {count : Nat} (sound : rt.Sound rows) {imported : Imported}
    (done : rt.insertMany drafts known (lastSignature rows) count rows = .ok (imported, after)) : rt.Sound after := by
  induction drafts generalizing known count rows imported with
  | nil =>
    cases done
    exact sound
  | cons draft rest ih =>
    obtain ⟨head, tail⟩ := List.forall_mem_cons.mp written
    rw [insertMany] at done
    split at done
    · obtain ⟨others, middle, done, same⟩ := bind_ok.mp done
      cases same
      exact ih tail sound done
    · rw [guard_ok] at done
      obtain ⟨signature, middle, inserted, done⟩ := bind_ok.mp done.2
      obtain ⟨-, -, fresh, rfl, rfl⟩ := (rt.insertPrepared_ok head).mp inserted
      obtain ⟨others, last, done, same⟩ := bind_ok.mp done
      cases same
      rw [← lastSignature_append] at done
      exact ih tail (sound.append head fresh) done

theorem prepareMany_written {source : String} {ingestedAt : Value F} {skipInvalid : Bool}
    {offered : List (Value F × String)} {drafts : List (Draft F)}
    (made : rt.ledger.prepareMany source ingestedAt skipInvalid offered = .ok drafts) :
    ∀ draft ∈ drafts, rt.Written draft := by
  induction offered generalizing drafts with
  | nil =>
    cases made
    exact fun _ impossible => nomatch impossible
  | cons offer rest ih =>
    rw [Platform.prepareMany] at made
    split at made
    · next draft prepared =>
      cases others : rt.ledger.prepareMany source ingestedAt skipInvalid rest with
      | error why =>
        rw [others] at made
        cases made
      | ok later =>
        rw [others] at made
        cases made
        exact List.forall_mem_cons.mpr ⟨(rt.prepare_parts prepared).1, ih others⟩
    · split at made
      · exact ih made
      · cases made

theorem perform_sound (sound : rt.Sound rows) {call : Call F} {value : Unit}
    (done : rt.perform call rows = .ok (value, after)) : rt.Sound after := by
  cases call with
  | record rawEvent source ingestedAt eventId =>
    obtain ⟨draft, prepared, done⟩ := lift_bind.mp done
    exact rt.insertNew_sound sound (rt.prepare_parts prepared).1 done
  | recordMany rawEvents source ingestedAt skipInvalid =>
    obtain ⟨imported, middle, done, same⟩ := bind_ok.mp done
    cases same
    unfold recordMany at done
    rw [guard_ok] at done
    obtain ⟨drafts, prepared, done⟩ := lift_bind.mp done.2
    exact rt.insertMany_sound (rt.prepareMany_written prepared) sound done

theorem run_sound (calls : List (Call F)) : rt.Sound (rt.run calls) := by
  induction calls using List.reverseRecOn with
  | nil => exact ⟨trivial, List.nodup_nil⟩
  | append_singleton calls call ih =>
    rw [run, List.foldl_append]
    exact commit_induction rt.Sound ih fun _ _ done => rt.perform_sound ih done

end Signer

open List

namespace Signer

variable (rt : Signer F)

def Valid (source : String) (ingestedAt : Value F) (event : Value F) : Prop :=
  ∃ draft, rt.ledger.prepare event source ingestedAt "" = .ok draft ∧ rt.Insertable draft

/-- Identifiers drawn for the events, none of them in the ledger. -/
structure Drawn (rows : Rows F) (events : List (Value F)) (ids : List String) : Prop where
  each : ids.length = events.length
  distinct : ids.Nodup
  unused : ∀ id ∈ ids, id ∉ rows.map Row.id

/-- One call of `record` after the other. -/
def recordEach (offered : List (Value F × String)) (source : String) (ingestedAt : Value F) (rows : Rows F) : Rows F :=
  offered.foldl (fun rows offer => (rt.record offer.1 source ingestedAt offer.2).commit rows) rows

def newEvents (rows : Rows F) (events : List (Value F)) : List (Value F) :=
  firsts rt.sourceOf (rows.map Row.sourceFingerprint) events

def bare (row : Row F) : Row F := { row with id := "", previousSignature := none, signature := "" }

/-- What a batch does is what single calls do, and both leave a chain that verifies. -/
structure Agrees (rows : Rows F) (events : List (Value F)) (source : String) (ingestedAt : Value F)
    (skipInvalid : Bool) (batchIds singleIds : List String) (after : Rows F) : Prop where
  returns : ∃ imported,
    rt.recordMany (events.zip batchIds) source ingestedAt skipInvalid rows = .ok (imported, after) ∧
    imported.inserted.length = (rt.newEvents rows events).length
  kept : rows <+: after ∧ rows <+: rt.recordEach (events.zip singleIds) source ingestedAt rows
  same : (rt.recordEach (events.zip singleIds) source ingestedAt rows).map bare = after.map bare
  exactly : batchIds = singleIds → rt.recordEach (events.zip singleIds) source ingestedAt rows = after
  once : after.length = rows.length + (rt.newEvents rows events).length ∧
    ∀ event ∈ events, after.countP (fun row => row.sourceFingerprint = rt.sourceOf event) = 1
  again : ∀ ids, ids.length = events.length → ∃ imported,
    rt.recordMany (events.zip ids) source ingestedAt skipInvalid after = .ok (imported, after) ∧ imported.inserted = []
  verifies : rt.eventChainValid after = .ok true ∧
    rt.eventChainValid (rt.recordEach (events.zip singleIds) source ingestedAt rows) = .ok true

def TimesKept (ingestedAt event : Value F) : Prop :=
  (∀ time, rt.epoch (event.get "ts") = .ok time → rt.Keeps time) ∧
    ∀ time, rt.epoch ingestedAt = .ok time → rt.Keeps time

def unnamed (draft : Draft F) : Draft F := { draft with eventId := "" }

structure Drafted (source : String) (ingestedAt : Value F) (ids : List String) (pairs : List (Value F × Draft F)) :
    Prop where
  prepared : ∀ pair ∈ pairs, rt.ledger.prepare pair.1 source ingestedAt pair.2.eventId = .ok pair.2
  insertable : ∀ pair ∈ pairs, rt.Insertable pair.2
  drawn : pairs.map (fun pair => pair.2.eventId) = ids

theorem drafted {source : String} {ingestedAt : Value F} {events : List (Value F)}
    (valid : ∀ event ∈ events, rt.Valid source ingestedAt event) {ids : List String}
    (each : ids.length = events.length) :
    ∃ pairs, pairs.map Prod.fst = events ∧ rt.Drafted source ingestedAt ids pairs := by
  induction events generalizing ids with
  | nil =>
    obtain rfl := length_eq_zero_iff.mp each
    exact ⟨[], rfl, (fun _ impossible => nomatch impossible), (fun _ impossible => nomatch impossible), rfl⟩
  | cons event rest ih =>
    cases ids with
    | nil => cases each
    | cons id others =>
      obtain ⟨⟨draft, prepared, insertable⟩, tail⟩ := forall_mem_cons.mp valid
      obtain ⟨pairs, firsts, later⟩ := ih tail (Nat.succ.inj each)
      refine ⟨(event, { draft with eventId := id }) :: pairs, ?_, ?_, ?_, ?_⟩
      · rw [map_cons, firsts]
      · exact forall_mem_cons.mpr ⟨rt.prepare_id prepared id, later.prepared⟩
      · exact forall_mem_cons.mpr ⟨insertable, later.insertable⟩
      · rw [map_cons, later.drawn]

section Pairs

variable {rt} {source : String} {ingestedAt : Value F} {ids : List String} {pairs : List (Value F × Draft F)}

theorem Drafted.tail {pair : Value F × Draft F} {id : String}
    (drafted : rt.Drafted source ingestedAt (id :: ids) (pair :: pairs)) :
    rt.Drafted source ingestedAt ids pairs where
  prepared := (forall_mem_cons.mp drafted.prepared).2
  insertable := (forall_mem_cons.mp drafted.insertable).2
  drawn := (List.cons.inj drafted.drawn).2

section

variable (drafted : rt.Drafted source ingestedAt ids pairs)
include drafted

theorem Drafted.sources : ∀ pair ∈ pairs, pair.2.sourceFingerprint = rt.sourceOf pair.1 :=
  fun pair member => (rt.prepare_parts (drafted.prepared pair member)).2.1

theorem Drafted.unnamed : pairs.map (fun pair => some (Signer.unnamed pair.2)) =
      (pairs.map Prod.fst).map fun event => (rt.ledger.prepare event source ingestedAt "").toOption := by
  rw [map_map]
  refine map_congr_left fun pair member => ?_
  have renamed := rt.prepare_id (drafted.prepared pair member) ""
  change _ = (rt.ledger.prepare pair.1 source ingestedAt "").toOption
  rw [renamed]
  rfl

theorem Drafted.prepareMany (skipInvalid : Bool) :
    rt.ledger.prepareMany source ingestedAt skipInvalid ((pairs.map Prod.fst).zip ids) = .ok (pairs.map Prod.snd) := by
  induction pairs generalizing ids with
  | nil => rfl
  | cons pair rest ih =>
    cases ids with
    | nil => cases drafted.drawn
    | cons id others =>
      obtain ⟨rfl, -⟩ := List.cons.inj drafted.drawn
      rw [map_cons, zip_cons_cons, Platform.prepareMany, (forall_mem_cons.mp drafted.prepared).1]
      rw [ih drafted.tail]
      rfl

theorem Drafted.recordEach (rows : Rows F) : rt.recordEach ((pairs.map Prod.fst).zip ids) source ingestedAt rows =
      (pairs.map Prod.snd).foldl (fun rows draft => (rt.insertNew draft).commit rows) rows := by
  induction pairs generalizing ids rows with
  | nil => rfl
  | cons pair rest ih =>
    cases ids with
    | nil => cases drafted.drawn
    | cons id others =>
      obtain ⟨rfl, -⟩ := List.cons.inj drafted.drawn
      have one : (rt.record pair.1 source ingestedAt pair.2.eventId).commit rows =
          (rt.insertNew pair.2).commit rows := by
        have prepared := (forall_mem_cons.mp drafted.prepared).1
        have same : rt.record pair.1 source ingestedAt pair.2.eventId rows = rt.insertNew pair.2 rows := by
          rw [record, prepared]
          rfl
        rw [Transaction.commit, same, Transaction.commit]
      rw [map_cons, zip_cons_cons, Signer.recordEach, foldl_cons, ← Signer.recordEach, one,
        ih drafted.tail, map_cons, foldl_cons]

theorem Drafted.firsts (rows : Rows F) :
    Foundation.firsts Prepared.sourceFingerprint (rows.map Row.sourceFingerprint) (pairs.map Prod.snd) =
        (Foundation.firsts (fun pair => rt.sourceOf pair.1) (rows.map Row.sourceFingerprint) pairs).map Prod.snd ∧
      rt.newEvents rows (pairs.map Prod.fst) =
        (Foundation.firsts (fun pair => rt.sourceOf pair.1) (rows.map Row.sourceFingerprint) pairs).map Prod.fst := by
  rw [newEvents, Firsts.map, Firsts.map, Firsts.congr_key drafted.sources]
  exact ⟨rfl, rfl⟩

theorem Drafted.ready {rows : Rows F} (drawn : Drawn rows (pairs.map Prod.fst) ids)
    (room : rows.length + (rt.newEvents rows (pairs.map Prod.fst)).length ≤ rt.maxEvents) :
    rt.Ready rows (pairs.map Prod.snd) where
  written draft member := by
    obtain ⟨pair, there, rfl⟩ := mem_map.mp member
    exact (rt.prepare_parts (drafted.prepared pair there)).1
  insertable draft member := by
    obtain ⟨pair, there, rfl⟩ := mem_map.mp member
    exact drafted.insertable pair there
  room := by
    obtain ⟨new, events⟩ := drafted.firsts rows
    rw [events, length_map] at room
    rwa [new, length_map]
  drawn := by
    rw [map_map]
    exact drafted.drawn ▸ drawn.distinct
  unused draft member := by
    obtain ⟨pair, there, rfl⟩ := mem_map.mp member
    refine drawn.unused _ ?_
    rw [← drafted.drawn]
    exact mem_map_of_mem (f := fun pair : Value F × Draft F => pair.2.eventId) there

theorem Drafted.recordMany (skipInvalid : Bool) (limit : pairs.length ≤ rt.historyImportLimit) (rows : Rows F) :
    rt.recordMany ((pairs.map Prod.fst).zip ids) source ingestedAt skipInvalid rows =
      rt.insertMany (pairs.map Prod.snd) (((pairs.map Prod.snd).map Prepared.sourceFingerprint).filter
        fun fingerprint => fingerprint ∈ rows.map Row.sourceFingerprint) (lastSignature rows) rows.length rows := by
  have few : ¬ rt.historyImportLimit < ((pairs.map Prod.fst).zip ids).length := by
    rw [← drafted.drawn, length_zip, length_map, length_map, Nat.min_self]
    exact not_lt.mpr limit
  rw [Signer.recordMany, if_neg few, drafted.prepareMany skipInvalid]
  rfl

end

end Pairs

section

variable (previous : Option String) (drafts : List (Draft F))
include previous drafts

theorem chain_sources :
    (rt.chain previous drafts).map Row.sourceFingerprint = drafts.map Prepared.sourceFingerprint := by
  induction drafts generalizing previous with
  | nil => rfl
  | cons draft rest ih =>
    rw [chain, map_cons, map_cons, ih]
    rfl

theorem chain_length : (rt.chain previous drafts).length = drafts.length := by
  have same := congrArg List.length (rt.chain_sources previous drafts)
  rwa [length_map, length_map] at same

theorem chain_bare : (rt.chain previous drafts).map bare = (drafts.map unnamed).map fun draft =>
      bare (rowOf draft (rt.textOf (scopeOfDraft draft)) none) := by
  induction drafts generalizing previous with
  | nil => rfl
  | cons draft rest ih =>
    rw [chain, map_cons, map_cons, map_cons, ih]
    rfl

theorem chain_readable : (∀ row ∈ rt.chain previous drafts, rt.Readable row) ↔
      ∀ draft ∈ drafts, rt.Keeps draft.occurred ∧ rt.Keeps draft.details.ingested := by
  induction drafts generalizing previous with
  | nil => exact ⟨fun _ _ impossible => (nomatch impossible), fun _ _ impossible => nomatch impossible⟩
  | cons draft rest ih =>
    rw [chain, forall_mem_cons, forall_mem_cons, ih]
    exact Iff.rfl

end

theorem insertMany_known {drafts : List (Draft F)} {known : List String}
    (all : ∀ draft ∈ drafts, draft.sourceFingerprint ∈ known) (previous : Option String) (count : Nat) (rows : Rows F) :
    rt.insertMany drafts known previous count rows = .ok (⟨[], drafts.length⟩, rows) := by
  induction drafts with
  | nil => rfl
  | cons draft rest ih =>
    obtain ⟨head, tail⟩ := forall_mem_cons.mp all
    rw [insertMany, if_pos head]
    exact Transaction.bind_ok.mpr ⟨_, _, ih tail, rfl⟩

theorem imports_sources (rows : Rows F) (drafts : List (Draft F)) (draft : Draft F) (member : draft ∈ drafts) :
    draft.sourceFingerprint ∈ (rt.imports rows drafts).map Row.sourceFingerprint := by
  rw [imports, map_append, mem_append, chain_sources, Firsts.mem_keys]
  by_cases known : draft.sourceFingerprint ∈ rows.map Row.sourceFingerprint
  · exact .inl known
  · exact .inr ⟨mem_map_of_mem member, known⟩

theorem imports_sound {rows : Rows F} (sound : rt.Sound rows) {drafts : List (Draft F)} (ready : rt.Ready rows drafts) :
    rt.Sound (rt.imports rows drafts) := by
  have knows := fun draft (_ : draft ∈ drafts) =>
    Iff.refl (draft.sourceFingerprint ∈ rows.map Row.sourceFingerprint)
  obtain ⟨imported, done, -⟩ := insertMany_imports ready knows
  exact rt.insertMany_sound ready.written sound done

/-- For every ledger that calls leave and all valid events that fit, a batch does what single calls do, and both
leave a chain that verifies exactly when no row has a time that its column changes: none had one, and no new event
brings one. A batch that raises stores none of its events. -/
theorem batch_agrees_iff (injective : Function.Injective rt.hmacValue)
    (zero : rt.floatText (rt.floatOf plusZero) = plusZero) (calls : List (Call F)) (events : List (Value F))
    (source : String) (ingestedAt : Value F) (skipInvalid : Bool)
    (valid : ∀ event ∈ events, rt.Valid source ingestedAt event) (limit : events.length ≤ rt.historyImportLimit)
    (room : (rt.run calls).length + (rt.newEvents (rt.run calls) events).length ≤ rt.maxEvents)
    (batchIds singleIds : List String) (batch : Drawn (rt.run calls) events batchIds)
    (single : Drawn (rt.run calls) events singleIds) :
    ((∃ after, rt.Agrees (rt.run calls) events source ingestedAt skipInvalid batchIds singleIds after) ↔
      (∀ row ∈ rt.run calls, rt.Readable row) ∧
        ∀ event ∈ rt.newEvents (rt.run calls) events, rt.TimesKept ingestedAt event) ∧
    ∀ offered why, rt.recordMany offered source ingestedAt skipInvalid (rt.run calls) = .error why →
      (rt.recordMany offered source ingestedAt skipInvalid).commit (rt.run calls) = rt.run calls := by
  refine ⟨?_, fun offered why failed => Transaction.commit_error failed⟩
  have sound := rt.run_sound calls
  generalize rt.run calls = rows at *
  obtain ⟨pairs, rfl, batched⟩ := rt.drafted valid batch.each
  obtain ⟨others, named, singly⟩ := rt.drafted valid single.each
  rw [length_map] at limit
  have ready := batched.ready batch room
  have alone := singly.ready (named.symm ▸ single) (named.symm ▸ room)
  have singles : rt.recordEach ((pairs.map Prod.fst).zip singleIds) source ingestedAt rows =
      rt.imports rows (others.map Prod.snd) := by
    rw [← named, singly.recordEach, each_imports alone]
  have knows : ∀ draft ∈ pairs.map Prod.snd, draft.sourceFingerprint ∈
      ((pairs.map Prod.snd).map Prepared.sourceFingerprint).filter (fun fingerprint =>
        fingerprint ∈ rows.map Row.sourceFingerprint) ↔
      draft.sourceFingerprint ∈ rows.map Row.sourceFingerprint := by
    intro draft member
    rw [mem_filter, decide_eq_true_iff, and_iff_right (mem_map_of_mem member)]
  obtain ⟨imported, done, inserted, -⟩ := insertMany_imports ready knows
  rw [← batched.recordMany skipInvalid limit] at done
  obtain ⟨newDrafts, newEvents⟩ := batched.firsts rows
  have fresh : (firsts Prepared.sourceFingerprint (rows.map Row.sourceFingerprint) (pairs.map Prod.snd)).length =
      (rt.newEvents rows (pairs.map Prod.fst)).length := by
    rw [newDrafts, newEvents, length_map, length_map]
  have after := rt.imports_sound sound ready
  have stored : ∀ event ∈ pairs.map Prod.fst,
      rt.sourceOf event ∈ (rt.imports rows (pairs.map Prod.snd)).map Row.sourceFingerprint := by
    intro event member
    obtain ⟨pair, there, rfl⟩ := mem_map.mp member
    rw [← batched.sources pair there]
    exact rt.imports_sources rows _ _ (mem_map_of_mem there)
  -- the new rows are those of the new events, with their times
  have times : (∀ row ∈ rt.imports rows (pairs.map Prod.snd), rt.Readable row) ↔ (∀ row ∈ rows, rt.Readable row) ∧
        ∀ event ∈ rt.newEvents rows (pairs.map Prod.fst), rt.TimesKept ingestedAt event := by
    rw [imports, forall_mem_append, chain_readable, newDrafts, newEvents, forall_mem_map, forall_mem_map]
    refine and_congr_right fun _ => forall₂_congr fun pair member => ?_
    obtain ⟨-, -, -, occurred, ingested⟩ := rt.prepare_parts (batched.prepared pair (Firsts.sublist.mem member))
    unfold TimesKept
    rw [occurred, ingested]
    exact ⟨fun both => ⟨fun _ same => Except.ok.inj same ▸ both.1, fun _ same => Except.ok.inj same ▸ both.2⟩,
      fun both => ⟨both.1 _ rfl, both.2 _ rfl⟩⟩
  -- the batch and the single imports prepare rows that differ in their drawn ids only
  have alike : (others.map Prod.snd).map unnamed = (pairs.map Prod.snd).map unnamed := by
    have both := singly.unnamed.trans ((congrArg _ named).trans batched.unnamed.symm)
    refine map_injective_iff.mpr (Option.some_injective _) ?_
    rw [map_map, map_map, map_map, map_map]
    exact both
  have same : (rt.imports rows (others.map Prod.snd)).map bare = (rt.imports rows (pairs.map Prod.snd)).map bare := by
    have new := congrArg (firsts Prepared.sourceFingerprint (rows.map Row.sourceFingerprint)) alike
    rw [Firsts.map unnamed (others.map Prod.snd), Firsts.map unnamed (pairs.map Prod.snd)] at new
    rw [imports, imports, map_append, map_append, chain_bare, chain_bare]
    exact congrArg _ (congrArg _ new)
  have readable : (∀ row ∈ rt.imports rows (others.map Prod.snd), rt.Readable row) ↔
      ∀ row ∈ rt.imports rows (pairs.map Prod.snd), rt.Readable row := by
    have both := congrArg (fun rows => ∀ row ∈ rows, rt.Readable row) same
    simp only [forall_mem_map] at both
    exact iff_of_eq both
  constructor
  · rintro ⟨left, agrees⟩
    obtain ⟨answer, returned, -⟩ := agrees.returns
    obtain ⟨-, rfl⟩ := Prod.mk.inj (Except.ok.inj (returned.symm.trans done))
    exact times.mp ((rt.eventChainValid_iff injective zero after.chained).mp agrees.verifies.1)
  · intro condition
    have kept := times.mpr condition
    refine ⟨rt.imports rows (pairs.map Prod.snd), ?_⟩
    refine ⟨⟨imported, done, inserted.trans fresh⟩, ?_, ?_, ?_, ⟨?_, ?_⟩, ?_, ?_, ?_⟩
    · exact ⟨prefix_append _ _, singles ▸ prefix_append _ _⟩
    · rw [singles]
      exact same
    · rintro rfl
      rw [batched.recordEach, each_imports ready]
    · rw [imports, length_append, chain_length, fresh]
    · intro event member
      have counted := count_eq_one_of_mem after.sources (stored event member)
      rw [List.count, countP_map] at counted
      exact counted
    · intro ids each
      -- a later batch of the same events finds the fingerprint of each
      obtain ⟨more, listed, again⟩ := rt.drafted valid each
      have few : more.length ≤ rt.historyImportLimit := by
        have lengths := congrArg List.length listed
        rw [length_map, length_map] at lengths
        exact lengths ▸ limit
      have all : ∀ draft ∈ more.map Prod.snd, draft.sourceFingerprint ∈
          ((more.map Prod.snd).map Prepared.sourceFingerprint).filter fun fingerprint =>
            fingerprint ∈ (rt.imports rows (pairs.map Prod.snd)).map Row.sourceFingerprint := by
        intro draft member
        refine mem_filter.mpr ⟨mem_map_of_mem member, decide_eq_true ?_⟩
        obtain ⟨pair, there, rfl⟩ := mem_map.mp member
        rw [again.sources pair there]
        exact stored _ (listed ▸ mem_map_of_mem there)
      refine ⟨⟨[], (more.map Prod.snd).length⟩, ?_, rfl⟩
      rw [← listed, again.recordMany skipInvalid few]
      exact rt.insertMany_known all _ _ _
    · exact (rt.eventChainValid_iff injective zero after.chained).mpr kept
    · rw [singles]
      exact (rt.eventChainValid_iff injective zero (rt.imports_sound sound alone).chained).mpr (readable.mpr kept)

theorem valid_of_prepared {source : String} {ingestedAt event : Value F}
    (made : (match rt.ledger.prepare event source ingestedAt "" with
      | .ok draft => (rt.iso draft.occurred).toBool && !rt.isNull draft.occurred && !rt.isNull draft.details.ingested
      | .error _ => false) = true) : rt.Valid source ingestedAt event := by
  split at made
  · next draft prepared =>
    obtain ⟨both, ingested⟩ := Bool.and_eq_true_iff.mp made
    obtain ⟨timed, occurred⟩ := Bool.and_eq_true_iff.mp both
    refine ⟨draft, prepared, ?_, by simpa using occurred, by simpa using ingested⟩
    cases written : rt.iso draft.occurred with
    | error why =>
      rw [written] at timed
      cases timed
    | ok text => exact ⟨text, rfl⟩
  · cases made

/-- A ledger without rules; its floats are their texts, and its digests the texts they are of. -/
def plainSigner : Signer FloatText where
  toRuntime := plainRuntime
  hmacValue := id
  ipAddress _ := false
  redactUrls := id
  redactBearer := id
  maxPayloadBytes := 65536
  fnmatch name pattern := name = pattern
  sha256 := id
  clock := .decimal false 1700000000 (.fraction digitZero)
  floatOfInt seconds := .ok (.decimal (decide (seconds < 0)) seconds.natAbs (.fraction digitZero))
  timestamp _ := valueError "Invalid isoformat string"
  iso
    | .decimal negative whole _ =>
      let seconds : Int := if negative then -whole else whole
      .ok (Calendar.isoformat (seconds / 86400) ++ "T" ++ Calendar.padded 2 (seconds % 86400 / 3600) ++ ":" ++
        Calendar.padded 2 (seconds % 3600 / 60) ++ ":" ++ Calendar.padded 2 (seconds % 60) ++ "+00:00")
    | _ => valueError "cannot convert float NaN to integer"
  rules := []
  maxEvents := 100
  historyImportLimit := 100

def restartAt (ts : Value FloatText) : Value FloatText :=
  .object [("action", .str "restart"), ("ts", ts), ("data", .object [("map", .str "Hagga")])]

/-- One event twice. -/
theorem batch_agrees_twice : ∃ after, plainSigner.Agrees [] [restartAt (.int 5), restartAt (.int 5)] "admin-audit"
    (.int 6) false ["change-1", "change-2"] ["change-3", "change-4"] after := by
  have valid : ∀ event ∈ [restartAt (.int 5), restartAt (.int 5)], plainSigner.Valid "admin-audit" (.int 6) event := by
    have one : plainSigner.Valid "admin-audit" (.int 6) (restartAt (.int 5)) :=
      plainSigner.valid_of_prepared (by decide +kernel)
    exact forall_mem_cons.mpr ⟨one, forall_mem_singleton.mpr one⟩
  have agrees := plainSigner.batch_agrees_iff Function.injective_id rfl [] [restartAt (.int 5), restartAt (.int 5)]
    "admin-audit" (.int 6) false valid (by decide) (by decide +kernel) ["change-1", "change-2"]
    ["change-3", "change-4"] ⟨rfl, by decide, fun _ _ impossible => nomatch impossible⟩
    ⟨rfl, by decide, fun _ _ impossible => nomatch impossible⟩
  refine agrees.1.mpr ⟨fun _ impossible => (nomatch impossible), fun event member => ?_⟩
  have same : event = restartAt (.int 5) := by simpa using Firsts.sublist.mem member
  subst same
  constructor
  · intro time made
    cases made
    decide
  · intro time made
    cases made
    decide

/-- An event at negative zero is recorded, by itself or in a batch, and the chain does not verify. -/
theorem minus_zero_breaks :
    plainSigner.eventChainValid (plainSigner.run [.recordMany [(restartAt (.float minusZero), "change-1")] "admin-audit"
        (.int 6) false]) = .ok false ∧
      plainSigner.eventChainValid (plainSigner.run [.record (restartAt (.float minusZero)) "admin-audit" (.int 6)
        "change-1"]) = .ok false := by
  decide +kernel

end Signer

end Dash.Intelligence
