import Dash.Drift.Effects

/-! Signatures of the rows of the store, the chain of its events, the critical flag of a change, and what
a change makes of its finding.
-/

set_option autoImplicit false

namespace Dash.Drift

open Dash.Python Dash.Foundation List
open Foundation.Transaction (lift_bind pure_ok read_bind write_ok)

variable {F : Type}

theorem Snapshot.payload_plain (snapshot : Snapshot F) : snapshot.payload.Plain := by
  obtain ⟨schema, files, containers⟩ := snapshot.plain
  apply plain_object
  · simp
  · intro field member
    simp only [mem_cons, not_mem_nil, or_false] at member
    rcases member with rfl | rfl | rfl
    · exact containers
    · exact files
    · exact schema

theorem plainItems_texts (ids : List String) : PlainItems (ids.map (Value.str : String → Value F)) := by
  induction ids with
  | nil => trivial
  | cons id rest ih => exact ⟨trivial, ih⟩

namespace Platform

theorem listed_plain (ids : List String) : (listed ids : Value F).Plain := by
  apply plain_object
  · simp
  · intro field member
    simp only [mem_cons, not_mem_nil, or_false] at member
    rcases member with rfl | rfl
    · exact plainItems_texts ids
    · trivial

variable {rt : Platform F}

theorem sign_congr {first second : Value F} (same : rt.jsonable first = rt.jsonable second) :
    rt.sign first = rt.sign second := by
  rw [sign, sign, canonical, canonical, Runtime.dumps, Runtime.dumps, same]

theorem sign_some {value : Value F} {signature : String} (signed : rt.sign value = .ok signature) : signature ≠ "" := by
  unfold sign at signed
  cases written : rt.canonical value with
  | error why =>
    rw [written] at signed
    cases signed
  | ok text =>
    rw [written] at signed
    cases signed
    exact rt.mac_some text

theorem Signed.valid {row : Finding F} (signed : rt.Signed row) : rt.findingValid row = .ok true := by
  have same : rt.findingSignature row = .ok row.signature := signed
  have some : row.signature ≠ "" := by
    have text := same
    simp only [findingSignature, result_bind] at text
    obtain ⟨details, -, written⟩ := text
    exact sign_some written
  rw [findingValid, if_neg some, same]
  simp [Except.map]

theorem allValid_of {α : Type} {valid : α → Result Bool} {rows : List α}
    (all : ∀ row ∈ rows, valid row = .ok true) : allValid valid rows = .ok true := by
  induction rows with
  | nil => rfl
  | cons row rest ih =>
    have others := ih fun other member => all other (mem_cons_of_mem _ member)
    simp only [allValid, result_bind, Except.ok.injEq]
    exact ⟨true, all row mem_cons_self, true, others, rfl⟩

theorem baselineValid_written {row : Baseline F} {snapshot : Value F} (plain : snapshot.Plain)
    (written : rt.canonical snapshot = .ok row.snapshotJson)
    (digest : row.snapshotSha256 = rt.sha256 row.snapshotJson)
    (signed : rt.sign (baselineValue row snapshot) = .ok row.signature) :
    rt.baselineValid row = .ok true := by
  obtain ⟨document, encoded, loaded, again⟩ := rt.dumps_loads plain written
  have same : rt.jsonable (rt.ofDocument document) = rt.jsonable snapshot := again.trans encoded.symm
  have text : rt.canonical (rt.ofDocument document) = .ok row.snapshotJson := by
    rw [← written, canonical, canonical, Runtime.dumps, Runtime.dumps, same]
  have values : rt.jsonable (baselineValue row (rt.ofDocument document)) =
      rt.jsonable (baselineValue row snapshot) := by
    simp [baselineValue, Value.object, Runtime.jsonable, Runtime.jsonableEntries, same]
  simp only [baselineValid, result_bind, Except.ok.injEq]
  exact ⟨_, loaded, _, text, _, (sign_congr values).trans signed, by simp [digest]⟩

def EventSigned (rt : Platform F) (row : Event F) : Prop :=
  ∃ payload, rt.loads row.payloadJson = .ok payload ∧ rt.sign (eventValue row payload) = .ok row.signature

theorem chainValid_snoc {rows : List (Event F)} {row : Event F} {previous : Option String}
    (chained : rt.chainValid previous rows = .ok true)
    (linked : row.previousSignature = (rows.getLast?.map Event.signature).or previous)
    (signed : rt.EventSigned row) : rt.chainValid previous (rows ++ [row]) = .ok true := by
  induction rows generalizing previous with
  | nil =>
    obtain ⟨payload, loaded, text⟩ := signed
    simp only [nil_append, chainValid, result_bind, Except.ok.injEq]
    exact ⟨payload, loaded, _, text, true, rfl, by simp [linked]⟩
  | cons first rest ih =>
    simp only [chainValid, result_bind, Except.ok.injEq, Bool.and_eq_true, decide_eq_true_eq] at chained
    obtain ⟨payload, loaded, signature, text, others, more, ⟨link, same⟩, rfl⟩ := chained
    have later := ih more (by
      rw [linked, List.getLast?_cons]
      cases rest.getLast? <;> rfl)
    simp only [cons_append, chainValid, result_bind, Except.ok.injEq]
    exact ⟨payload, loaded, _, text, true, later, by simp [link, same]⟩

theorem eventValue_congr (row : Event F) {first second : Value F} (same : rt.jsonable first = rt.jsonable second) :
    rt.jsonable (eventValue row first) = rt.jsonable (eventValue row second) := by
  simp [eventValue, Value.object, Runtime.jsonable, Runtime.jsonableEntries, same]

theorem event_ok {db after : Db F} {eventType actor : String} {payload : Value F} {at_ : F}
    {result : Unit} (plain : payload.Plain) (chained : rt.chainValid none db.events = .ok true)
    (done : rt.event eventType actor payload at_ db = .ok (result, after)) :
    ∃ row : Event F, row.eventType = eventType ∧ rt.canonical payload = .ok row.payloadJson ∧
      after = { db with events := db.events ++ [row] } ∧
      rt.chainValid none after.events = .ok true := by
  unfold event at done
  rw [read_bind] at done
  obtain ⟨text, written, hashed⟩ := lift_bind.mp done
  obtain ⟨signature, signed, appended⟩ := lift_bind.mp hashed
  obtain ⟨-, rfl⟩ := Prod.mk.inj (write_ok.mp appended)
  refine ⟨_, rfl, written, rfl, ?_⟩
  apply chainValid_snoc chained
  · cases db.events.getLast? <;> rfl
  · obtain ⟨document, encoded, loaded, again⟩ := rt.dumps_loads plain written
    refine ⟨_, loaded, Eq.trans ?_ signed⟩
    exact sign_congr (eventValue_congr _ (again.trans encoded.symm))

def Lists (rt : Platform F) (eventType : String) (ids : List String) (rows : List (Event F)) : Prop :=
  if ids = [] then rows = []
  else ∃ row : Event F, rows = [row] ∧ row.eventType = eventType ∧ rt.canonical (listed ids) = .ok row.payloadJson

theorem announce_ok {db after : Db F} {eventType : String} {ids : List String} {now : F}
    {result : Unit} (chained : rt.chainValid none db.events = .ok true)
    (done : rt.announce eventType ids now db = .ok (result, after)) :
    ∃ rows, rt.Lists eventType ids rows ∧ after = { db with events := db.events ++ rows } ∧
      rt.chainValid none after.events = .ok true := by
  unfold announce at done
  by_cases empty : ids = []
  · rw [if_pos empty] at done
    obtain ⟨-, rfl⟩ := Prod.mk.inj (pure_ok.mp done)
    refine ⟨[], ?_, ?_, chained⟩
    · rw [Lists, if_pos empty]
    · rw [append_nil]
  · rw [if_neg empty] at done
    obtain ⟨row, kind, payload, appended, valid⟩ := event_ok (listed_plain ids) chained done
    refine ⟨[row], ?_, appended, valid⟩
    rw [Lists, if_neg empty]
    exact ⟨row, rfl, kind, payload⟩

end Platform

theorem get_falsy {rt : Runtime F} {value : Value F} (falsy : rt.truthy value = false)
    (name : String) : value.get name = .none := by
  cases value with
  | dict entries =>
    cases entries with
    | nil => rfl
    | cons entry rest => cases falsy
  | _ => rfl

namespace Platform

variable {rt : Platform F}

def rowsOf (rt : Platform F) (snapshot : Value F) (category : Category) : Value F :=
  rt.orElse (snapshot.get category.text) (.dict [])

def flagOf (rt : Platform F) (category : Category) (before after : Value F) : Bool :=
  match category with
  | .containers => true
  | .files => rt.truthy ((if rt.truthy before then before else after).get "critical")

variable {category : Category}

theorem criticalOf_ok {before after : Value F} {critical : Bool}
    (read : rt.criticalOf category before after = .ok critical) :
    critical = rt.flagOf category before after := by
  cases category with
  | containers =>
    rw [criticalOf, if_pos rfl] at read
    cases read
    rfl
  | files =>
    rw [criticalOf, if_neg (by decide)] at read
    dsimp only at read
    have row : (rt.orElse (rt.orElse before after) (.dict [])).get "critical" =
        (if rt.truthy before then before else after).get "critical" := by
      unfold Runtime.orElse
      by_cases first : rt.truthy before = true
      · simp [first]
      · by_cases second : rt.truthy after = true
        · simp [first, second]
        · rw [if_neg first, if_neg second]
          exact (get_falsy (Bool.not_eq_true _ ▸ second) "critical").symm
    rw [row] at read
    split at read
    · cases read
      rfl
    · cases read

def Reads (rt : Platform F) (beforeRows afterRows : Value F) (change : Change F) : Prop :=
  let before := beforeRows.get change.subject
  let after := afterRows.get change.subject
  rt.same before after = false ∧ change.change = changeOf before after ∧
    rt.criticalOf change.category before after = .ok change.critical

variable {changes : List (Change F)}

theorem compareSubjects_reads {beforeRows afterRows : Value F} {subjects : List String}
    (compared : rt.compareSubjects category beforeRows afterRows subjects = .ok changes) :
    ∀ change ∈ changes, rt.Reads beforeRows afterRows change := by
  induction subjects generalizing changes with
  | nil =>
    cases compared
    exact fun _ member => absurd member List.not_mem_nil
  | cons subject rest ih =>
    simp only [compareSubjects, result_bind, Except.ok.injEq] at compared
    obtain ⟨first, one, others, more, rfl⟩ := compared
    intro change member
    rcases List.mem_append.mp member with here | later
    · unfold compareSubject at one
      dsimp only at one
      split at one
      · cases one
        cases here
      next differs =>
        simp only [result_bind, Except.ok.injEq] at one
        obtain ⟨critical, read, details, -, rfl⟩ := one
        rw [List.mem_singleton.mp here]
        exact ⟨Bool.not_eq_true _ ▸ differs, rfl, read⟩
    · exact ih more change later

def Compared (rt : Platform F) (baseline current : Value F) (change : Change F) : Prop :=
  rt.Reads (rt.rowsOf baseline change.category) (rt.rowsOf current change.category) change

variable {baseline current : Value F}

theorem compareCategory_compared  (compared : rt.compareCategory category baseline current = .ok changes) :
    ∀ change ∈ changes, rt.Compared baseline current change := by
  intro change member
  have kind := ((compareCategory_ok compared).2 change member).2
  unfold compareCategory at compared
  dsimp only at compared
  split at compared
  · rw [Compared, kind]
    exact compareSubjects_reads compared change member
  · cases compared

theorem compareSnapshots_compared (compared : rt.compareSnapshots baseline current = .ok changes) :
    ∀ change ∈ changes, rt.Compared baseline current change := by
  simp only [compareSnapshots, result_bind, Except.ok.injEq] at compared
  obtain ⟨files, one, containers, two, rfl⟩ := compared
  intro change member
  rcases List.mem_append.mp member with file | container
  · exact compareCategory_compared one change file
  · exact compareCategory_compared two change container

def settledCritical (rt : Platform F) (baseline : Value F) (category : Category) (subject : String) : Option Bool :=
  match category with
  | .containers => some true
  | .files =>
    let before := (rt.rowsOf baseline .files).get subject
    if rt.truthy before then some (rt.truthy (before.get "critical")) else none

def Fixed (rt : Platform F) (baseline : Value F) (row : Finding F) : Prop :=
  ∀ flag, rt.settledCritical baseline row.category row.subject = some flag → row.critical = flag

/-- A file that has no row in the baseline, or an empty one, is as critical as its finding says,
if it is still changed in the way the finding says. -/
def Steady (rt : Platform F) (baseline current : Value F) (row : Finding F) : Prop :=
  let before := (rt.rowsOf baseline .files).get row.subject
  let after := (rt.rowsOf current .files).get row.subject
  row.category = .files → rt.truthy before = false → rt.same before after = false →
    changeOf before after = row.changeType → rt.truthy (after.get "critical") = row.critical

variable {change : Change F}

theorem Compared.settled (compared : rt.Compared baseline current change) {flag : Bool}
    (settled : rt.settledCritical baseline change.category change.subject = some flag) :
    change.critical = flag := by
  obtain ⟨-, -, read⟩ := compared
  rw [criticalOf_ok read]
  cases kind : change.category with
  | containers =>
    rw [kind] at settled
    exact Option.some.inj settled
  | files =>
    rw [kind] at settled
    dsimp only [settledCritical] at settled
    split at settled
    next truth =>
      rw [flagOf, if_pos truth]
      exact Option.some.inj settled
    next => cases settled

variable {row : Finding F}

theorem Compared.critical (compared : rt.Compared baseline current change) (fixed : rt.Fixed baseline row)
    (steady : rt.Steady baseline current row) (category : row.category = change.category)
    (subject : row.subject = change.subject) (kind : row.changeType = change.change) :
    row.critical = change.critical := by
  cases settled : rt.settledCritical baseline change.category change.subject with
  | some flag =>
    rw [compared.settled settled]
    apply fixed
    rw [category, subject]
    exact settled
  | none =>
    obtain ⟨differs, described, read⟩ := compared
    rw [criticalOf_ok read]
    cases which : change.category with
    | containers =>
      rw [which] at settled
      cases settled
    | files =>
      rw [which] at settled differs described category
      dsimp only [settledCritical] at settled
      split at settled
      · cases settled
      next falsy =>
        have missing := Bool.not_eq_true _ ▸ falsy
        rw [flagOf, if_neg falsy]
        unfold Steady at steady
        rw [subject, kind] at steady
        exact (steady category missing differs described.symm).symm

structure Describes (row : Finding F) (change : Change F) (details : String) : Prop where
  key : row.findingKey = change.key
  category : row.category = change.category
  subject : row.subject = change.subject
  kind : row.changeType = change.change
  opened : row.isOpen = true
  details : row.detailsJson = details

theorem same_subject (collisionFree : Function.Injective rt.sha256)
    (named : row.findingKey = rt.keyOf row.category row.subject row.changeType)
    (given : rt.Named change) (same : row.findingKey = change.key) :
    row.category = change.category ∧ row.subject = change.subject ∧ row.changeType = change.change := by
  rw [named, given] at same
  exact keyText_inj (collisionFree same)

theorem written_of (collisionFree : Function.Injective rt.sha256) {now : F}
    {drawn details : String} {old : Option (Finding F)} (given : rt.Named change)
    (before : ∀ row, old = some row → row.findingKey = change.key ∧
      row.findingKey = rt.keyOf row.category row.subject row.changeType) :
    Describes (written now change drawn details old) change details := by
  cases old with
  | none => exact ⟨rfl, rfl, rfl, rfl, rfl, rfl⟩
  | some row =>
    obtain ⟨same, named⟩ := before row rfl
    obtain ⟨category, subject, kind⟩ := same_subject collisionFree named given same
    by_cases opened : row.isOpen = true
    · rw [written, if_pos opened]
      exact ⟨same, category, subject, kind, opened, rfl⟩
    · rw [written, if_neg opened]
      exact ⟨same, category, subject, kind, rfl, rfl⟩

theorem written_critical (now : F) (change : Change F) (drawn details : String) (old : Option (Finding F)) :
    (written now change drawn details old).critical = change.critical ∨ ∃ row, old = some row ∧ row.isOpen = true ∧
        (written now change drawn details old).critical = row.critical := by
  cases old with
  | none => exact Or.inl rfl
  | some row =>
    by_cases opened : row.isOpen = true
    · refine Or.inr ⟨row, rfl, opened, ?_⟩
      rw [written, if_pos opened]
    · refine Or.inl ?_
      rw [written, if_neg opened]

theorem written_unacknowledged (now : F) (change : Change F) (drawn details : String) (closed : row.isOpen = false) :
    let new := written now change drawn details (some row)
    new.acknowledgedAt = none ∧ new.acknowledgedBy = none ∧ new.note = "" := by
  have shut : ¬ row.isOpen = true := by
    rw [closed]
    exact Bool.false_ne_true
  rw [written, if_neg shut]
  exact ⟨rfl, rfl, rfl⟩

theorem written_id (now : F) (change : Change F) (drawn details : String) (row : Finding F) :
    (written now change drawn details (some row)).id = row.id := by
  rw [written]
  split
  · rfl
  · rfl

end Platform

end Dash.Drift
