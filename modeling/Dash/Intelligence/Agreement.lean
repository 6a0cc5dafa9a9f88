import Dash.Intelligence.Incidents
import Dash.Python.Plain

/-! When the status and the capsule of an incident agree.

The capsule takes a resolution of the opening time for a later one, whichever was
recorded first; and a key that does not validate stops both views.
-/

set_option autoImplicit false

namespace Dash.Intelligence

open Dash.Python Dash.Foundation List
open Foundation.Transaction (bind_ok check_bind commit_error commit_ok guard_ok lift_bind pure_ok
  read_bind write_bind)

variable {F T D : Type} [LinearOrder T]

structure LastOpening (key : String) (events : List (Event T D)) (opening : Event T D) : Prop where
  member : opening ∈ about key events
  opens : opening.opens = true
  last : ∀ other ∈ about key events, other.opens = true → other = opening ∨ other.Before opening

def Untied (key : String) (events : List (Event T D)) : Prop :=
  ∀ opening, LastOpening key events opening →
    (∃ event ∈ about key events, event.kind = .incidentResolved ∧ opening.Before event) ∨
      ∀ event ∈ about key events, event.kind = .incidentResolved → event.occurredAt ≠ opening.occurredAt

def Platform.statusLimit (rt : Platform F T D) (limit : Int) : Nat :=
  (max 1 (min (if limit = 0 then rt.statusEventLimit else limit) 1000)).toNat

/-- The views agree on what is open, and name one opening. -/
def Platform.Agree (rt : Platform F T D) (limit : Int) (key : String) (db : Db T D) : Prop :=
  ∃ report capsule, rt.status (.int limit) db = .ok report ∧
    rt.capsule (.str key) db = .ok capsule ∧ capsule.incidentKey = key ∧
    ((∃ incident ∈ report.openIncidents, incident.incidentKey = key) ↔ capsule.status = .opened) ∧
    ∀ incident ∈ report.openIncidents ++ report.incidents, incident.incidentKey = key →
      incident.opened = some capsule.opened

def Platform.Listable (rt : Platform F T D) (limit : Int) (db : Db T D) : Prop :=
  ∀ incidents, rt.stamped ((inOrder (db.events.filter fun event =>
      event.incidentKey.isSome)).foldl track []) = .ok incidents →
    ∀ incident ∈ Platform.relevant (rt.statusLimit limit) (Platform.newestFirst incidents),
      isIncidentKey (strip incident.incidentKey) = true

def closing (opening : Event T D) (rows : List (Event T D)) : Option (Event T D) :=
  rows.reverse.find? fun event =>
    event.kind = .incidentResolved ∧ opening.occurredAt ≤ event.occurredAt

namespace Platform

variable (rt : Platform F T D)

structure Kept (db : Db T D) : Prop where
  numbered : Numbered db.events
  bounded : ∀ event ∈ db.events, event.sequence ≤ db.events.length
  shown : ∀ event ∈ db.events, ∃ text, rt.iso event.occurredAt = .ok text

variable {db after : Db T D}

omit [LinearOrder T] in
theorem insertNew_kept {prepared : Prepared T D} {value : Unit}
    (kept : rt.Kept db) (success : rt.insertNew prepared db = .ok (value, after)) :
    rt.Kept after := by
  simp only [insertNew, read_bind, id_eq] at success
  split at success
  · cases pure_ok.mp success
    exact kept
  · obtain ⟨-, success⟩ := guard_ok.mp success
    simp only [insertPrepared, read_bind, check_bind, write_bind, lift_bind, pure_ok] at success
    obtain ⟨-, text, shown, same⟩ := success
    cases same
    refine ⟨?_, fun event member => ?_, fun event member => ?_⟩
    · refine pairwise_append.mpr ⟨kept.numbered, pairwise_singleton _ _, ?_⟩
      intro event member new last
      rw [mem_singleton.mp last]
      exact Nat.lt_succ_of_le (kept.bounded event member)
    · rw [length_append]
      rcases mem_append.mp member with before | last
      · exact Nat.le_succ_of_le (kept.bounded event before)
      · rw [mem_singleton.mp last]
        exact Nat.le_refl _
    · rcases mem_append.mp member with before | last
      · exact kept.shown event before
      · rw [mem_singleton.mp last]
        exact ⟨text, shown⟩

omit [LinearOrder T] in
theorem each_kept {rows : List (Prepared T D)} {values : List Unit}
    (kept : rt.Kept db) (success : Transaction.each rt.insertNew rows db = .ok (values, after)) :
    rt.Kept after := by
  induction rows generalizing db values with
  | nil =>
    cases pure_ok.mp success
    exact kept
  | cons row rest ih =>
    obtain ⟨_, middle, first, others⟩ := bind_ok.mp success
    obtain ⟨_, last, more, same⟩ := bind_ok.mp others
    cases pure_ok.mp same
    exact ih (rt.insertNew_kept kept first) more

omit [LinearOrder T] in
theorem perform_kept {call : Call F} {value : Unit} (kept : rt.Kept db)
    (success : rt.perform call db = .ok (value, after)) : rt.Kept after := by
  cases call with
  | record rawEvent source ingestedAt eventId =>
    obtain ⟨prepared, -, inserted⟩ := lift_bind.mp success
    exact rt.insertNew_kept kept inserted
  | recordMany rawEvents source ingestedAt skipInvalid =>
    obtain ⟨-, success⟩ := guard_ok.mp success
    obtain ⟨rows, -, inserted⟩ := lift_bind.mp success
    obtain ⟨_, last, each, same⟩ := bind_ok.mp inserted
    cases pure_ok.mp same
    exact rt.each_kept kept each

omit [LinearOrder T] in
theorem run_kept (calls : List (Call F)) : rt.Kept (rt.run calls) := by
  induction calls using List.reverseRecOn with
  | nil => exact ⟨List.Pairwise.nil, fun _ member => (not_mem_nil member).elim,
      fun _ member => (not_mem_nil member).elim⟩
  | append_singleton calls call ih =>
    rw [run, foldl_append, foldl_cons, foldl_nil, ← run]
    cases outcome : rt.perform call (rt.run calls) with
    | error why =>
      rw [commit_error outcome]
      exact ih
    | ok success =>
      obtain ⟨value, after⟩ := success
      rw [commit_ok outcome]
      exact rt.perform_kept ih outcome

variable {incidents : List (Incident T D)}

variable {found : List (String × Incident T D)}

omit [LinearOrder T] in
theorem stamped_ok (success : rt.stamped incidents = .ok found) :
    found.map Prod.snd = incidents.filter fun incident => incident.opened.isSome := by
  induction incidents generalizing found with
  | nil =>
    cases success
    rfl
  | cons incident rest ih =>
    unfold stamped at success
    split at success
    · next missing => rw [filter_cons_of_neg (by simp [missing]), ih success]
    · next event present =>
      simp only [result_bind] at success
      obtain ⟨time, -, others, tail, same⟩ := success
      cases same
      rw [map_cons, filter_cons_of_pos (by simp [present]), ih tail]

omit [LinearOrder T] in
theorem stamped_returns (shown : ∀ incident ∈ incidents, ∀ event, incident.opened = some event →
      ∃ text, rt.iso event.occurredAt = .ok text) :
    ∃ found, rt.stamped incidents = .ok found := by
  induction incidents with
  | nil => exact ⟨[], rfl⟩
  | cons incident rest ih =>
    obtain ⟨found, tail⟩ := ih fun other member => shown other (mem_cons_of_mem _ member)
    unfold stamped
    cases opened : incident.opened with
    | none => exact ⟨found, tail⟩
    | some event =>
      obtain ⟨text, time⟩ := shown incident mem_cons_self event opened
      refine ⟨(text, incident) :: found, ?_⟩
      change (rt.iso event.occurredAt >>= fun time => rt.stamped rest >>= fun others =>
        Except.ok ((time, incident) :: others)) = _
      rw [time, tail]
      rfl

variable {incident : Incident T D}

omit [LinearOrder T] in
theorem newestFirst_mem : incident ∈ newestFirst found ↔ incident ∈ found.map Prod.snd :=
  ((perm_insertionSort _ found).map Prod.snd).mem_iff

omit [LinearOrder T] in
theorem validateIncidentKey_str (key : String) : rt.validateIncidentKey (.str key) =
      if isIncidentKey (strip key) = false then
        valueError "invalid change-intelligence incident key" else .ok (strip key) := by
  have text : rt.str (rt.orElse (.str key) (.str "")) = key := by
    unfold Runtime.orElse
    split
    · rfl
    · next empty =>
      have same : key = "" := by simpa [Runtime.truthy] using empty
      rw [same]
      rfl
  rw [validateIncidentKey, text]

omit [LinearOrder T] in
theorem correlate_ok : rt.correlate incidents = .ok () ↔
      ∀ incident ∈ incidents, isIncidentKey (strip incident.incidentKey) = true := by
  induction incidents with
  | nil => simp [correlate]
  | cons incident rest ih =>
    simp only [correlate, validateIncidentKey_str, result_bind, result_refuse, ih,
      mem_cons, forall_eq_or_imp, Except.ok.injEq, exists_and_right]
    simp

omit [LinearOrder T] in
/-- What is open of the incidents a report is about is what is open at all. -/
theorem relevant_open {limit : Nat} :
    incident ∈ (relevant limit incidents).filter (fun incident => incident.status = .opened) ↔
      incident ∈ incidents ∧ incident.status = .opened := by
  rw [mem_filter, relevant, mem_append, mem_filter, decide_eq_true_eq]
  constructor
  · rintro ⟨current | taken, opened⟩
    · exact ⟨current.1, opened⟩
    · exact ⟨(mem_filter.mp (mem_of_mem_take taken)).1, opened⟩
  · rintro ⟨member, opened⟩
    exact ⟨.inl ⟨member, opened⟩, opened⟩

omit [LinearOrder T] in
theorem relevant_mem {limit : Nat} (member : incident ∈ relevant limit incidents) : incident ∈ incidents := by
  rcases mem_append.mp member with current | taken
  · exact (mem_filter.mp current).1
  · exact (mem_filter.mp (mem_of_mem_take taken)).1

theorem status_ok {limit : Int} {db : Db T D} {report : Report T D} : rt.status (.int limit) db = .ok report ↔
      ∃ found, rt.stamped ((inOrder (db.events.filter fun event =>
          event.incidentKey.isSome)).foldl track []) = .ok found ∧
        (∀ incident ∈ relevant (rt.statusLimit limit) (newestFirst found),
          isIncidentKey (strip incident.incidentKey) = true) ∧
        report = ⟨(relevant (rt.statusLimit limit) (newestFirst found)).filter fun incident =>
            incident.status = .opened,
          (relevant (rt.statusLimit limit) (newestFirst found)).take (rt.statusLimit limit)⟩ := by
  have number : rt.int (rt.orElse (.int limit) (.int rt.statusEventLimit)) =
      .ok (if limit = 0 then rt.statusEventLimit else limit) := by
    by_cases zero : limit = 0 <;> simp [Runtime.orElse, Runtime.truthy, zero, Runtime.int]
  rw [status, number]
  change (rt.stamped _ >>= fun incidents => rt.correlate (relevant (rt.statusLimit limit)
    (newestFirst incidents)) >>= fun _ => _) = _ ↔ _
  rw [result_bind]
  refine exists_congr fun found => and_congr_right fun _ => ?_
  rw [result_bind]
  constructor
  · rintro ⟨_, valid, same⟩
    exact ⟨(rt.correlate_ok).mp valid, (Except.ok.inj same).symm⟩
  · rintro ⟨valid, same⟩
    exact ⟨(), (rt.correlate_ok).mpr valid, same ▸ rfl⟩

theorem capsule_valid {key : String} {db : Db T D} (valid : ¬ isIncidentKey (strip key) = false) :
    rt.capsule (.str key) db = if inOrder (about (strip key) db.events) = [] then
        valueError "change-intelligence incident does not exist"
      else match (inOrder (about (strip key) db.events)).reverse.find? Event.opens with
        | none => valueError "change-intelligence incident has no open event"
        | some opening => .ok ⟨strip key,
          if (closing opening (inOrder (about (strip key) db.events))).isSome then .resolved else .opened,
          opening, closing opening (inOrder (about (strip key) db.events))⟩ := by
  rw [capsule, validateIncidentKey_str, if_neg valid]
  rfl

theorem capsule_ok {key : String} {db : Db T D} {found : Capsule T D} : rt.capsule (.str key) db = .ok found ↔
      isIncidentKey (strip key) = true ∧ ∃ opening,
        (inOrder (about (strip key) db.events)).reverse.find? Event.opens = some opening ∧
        found = ⟨strip key,
          if (closing opening (inOrder (about (strip key) db.events))).isSome then .resolved
            else .opened,
          opening, closing opening (inOrder (about (strip key) db.events))⟩ := by
  by_cases valid : isIncidentKey (strip key) = false
  · rw [capsule, validateIncidentKey_str, if_pos valid, valid]
    constructor
    · intro impossible
      cases impossible
    · rintro ⟨impossible, -⟩
      cases impossible
  · rw [rt.capsule_valid valid]
    have formed : isIncidentKey (strip key) = true := by simpa using valid
    generalize inOrder (about (strip key) db.events) = rows
    split
    · next empty =>
      rw [empty]
      constructor
      · intro impossible
        cases impossible
      · rintro ⟨-, _, impossible, -⟩
        cases impossible
    · cases opening : rows.reverse.find? Event.opens with
      | none =>
        constructor
        · intro impossible
          cases impossible
        · rintro ⟨-, _, impossible, -⟩
          cases impossible
      | some event =>
        constructor
        · intro same
          exact ⟨formed, event, rfl, (Except.ok.inj same).symm⟩
        · rintro ⟨-, _, same, rfl⟩
          cases same
          rfl

end Platform

section Last

variable {key : String} {events : List (Event T D)} {opening : Event T D}

theorem about_mem {event : Event T D} : event ∈ inOrder (about key events) ↔ event ∈ about key events := inOrder_mem

theorem lastOpening_of_find (numbered : Numbered events)
    (found : (inOrder (about key events)).reverse.find? Event.opens = some opening) :
    LastOpening key events opening := by
  obtain ⟨opens, after, before, split, none⟩ := List.find?_eq_some_iff_append.mp found
  have sorted : (inOrder (about key events)).Pairwise Event.Before :=
    inOrder_before (numbered.sublist filter_sublist)
  have forward : inOrder (about key events) = before.reverse ++ opening :: after.reverse := by
    rw [← reverse_reverse (inOrder _), split]
    simp
  refine ⟨about_mem.mp (forward ▸ by simp), opens, fun other member opened => ?_⟩
  have present := about_mem.mpr member
  rw [forward] at present sorted
  rcases mem_append.mp present with early | late
  · exact .inr ((pairwise_append.mp sorted).2.2 other early opening mem_cons_self)
  · rcases mem_cons.mp late with same | later
    · exact .inl same
    · have quiet := none other (mem_reverse.mp later)
      simp [opened] at quiet

theorem lastOpening_unique {other : Event T D} (one : LastOpening key events opening)
    (second : LastOpening key events other) : other = opening := by
  rcases one.last other second.member second.opens with same | before
  · exact same
  · rcases second.last opening one.member one.opens with same | after
    · exact same.symm
    · exact absurd after before.asymm

theorem closing_isSome : (closing opening (inOrder (about key events))).isSome = true ↔
    ∃ event ∈ about key events, event.kind = .incidentResolved ∧ opening.occurredAt ≤ event.occurredAt := by
  rw [closing, List.find?_isSome]
  simp [about_mem]

/-- The fold resolves an incident when the capsule does, unless a resolution is tied. -/
theorem resolved_iff (numbered : Numbered events) (last : LastOpening key events opening) :
    ((summary key (inOrder (events.filter fun event => event.incidentKey.isSome))).resolved.isSome =
        true ↔ (closing opening (inOrder (about key events))).isSome = true) ↔
      Untied key events := by
  have sorted : (inOrder (events.filter fun event => event.incidentKey.isSome)).Pairwise
      Event.Before := inOrder_before (numbered.sublist filter_sublist)
  have folded : (summary key (inOrder (events.filter fun event =>
      event.incidentKey.isSome))).resolved.isSome = true ↔
      ∃ event ∈ about key events, event.kind = .incidentResolved ∧ opening.Before event := by
    rw [summary_resolved sorted, about_inOrder numbered]
    simp only [about_mem]
    constructor
    · rintro ⟨event, member, resolved, after⟩
      exact ⟨event, member, resolved, after opening last.member last.opens⟩
    · rintro ⟨event, member, resolved, after⟩
      refine ⟨event, member, resolved, fun other present opened => ?_⟩
      rcases last.last other present opened with rfl | before
      · exact after
      · exact before.trans after
  rw [folded, closing_isSome]
  constructor
  · intro agree other otherLast
    rw [lastOpening_unique last otherLast]
    by_cases tied : ∃ event ∈ about key events, event.kind = .incidentResolved ∧ event.occurredAt = opening.occurredAt
    · obtain ⟨event, member, resolved, same⟩ := tied
      exact .inl (agree.mpr ⟨event, member, resolved, le_of_eq same.symm⟩)
    · exact .inr fun event member resolved same => tied ⟨event, member, resolved, same⟩
  · intro untied
    constructor
    · rintro ⟨event, member, resolved, before⟩
      refine ⟨event, member, resolved, ?_⟩
      rcases before with less | ⟨same, -⟩
      · exact le_of_lt less
      · exact le_of_eq same
    · rintro ⟨event, member, resolved, notBefore⟩
      rcases untied opening last with later | apart
      · exact later
      · exact ⟨event, member, resolved, .inl (lt_of_le_of_ne notBefore (Ne.symm (apart event member resolved)))⟩

end Last

theorem isIncidentKey_strip {key : String} (valid : isIncidentKey key = true) : strip key = key := by
  apply strip_plain
  simp only [isIncidentKey, Bool.and_eq_true, any_eq_true] at valid
  obtain ⟨-, start, member, starts, bounds⟩ := valid
  obtain ⟨rest, rfl⟩ := startsWith_iff.mp starts
  have dropped : (start ++ rest).toList.drop start.length = rest.toList := by
    rw [String.toList_append, ← String.length_toList, drop_left]
  rw [dropped] at bounds
  have plainWord {char : Char} (word : isWord char = true) : isSpace char = false := by
    have range : ((65 ≤ char.toNat ∧ char.toNat ≤ 90) ∨ (97 ≤ char.toNat ∧ char.toNat ≤ 122) ∨
        (48 ≤ char.toNat ∧ char.toNat ≤ 57)) ∨ char.toNat = 95 ∨ char.toNat = 46 ∨
        char.toNat = 58 ∨ char.toNat = 45 := by
      simp only [isWord, Bool.or_eq_true, decide_eq_true_eq] at word
      rcases word with (((alphanum | rfl) | rfl) | rfl) | rfl
      · exact .inl (alphanum_code alphanum)
      all_goals decide
    simp only [isSpace, Bool.or_eq_false_iff, Bool.and_eq_false_iff, decide_eq_false_iff_not]
    omega
  intro char within
  rw [String.toList_append, mem_append] at within
  rcases within with first | second
  · have plainStart : start.toList.all (fun char => !isSpace char) = true := by
      rcases mem_cons.mp member with rfl | member
      · decide
      · rcases mem_cons.mp member with rfl | member
        · decide
        · rw [mem_singleton.mp member]
          decide
    simpa using all_eq_true.mp plainStart char first
  · exact plainWord (all_eq_true.mp bounds.2 char second)

namespace Platform

variable (rt : Platform F T D)

/-- For a key with an opening, the report and the capsule agree if and only if the listed keys and
this one are well formed and no resolution is tied with the last opening. -/
theorem views_agree_iff (calls : List (Call F)) (limit : Int) (key : String)
    (opened : ∃ event ∈ about key (rt.run calls).events, event.opens = true) :
    rt.Agree limit key (rt.run calls) ↔ rt.Listable limit (rt.run calls) ∧ isIncidentKey key = true ∧
        Untied key (rt.run calls).events := by
  have kept := rt.run_kept calls
  generalize rt.run calls = db at kept opened ⊢
  obtain ⟨event, member, opens⟩ := opened
  let rows := inOrder (db.events.filter fun event => event.incidentKey.isSome)
  have dictionary := tracked rows
  have listed : about key rows = inOrder (about key db.events) := about_inOrder kept.numbered key
  obtain ⟨opening, found⟩ : ∃ opening, (inOrder (about key db.events)).reverse.find? Event.opens = some opening := by
    apply Option.isSome_iff_exists.mp
    rw [List.find?_isSome]
    exact ⟨event, mem_reverse.mpr (about_mem.mpr member), opens⟩
  have last := lastOpening_of_find kept.numbered found
  have named : (summary key rows).opened = some opening := by
    rw [summary_opened, listed, found]
  -- the incident of the key is in the dictionary, and it is the only one
  have present : summary key rows ∈ rows.foldl track [] := by
    have heard : key ∈ (rows.foldl track []).map Incident.incidentKey := by
      apply dictionary.known event _ key (of_decide_eq_true (mem_filter.mp member).2)
      apply inOrder_mem.mpr
      refine mem_filter.mpr ⟨(mem_filter.mp member).1, ?_⟩
      rw [of_decide_eq_true (mem_filter.mp member).2]
      rfl
    obtain ⟨incident, inside, same⟩ := mem_map.mp heard
    have summed := dictionary.summed incident inside
    rw [same] at summed
    exact summed ▸ inside
  have only : ∀ incident ∈ rows.foldl track [], incident.incidentKey = key → incident = summary key rows := by
    rintro incident inside rfl
    exact dictionary.summed incident inside
  have shown : ∀ incident ∈ rows.foldl track [], ∀ event, incident.opened = some event →
      ∃ text, rt.iso event.occurredAt = .ok text := by
    intro incident inside event named
    rw [dictionary.summed incident inside, summary_opened] at named
    have member := mem_reverse.mp (List.mem_of_find?_eq_some named)
    have stored := inOrder_mem.mp (mem_filter.mp member).1
    exact kept.shown event (mem_filter.mp stored).1
  obtain ⟨stamps, stamped⟩ := rt.stamped_returns shown
  have newest {incident : Incident T D} : incident ∈ newestFirst stamps ↔
      incident ∈ rows.foldl track [] ∧ incident.opened.isSome = true := by
    rw [newestFirst_mem, rt.stamped_ok stamped, mem_filter]
  have status_eq {incident : Incident T D} : incident.status = .opened ↔ incident.resolved.isSome = false := by
    unfold Incident.status
    cases incident.resolved <;> simp
  -- the report lists the key as open when the fold has no resolution for it
  have shownOpen : (∃ incident ∈ (relevant (rt.statusLimit limit) (newestFirst stamps)).filter
      fun incident => incident.status = .opened, incident.incidentKey = key) ↔
      (summary key rows).resolved.isSome = false := by
    constructor
    · rintro ⟨incident, inside, same⟩
      obtain ⟨inside, unresolved⟩ := relevant_open.mp inside
      rw [only incident (newest.mp inside).1 same] at unresolved
      exact status_eq.mp unresolved
    · intro unresolved
      refine ⟨summary key rows, relevant_open.mpr ⟨newest.mpr ⟨present, ?_⟩, status_eq.mpr unresolved⟩,
        summary_key key rows⟩
      rw [named]
      rfl
  have agreement := resolved_iff kept.numbered last
  constructor
  · rintro ⟨report, capsule, statusOk, capsuleOk, sameKey, agree, -⟩
    obtain ⟨same, stampedSame, valid, rfl⟩ := (rt.status_ok).mp statusOk
    cases stamped.symm.trans stampedSame
    obtain ⟨formed, other, otherFound, rfl⟩ := (rt.capsule_ok).mp capsuleOk
    have stripped : strip key = key := sameKey
    rw [stripped] at formed otherFound agree
    cases found.symm.trans otherFound
    refine ⟨fun incidents success => ?_, formed, agreement.mp ?_⟩
    · cases stamped.symm.trans success
      exact valid
    · rw [shownOpen] at agree
      cases first : (summary key rows).resolved.isSome <;>
        cases second : (closing opening (inOrder (about key db.events))).isSome <;>
        simp_all [rows]
  · rintro ⟨listable, formed, untied⟩
    have stripped := isIncidentKey_strip formed
    refine ⟨_, _, (rt.status_ok).mpr ⟨stamps, stamped, listable stamps stamped, rfl⟩,
      (rt.capsule_ok).mpr ⟨stripped.symm ▸ formed, opening, stripped.symm ▸ found, rfl⟩, stripped,
      ?_, ?_⟩
    · rw [stripped, shownOpen]
      have both := agreement.mpr untied
      cases first : (summary key rows).resolved.isSome <;>
        cases second : (closing opening (inOrder (about key db.events))).isSome <;>
        simp_all [rows]
    · intro incident inside same
      have inDictionary : incident ∈ rows.foldl track [] := by
        rcases mem_append.mp inside with current | some
        · exact (newest.mp (relevant_open.mp current).1).1
        · exact (newest.mp (relevant_mem (mem_of_mem_take some))).1
      rw [only incident inDictionary same, named]

end Platform

/-- Rules that name two actions; times are whole seconds. -/
def plainLedger : Platform FloatText Int Unit where
  toRuntime := plainRuntime
  fnmatch name pattern := name = pattern
  sha256 text := text
  mac text := text
  epoch
    | .int seconds => .ok seconds
    | _ => .ok 0
  details _ _ _ := .ok ()
  iso seconds := .ok (toString seconds)
  rules := [⟨"slo-incident-open", .incidentOpen⟩, ⟨"slo-incident-resolve", .incidentResolved⟩]
  maxEvents := 100
  historyImportLimit := 100
  statusEventLimit := 20

def incidentEvent (action id : String) (ts : Int) : Call FloatText :=
  .record (.object [("action", .str action), ("ts", .int ts), ("incident_id", .str "1")]) "admin-audit" (.int ts) id

def reopened : List (Call FloatText) :=
  [incidentEvent "slo-incident-resolve" "change-1" 5, incidentEvent "slo-incident-open" "change-2" 5]

theorem views_agree_iff_reopened : (∃ event ∈ about "slo:1" (plainLedger.run reopened).events, event.opens = true) ∧
      (plainLedger.Agree 10 "slo:1" (plainLedger.run reopened) ↔
        plainLedger.Listable 10 (plainLedger.run reopened) ∧ isIncidentKey "slo:1" = true ∧
          Untied "slo:1" (plainLedger.run reopened).events) := by
  have opened : ∃ event ∈ about "slo:1" (plainLedger.run reopened).events, event.opens = true := by
    decide
  exact ⟨opened, plainLedger.views_agree_iff reopened 10 "slo:1" opened⟩

theorem reopened_disagrees : (∃ event ∈ about "slo:1" (plainLedger.run reopened).events, event.opens = true) ∧
      ¬ plainLedger.Agree 10 "slo:1" (plainLedger.run reopened) := by
  refine ⟨by decide, ?_⟩
  rintro ⟨report, capsule, statusOk, capsuleOk, -, agree, -⟩
  have shown : (plainLedger.status (.int 10) (plainLedger.run reopened)).toOption.map (fun report =>
      report.openIncidents.map Incident.incidentKey) = some ["slo:1"] := by
    decide
  have closed : (plainLedger.capsule (.str "slo:1") (plainLedger.run reopened)).toOption.map
      Capsule.status = some .resolved := by
    decide
  rw [statusOk] at shown
  rw [capsuleOk] at closed
  have member : "slo:1" ∈ report.openIncidents.map Incident.incidentKey := by
    have keys : report.openIncidents.map Incident.incidentKey = ["slo:1"] := Option.some.inj shown
    rw [keys]
    exact mem_cons_self
  obtain ⟨incident, inside, same⟩ := mem_map.mp member
  have isOpen := agree.mp ⟨incident, inside, same⟩
  have status : capsule.status = .resolved := Option.some.inj closed
  rw [status] at isOpen
  cases isOpen

end Dash.Intelligence
