import Dash.Drift.Store

/-! What a call does to the table of findings, one finding at a time, and the loops of `observe`. -/

set_option autoImplicit false

namespace Dash.Drift

open Dash.Python Dash.Foundation List
open Foundation.Transaction (bind_ok check_bind lift_bind pure_ok raise_ok read_bind write_bind write_ok)

variable {F : Type}

def Db.finding (db : Db F) (key : String) : Option (Finding F) :=
  db.findings.find? fun row => row.findingKey = key

structure Keyed (db : Db F) : Prop where
  keys : (db.findings.map Finding.findingKey).Nodup
  ids : (db.findings.map Finding.id).Nodup

variable {db : Db F}

theorem Keyed.finding_of_mem (keyed : Keyed db) {row : Finding F}
    (member : row ∈ db.findings) : db.finding row.findingKey = some row :=
  Table.find_mem keyed.keys member

theorem finding_mem {key : String} {row : Finding F} (found : db.finding key = some row) :
    row ∈ db.findings ∧ row.findingKey = key :=
  ⟨List.mem_of_find?_eq_some found, by simpa using List.find?_some found⟩

theorem Keyed.same_id (keyed : Keyed db) {first second : Finding F}
    (one : first ∈ db.findings) (other : second ∈ db.findings) (same : first.id = second.id) :
    first = second :=
  Table.same_row keyed.ids one other same

structure Touched (db after : Db F) (key : String) (new : Finding F) : Prop where
  find : ∀ wanted, after.finding wanted = if wanted = key then some new else db.finding wanted
  keyed : Keyed after
  baselines : after.baselines = db.baselines
  observations : after.observations = db.observations
  events : after.events = db.events

def Keeps (change : Finding F → Finding F) : Prop :=
  ∀ row, (change row).id = row.id ∧ (change row).findingKey = row.findingKey

/-- An update of one finding, by its key or by its identifier. -/
theorem update_touched (keyed : Keyed db) {row : Finding F}
    (member : row ∈ db.findings) {change : Finding F → Finding F} (keeps : Keeps change) :
    update Finding.id row.id change db.findings = update Finding.findingKey row.findingKey change db.findings ∧
      Touched db { db with
        findings := update Finding.findingKey row.findingKey change db.findings }
        row.findingKey (change row) := by
  constructor
  · refine map_congr_left fun other present => ?_
    by_cases same : other.id = row.id
    · rw [if_pos same, if_pos (congrArg Finding.findingKey (keyed.same_id present member same))]
    · rw [if_neg same, if_neg fun key => same (congrArg Finding.id (Table.same_row keyed.keys present member key))]
  · refine ⟨fun wanted => ?_, ⟨?_, ?_⟩, rfl, rfl, rfl⟩
    · change (update Finding.findingKey row.findingKey change db.findings).find? _ = _
      rw [Table.find_update fun other hit => (keeps other).2.trans hit]
      by_cases same : wanted = row.findingKey
      · rw [if_pos same, if_pos same, same]
        exact congrArg (Option.map change) (keyed.finding_of_mem member)
      · rw [if_neg same, if_neg same]
        rfl
    · rw [Table.update_keys fun other => (keeps other).2]
      exact keyed.keys
    · have same : (update Finding.findingKey row.findingKey change db.findings).map Finding.id =
          db.findings.map Finding.id := by
        rw [update, map_map]
        refine map_congr_left fun other _ => ?_
        by_cases hit : other.findingKey = row.findingKey
        · simp [Function.comp_apply, if_pos hit, (keeps other).1]
        · simp [Function.comp_apply, if_neg hit]
      change ((update Finding.findingKey row.findingKey change db.findings).map Finding.id).Nodup
      rw [same]
      exact keyed.ids

theorem insert_touched (keyed : Keyed db) {new : Finding F}
    (freshKey : db.finding new.findingKey = none) (freshId : new.id ∉ db.findings.map Finding.id) :
    Touched db { db with findings := db.findings ++ [new] } new.findingKey new := by
  refine ⟨fun wanted => Table.find_append freshKey wanted, ⟨?_, ?_⟩, rfl, rfl, rfl⟩
  · apply Table.insert_keys keyed.keys
    intro present
    obtain ⟨row, member, same⟩ := mem_map.mp present
    have found := keyed.finding_of_mem member
    rw [same, freshKey] at found
    cases found
  · exact Table.insert_keys keyed.ids freshId

theorem Touched.mem {db after : Db F} {key : String} {new : Finding F}
    (touched : Touched db after key new) : new ∈ after.findings ∧ new.findingKey = key := by
  have found := touched.find key
  rw [if_pos rfl] at found
  exact finding_mem found

theorem Touched.trans {db middle after : Db F} {key : String} {one two : Finding F}
    (first : Touched db middle key one) (second : Touched middle after key two) :
    Touched db after key two := by
  refine ⟨fun wanted => ?_, second.keyed, second.baselines.trans first.baselines,
    second.observations.trans first.observations, second.events.trans first.events⟩
  rw [second.find, first.find]
  by_cases same : wanted = key
  · rw [if_pos same, if_pos same]
  · rw [if_neg same, if_neg same, if_neg same]

namespace Platform

variable {rt : Platform F}

def Signed (rt : Platform F) (row : Finding F) : Prop := rt.findingSignature row = .ok row.signature

theorem signFinding_ok {db after : Db F} (keyed : Keyed db) {id : String} {result : Unit}
    (done : rt.signFinding id db = .ok (result, after)) :
    ∃ row ∈ db.findings, row.id = id ∧ ∃ signature, rt.findingSignature row = .ok signature ∧
        Touched db after row.findingKey { row with signature := signature } := by
  unfold signFinding at done
  rw [read_bind] at done
  cases found : db.findings.find? fun row => row.id = id with
  | none =>
    rw [found] at done
    exact (raise_ok.mp done).elim
  | some row =>
    rw [found] at done
    obtain ⟨signature, signed, written⟩ := lift_bind.mp done
    have member := List.mem_of_find?_eq_some found
    have same : row.id = id := by simpa using List.find?_some found
    obtain ⟨-, rfl⟩ := Prod.mk.inj (write_ok.mp written)
    obtain ⟨equal, touched⟩ := @update_touched F db keyed row member
      (fun row => { row with signature := signature }) fun _ => ⟨rfl, rfl⟩
    refine ⟨row, member, same, signature, signed, ?_⟩
    rw [← same]
    rw [← equal] at touched
    exact touched

theorem Touched.sign {db middle after : Db F} {key : String} {new : Finding F}
    (touched : Touched db middle key new) {result : Unit}
    (done : rt.signFinding new.id middle = .ok (result, after)) :
    ∃ signature, rt.findingSignature new = .ok signature ∧
      Touched db after key { new with signature := signature } := by
  obtain ⟨row, member, same, signature, signed, next⟩ := signFinding_ok touched.keyed done
  obtain ⟨present, named⟩ := Dash.Drift.Touched.mem touched
  obtain rfl := touched.keyed.same_id member present same
  subst named
  exact ⟨signature, signed, Dash.Drift.Touched.trans touched next⟩

/-- What `observe` makes of the finding of a change, before it is signed. -/
def written (now : F) (change : Change F) (drawn details : String) : Option (Finding F) → Finding F
  | some old =>
    if old.isOpen then { old with lastSeenAt := now, detailsJson := details }
    else { old with
      critical := change.critical
      lastSeenAt := now
      resolvedAt := none
      acknowledgedAt := none
      acknowledgedBy := none
      note := ""
      detailsJson := details }
  | none => ⟨drawn, change.key, change.category, change.subject, change.change, change.critical,
      now, now, none, none, none, "", details, ""⟩

def openAt (db : Db F) (key : String) : Bool := (db.finding key).any Finding.isOpen

theorem find_open {rows : List (Finding F)} (keys : (rows.map Finding.findingKey).Nodup) (key : String) :
    (rows.filter Finding.isOpen).find? (fun row => row.findingKey = key) =
      (rows.find? fun row => row.findingKey = key).filter Finding.isOpen := by
  cases found : rows.find? fun row => row.findingKey = key with
  | none => exact Table.find_none.mpr fun listed => Table.find_none.mp found ((filter_sublist.map _).subset listed)
  | some row =>
    have member := List.mem_of_find?_eq_some found
    obtain rfl : row.findingKey = key := by simpa using List.find?_some found
    by_cases open_ : row.isOpen = true
    · rw [Option.filter_some, if_pos open_]
      exact Table.find_mem (keys.sublist (filter_sublist.map _)) (mem_filter.mpr ⟨member, open_⟩)
    · rw [Option.filter_some, if_neg open_]
      refine Table.find_none.mpr fun listed => ?_
      obtain ⟨other, inside, same⟩ := mem_map.mp listed
      obtain ⟨present, shown⟩ := mem_filter.mp inside
      exact open_ (Table.same_row keys present member same ▸ shown)

structure Opened (rt : Platform F) (now : F) (start after : Db F) (change : Change F)
    (drawn : String) (ids : List String) : Prop where
  row : ∃ details signature, rt.canonical change.details = .ok details ∧
    let new := written now change drawn details (start.finding change.key)
    rt.findingSignature new = .ok signature ∧ after.finding change.key = some { new with signature := signature } ∧
      ids = if openAt start change.key then [] else [new.id]

theorem openChange_ok {now : F} {start db after : Db F} {change : Change F} {drawn : String}
    {ids : List String} (keyed : Keyed db) (began : Keyed start)
    (untouched : db.finding change.key = start.finding change.key)
    (done : rt.openChange now (start.findings.filter Finding.isOpen) (change, drawn) db = .ok (ids, after)) :
    rt.Opened now start after change drawn ids ∧ Keyed after ∧
      (∀ wanted, wanted ≠ change.key → after.finding wanted = db.finding wanted) ∧
      after.baselines = db.baselines ∧ after.observations = db.observations ∧
      after.events = db.events := by
  unfold openChange at done
  obtain ⟨details, encoded, done⟩ := lift_bind.mp done
  -- in each case one row is written, and then signed
  have finish : ∀ {new : Finding F} {middle : Db F}, Touched db middle change.key new →
      new = written now change drawn details (start.finding change.key) →
      (rt.signFinding new.id >>= fun _ => pure ids : Action F (List String)) middle =
        .ok (ids, after) → (ids = if openAt start change.key then [] else [new.id]) →
      rt.Opened now start after change drawn ids ∧ Keyed after ∧
        (∀ wanted, wanted ≠ change.key → after.finding wanted = db.finding wanted) ∧
        after.baselines = db.baselines ∧ after.observations = db.observations ∧
        after.events = db.events := by
    intro new middle touched same run listed
    obtain ⟨_, last, signed, final⟩ := bind_ok.mp run
    obtain ⟨-, rfl⟩ := Prod.mk.inj (pure_ok.mp final)
    obtain ⟨signature, text, all⟩ := Touched.sign touched signed
    subst same
    refine ⟨⟨details, signature, encoded, text, ?_, listed⟩, all.keyed, ?_, all.baselines, all.observations, all.events⟩
    · rw [all.find, if_pos rfl]
    · intro wanted apart
      rw [all.find, if_neg apart]
  rw [show _ = (start.finding change.key).filter Finding.isOpen from find_open began.keys _] at done
  cases before : start.finding change.key with
  | none =>
    have absent : db.findings.find? (fun row => row.findingKey = change.key) = none := untouched.trans before
    rw [before] at done
    simp only [Option.filter_none, read_bind, absent, check_bind, write_bind, decide_eq_true_eq] at done
    obtain ⟨fresh, done⟩ := done
    have shut : openAt start change.key = false := by
      unfold openAt
      rw [before]
      rfl
    obtain ⟨_, last, signed, final⟩ := bind_ok.mp done
    obtain ⟨rfl, rfl⟩ := Prod.mk.inj (pure_ok.mp final)
    have touched := @insert_touched F db keyed ⟨drawn, change.key, change.category, change.subject,
      change.change, change.critical, now, now, none, none, none, "", details, ""⟩
      (untouched.trans before) fresh
    refine finish touched ?_ (bind_ok.mpr ⟨_, _, signed, pure_ok.mpr rfl⟩) ?_
    · rw [before]
      rfl
    · rw [shut]
      rfl
  | some old =>
    obtain ⟨member, named⟩ := finding_mem (untouched.trans before)
    rw [before] at done
    cases opened : old.isOpen with
    | true =>
      have wasOpen : openAt start change.key = true := by
        unfold openAt
        rw [before]
        exact opened
      simp only [Option.filter_some, opened, if_true, write_bind] at done
      obtain ⟨_, last, signed, final⟩ := bind_ok.mp done
      obtain ⟨rfl, rfl⟩ := Prod.mk.inj (pure_ok.mp final)
      obtain ⟨-, touched⟩ := @update_touched F db keyed old member
        (fun row => { row with lastSeenAt := now, detailsJson := details }) fun _ => ⟨rfl, rfl⟩
      rw [named] at touched
      refine finish touched ?_ (bind_ok.mpr ⟨_, _, signed, pure_ok.mpr rfl⟩) ?_
      · rw [before, written, if_pos opened, ← named]
      · rw [wasOpen]
        rfl
    | false =>
      have shut : openAt start change.key = false := by
        unfold openAt
        rw [before]
        exact opened
      have present : db.findings.find? (fun row => row.findingKey = change.key) = some old :=
        untouched.trans before
      simp only [Option.filter_some, opened, Bool.false_eq_true, if_false, read_bind, present, write_bind] at done
      obtain ⟨_, last, signed, final⟩ := bind_ok.mp done
      obtain ⟨rfl, rfl⟩ := Prod.mk.inj (pure_ok.mp final)
      obtain ⟨equal, touched⟩ := @update_touched F db keyed old member (fun row => { row with
          critical := change.critical
          lastSeenAt := now
          resolvedAt := none
          acknowledgedAt := none
          acknowledgedBy := none
          note := ""
          detailsJson := details }) fun _ => ⟨rfl, rfl⟩
      rw [← equal, named] at touched
      refine finish touched ?_ (bind_ok.mpr ⟨_, _, signed, pure_ok.mpr rfl⟩) ?_
      · rw [before, written, if_neg (Bool.not_eq_true _ ▸ opened), ← named]
      · rw [shut]
        rfl

end Platform

open Foundation.Transaction (bind_ok pure_ok write_bind)

theorem category_text {first second : Category} {one other : List Char}
    (same : first.text.toList ++ ':' :: one = second.text.toList ++ ':' :: other) :
    first = second ∧ one = other := by
  cases first <;> cases second <;> simp [Category.text] at same ⊢ <;> exact same

theorem change_text {first second : ChangeType} {one other : List Char}
    (same : one ++ ':' :: first.text.toList = other ++ ':' :: second.text.toList) :
    first = second ∧ one = other := by
  have endings : first = second := by
    have one_ := congrArg (fun text => (text.reverse.take 6)) same
    cases first <;> cases second <;> simp [ChangeType.text] at one_ ⊢
  subst endings
  exact ⟨rfl, append_cancel_right same⟩

theorem keyText_inj {first second : Category} {one other : String} {old new : ChangeType}
    (same : Platform.keyText first one old = Platform.keyText second other new) :
    first = second ∧ one = other ∧ old = new := by
  have texts := congrArg String.toList same
  simp only [Platform.keyText, String.toList_append] at texts
  have colon : ":".toList = [':'] := rfl
  simp only [colon, append_assoc, singleton_append] at texts
  obtain ⟨categories, rest⟩ := category_text texts
  obtain ⟨changes, subjects⟩ := change_text rest
  exact ⟨categories, String.toList_inj.mp subjects, changes⟩

namespace Platform

variable {rt : Platform F}

def Named (rt : Platform F) (change : Change F) : Prop :=
  change.key = rt.keyOf change.category change.subject change.change

variable {changes : List (Change F)} {category : Category}

theorem compareSubject_ok {beforeRows afterRows : Value F} {subject : String}
    (compared : rt.compareSubject category beforeRows afterRows subject = .ok changes) :
    (changes = [] ∨ ∃ change, changes = [change]) ∧
      ∀ change ∈ changes, rt.Named change ∧ change.category = category ∧ change.subject = subject := by
  unfold compareSubject at compared
  dsimp only at compared
  split at compared
  · cases compared
    exact ⟨Or.inl rfl, fun _ member => absurd member (not_mem_nil)⟩
  · simp only [result_bind, Except.ok.injEq] at compared
    obtain ⟨critical, -, details, -, rfl⟩ := compared
    refine ⟨Or.inr ⟨_, rfl⟩, fun change member => ?_⟩
    rw [mem_singleton.mp member]
    exact ⟨rfl, rfl, rfl⟩

theorem compareSubjects_ok {beforeRows afterRows : Value F} {subjects : List String} (distinct : subjects.Nodup)
    (compared : rt.compareSubjects category beforeRows afterRows subjects = .ok changes) :
    (changes.map Change.subject).Nodup ∧ ∀ change ∈ changes, rt.Named change ∧ change.category = category ∧
        change.subject ∈ subjects := by
  induction subjects generalizing changes with
  | nil =>
    cases compared
    exact ⟨nodup_nil, fun _ member => absurd member (not_mem_nil)⟩
  | cons subject rest ih =>
    rw [nodup_cons] at distinct
    simp only [compareSubjects, result_bind, Except.ok.injEq] at compared
    obtain ⟨first, one, others, more, rfl⟩ := compared
    obtain ⟨single, named⟩ := compareSubject_ok one
    obtain ⟨subjects, tail⟩ := ih distinct.2 more
    constructor
    · rw [map_append, nodup_append]
      refine ⟨?_, subjects, ?_⟩
      · rcases single with rfl | ⟨change, rfl⟩
        · exact nodup_nil
        · exact nodup_singleton _
      · intro left inFirst right inOthers same
        obtain ⟨change, member, rfl⟩ := mem_map.mp inFirst
        obtain ⟨other, present, rfl⟩ := mem_map.mp inOthers
        rw [(named change member).2.2] at same
        exact distinct.1 (same ▸ (tail other present).2.2)
    · intro change member
      rcases mem_append.mp member with here | later
      · obtain ⟨key, kind, subject⟩ := named change here
        exact ⟨key, kind, subject ▸ mem_cons_self⟩
      · obtain ⟨key, kind, subject⟩ := tail change later
        exact ⟨key, kind, mem_cons_of_mem _ subject⟩

theorem union_nodup (first second : List String) : (union first second).Nodup := by
  exact (perm_insertionSort _ _).nodup_iff.mpr (nodup_dedup _)

theorem compareCategory_ok {baseline current : Value F}
    (compared : rt.compareCategory category baseline current = .ok changes) :
    (changes.map Change.subject).Nodup ∧ ∀ change ∈ changes, rt.Named change ∧ change.category = category := by
  unfold compareCategory at compared
  dsimp only at compared
  split at compared
  · obtain ⟨subjects, named⟩ := compareSubjects_ok (union_nodup _ _) compared
    exact ⟨subjects, fun change member => ⟨(named change member).1, (named change member).2.1⟩⟩
  · cases compared

structure Distinct (rt : Platform F) (changes : List (Change F)) : Prop where
  named : ∀ change ∈ changes, rt.Named change
  keys : (changes.map Change.key).Nodup

theorem category_keys (collisionFree : Function.Injective rt.sha256)
    (subjects : (changes.map Change.subject).Nodup) (named : ∀ change ∈ changes, rt.Named change) :
    (changes.map Change.key).Nodup := by
  rw [nodup_iff_pairwise_ne, pairwise_map] at subjects ⊢
  refine subjects.imp_of_mem fun {first second} one two apart same => apart ?_
  rw [named first one, named second two] at same
  exact (keyText_inj (collisionFree same)).2.1

theorem compareSnapshots_distinct (collisionFree : Function.Injective rt.sha256) {baseline current : Value F}
    (compared : rt.compareSnapshots baseline current = .ok changes) : rt.Distinct changes := by
  simp only [compareSnapshots, result_bind, Except.ok.injEq] at compared
  obtain ⟨files, one, containers, two, rfl⟩ := compared
  obtain ⟨fileSubjects, fileNames⟩ := compareCategory_ok one
  obtain ⟨containerSubjects, containerNames⟩ := compareCategory_ok two
  have named : ∀ change ∈ files ++ containers, rt.Named change := by
    intro change member
    rcases mem_append.mp member with file | container
    · exact (fileNames change file).1
    · exact (containerNames change container).1
  refine ⟨named, ?_⟩
  rw [map_append, nodup_append]
  refine ⟨category_keys collisionFree fileSubjects fun change member => (fileNames change member).1,
    category_keys collisionFree containerSubjects fun change member => (containerNames change member).1, ?_⟩
  intro left inFiles right inContainers same
  obtain ⟨file, member, rfl⟩ := mem_map.mp inFiles
  obtain ⟨container, present, rfl⟩ := mem_map.mp inContainers
  rw [(fileNames file member).1, (containerNames container present).1] at same
  have categories := (keyText_inj (collisionFree same)).1
  rw [(fileNames file member).2, (containerNames container present).2] at categories
  cases categories

theorem changesFrom_distinct (collisionFree : Function.Injective rt.sha256)
    {baseline : Option (String × Value F)} {snapshot : Snapshot F}
    (compared : rt.changesFrom baseline snapshot = .ok changes) : rt.Distinct changes := by
  unfold changesFrom at compared
  split at compared
  · cases compared
    exact ⟨fun _ member => absurd member (not_mem_nil), nodup_nil⟩
  · exact compareSnapshots_distinct collisionFree compared

structure FindingsOnly (db after : Db F) : Prop where
  keyed : Keyed after
  baselines : after.baselines = db.baselines
  observations : after.observations = db.observations
  events : after.events = db.events

theorem openChanges_ok {now : F} {start db after : Db F} (began : Keyed start)
    {entries : List (Change F × String)} {opened : List (List String)} (keyed : Keyed db)
    (distinct : (entries.map fun entry => entry.1.key).Nodup)
    (untouched : ∀ entry ∈ entries, db.finding entry.1.key = start.finding entry.1.key)
    (done : Transaction.each (rt.openChange now (start.findings.filter Finding.isOpen)) entries db =
      .ok (opened, after)) :
    FindingsOnly db after ∧ (∀ wanted, wanted ∉ entries.map (fun entry => entry.1.key) →
        after.finding wanted = db.finding wanted) ∧
      List.Forall₂ (fun entry ids => rt.Opened now start after entry.1 entry.2 ids) entries opened := by
  induction entries generalizing db opened with
  | nil =>
    obtain ⟨rfl, rfl⟩ := Prod.mk.inj (pure_ok.mp done)
    exact ⟨⟨keyed, rfl, rfl, rfl⟩, fun _ _ => rfl, List.Forall₂.nil⟩
  | cons entry rest ih =>
    obtain ⟨change, drawn⟩ := entry
    rw [map_cons, nodup_cons] at distinct
    obtain ⟨ids, middle, first, more⟩ := bind_ok.mp done
    obtain ⟨others, last, tail, final⟩ := bind_ok.mp more
    obtain ⟨rfl, rfl⟩ := Prod.mk.inj (pure_ok.mp final)
    obtain ⟨row, middleKeyed, frame, baselines, observations, events⟩ :=
      openChange_ok keyed began (untouched _ (mem_cons_self)) first
    have apart : ∀ other ∈ rest, other.1.key ≠ change.key := by
      intro other member same
      exact distinct.1 (same ▸ mem_map_of_mem member)
    obtain ⟨only, later, all⟩ := ih middleKeyed distinct.2 (fun other member => by
      rw [frame _ (apart other member)]
      exact untouched other (mem_cons_of_mem _ member)) tail
    refine ⟨⟨only.keyed, only.baselines.trans baselines, only.observations.trans observations,
      only.events.trans events⟩, ?_, ?_⟩
    · intro wanted unlisted
      rw [map_cons, mem_cons, not_or] at unlisted
      rw [later wanted unlisted.2, frame wanted unlisted.1]
    · refine List.Forall₂.cons ?_ all
      obtain ⟨details, signature, encoded, signed, found, listed⟩ := row
      refine ⟨details, signature, encoded, signed, ?_, listed⟩
      rw [later _ distinct.1]
      exact found

def Resolved (rt : Platform F) (now : F) (after : Db F) (row : Finding F) : Prop :=
  ∃ signature, rt.findingSignature { row with resolvedAt := some now } = .ok signature ∧
    after.finding row.findingKey = some { row with resolvedAt := some now, signature := signature }

theorem resolves_ok {now : F} {db after : Db F} {rows : List (Finding F)} {resolved : List String}
    (keyed : Keyed db) (distinct : (rows.map Finding.findingKey).Nodup)
    (present : ∀ row ∈ rows, db.finding row.findingKey = some row)
    (done : Transaction.each (rt.resolve now) rows db = .ok (resolved, after)) :
    FindingsOnly db after ∧
      (∀ wanted, wanted ∉ rows.map Finding.findingKey → after.finding wanted = db.finding wanted) ∧
      (∀ row ∈ rows, rt.Resolved now after row) ∧ resolved = rows.map Finding.id := by
  induction rows generalizing db resolved with
  | nil =>
    obtain ⟨rfl, rfl⟩ := Prod.mk.inj (pure_ok.mp done)
    exact ⟨⟨keyed, rfl, rfl, rfl⟩, fun _ _ => rfl, fun _ member => absurd member (not_mem_nil), rfl⟩
  | cons row rest ih =>
    rw [map_cons, nodup_cons] at distinct
    obtain ⟨id, middle, first, more⟩ := bind_ok.mp done
    obtain ⟨others, last, tail, final⟩ := bind_ok.mp more
    obtain ⟨rfl, rfl⟩ := Prod.mk.inj (pure_ok.mp final)
    have member := (finding_mem (present row (mem_cons_self))).1
    unfold resolve at first
    rw [write_bind] at first
    obtain ⟨_, state, signed, final⟩ := bind_ok.mp first
    obtain ⟨rfl, rfl⟩ := Prod.mk.inj (pure_ok.mp final)
    obtain ⟨-, touched⟩ := @update_touched F db keyed row member
      (fun row => { row with resolvedAt := some now }) fun _ => ⟨rfl, rfl⟩
    obtain ⟨signature, text, all⟩ := Touched.sign touched signed
    have apart : ∀ other ∈ rest, other.findingKey ≠ row.findingKey := by
      intro other inside same
      exact distinct.1 (same ▸ mem_map_of_mem inside)
    obtain ⟨only, later, ended, ids⟩ := ih all.keyed distinct.2 (fun other inside => by
      rw [all.find, if_neg (apart other inside)]
      exact present other (mem_cons_of_mem _ inside)) tail
    refine ⟨⟨only.keyed, only.baselines.trans all.baselines,
      only.observations.trans all.observations, only.events.trans all.events⟩, ?_, ?_, ?_⟩
    · intro wanted unlisted
      rw [map_cons, mem_cons, not_or] at unlisted
      rw [later wanted unlisted.2, all.find, if_neg unlisted.1]
    · intro other inside
      rcases mem_cons.mp inside with rfl | inside
      · refine ⟨signature, text, ?_⟩
        rw [later _ distinct.1, all.find, if_pos rfl]
      · exact ended other inside
    · rw [ids, map_cons]

end Platform

end Dash.Drift
