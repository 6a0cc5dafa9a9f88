import Dash.Drift.Signing

/-! What the calls of the store keep, and what a successful `observe` does: the open findings are the drift
of the last observation.
-/

set_option autoImplicit false

namespace Dash.Drift

open Dash.Python Dash.Foundation List
open Foundation.Transaction (bind_ok check_bind lift_bind pure_ok raise_ok read_bind write_bind)

variable {F : Type}

theorem Touched.rows {db after : Db F} {key : String} {new row : Finding F}
    (touched : Touched db after key new) (member : row ∈ after.findings) :
    row = new ∨ (row ∈ db.findings ∧ row.findingKey ≠ key) := by
  have found := touched.find row.findingKey
  rw [touched.keyed.finding_of_mem member] at found
  by_cases same : row.findingKey = key
  · rw [if_pos same] at found
    exact Or.inl (Option.some.inj found)
  · rw [if_neg same] at found
    exact Or.inr ⟨(finding_mem found.symm).1, same⟩

namespace Platform

variable {rt : Platform F}

/-- Every row is signed, the events are a chain, and every finding has the key of what it is
about and, while it is open, the settled flag of its subject. -/
structure Inv (rt : Platform F) (db : Db F) : Prop where
  keyed : Keyed db
  named : ∀ row ∈ db.findings, row.findingKey = rt.keyOf row.category row.subject row.changeType
  signed : ∀ row ∈ db.findings, rt.Signed row
  baselines : ∀ row ∈ db.baselines, rt.baselineValid row = .ok true
  observations : ∀ row ∈ db.observations, rt.observationValid row = .ok true
  events : rt.chainValid none db.events = .ok true
  fixed : ∀ id baseline, rt.activeBaseline db = .ok (some (id, baseline)) →
    ∀ row ∈ db.findings, row.isOpen = true → rt.Fixed baseline row

theorem Inv.empty : rt.Inv ⟨[], [], [], []⟩ where
  keyed := ⟨nodup_nil, nodup_nil⟩
  named _ member := absurd member not_mem_nil
  signed _ member := absurd member not_mem_nil
  baselines _ member := absurd member not_mem_nil
  observations _ member := absurd member not_mem_nil
  events := rfl
  fixed _ _ _ _ member := absurd member not_mem_nil

theorem Inv.verified {db : Db F} (inv : rt.Inv db) : rt.verify db = ⟨true, true, true, true⟩ := by
  have baselines := allValid_of inv.baselines
  have observations := allValid_of inv.observations
  have findings := allValid_of fun row member => (inv.signed row member).valid
  simp only [verify, baselines, observations, findings, inv.events]
  rfl

variable {db after : Db F}

theorem activeBaseline_congr (same : after.baselines = db.baselines) :
    rt.activeBaseline after = rt.activeBaseline db := by
  rw [activeBaseline, activeBaseline, same]

theorem signs_ok {ids : List String} {results : List Unit} (keyed : Keyed db)
    (done : Transaction.each rt.signFinding ids db = .ok (results, after)) :
    FindingsOnly db after ∧ ∀ row ∈ after.findings, ∃ old ∈ db.findings, ∃ signature,
      row = { old with signature := signature } ∧ (old.id ∈ ids → rt.Signed row) ∧ (old.id ∉ ids → row = old) := by
  induction ids generalizing db results with
  | nil =>
    obtain ⟨rfl, rfl⟩ := Prod.mk.inj (pure_ok.mp done)
    exact ⟨⟨keyed, rfl, rfl, rfl⟩, fun row member => ⟨row, member, row.signature, rfl,
      fun listed => absurd listed not_mem_nil, fun _ => rfl⟩⟩
  | cons id rest ih =>
    obtain ⟨_, middle, first, more⟩ := bind_ok.mp done
    obtain ⟨others, last, tail, final⟩ := bind_ok.mp more
    obtain ⟨rfl, rfl⟩ := Prod.mk.inj (pure_ok.mp final)
    obtain ⟨target, present, named, signature, text, touched⟩ := signFinding_ok keyed first
    obtain ⟨only, rows⟩ := ih touched.keyed tail
    refine ⟨⟨only.keyed, only.baselines.trans touched.baselines,
      only.observations.trans touched.observations, only.events.trans touched.events⟩, ?_⟩
    intro row member
    obtain ⟨old, inside, mark, same, again, kept⟩ := rows row member
    rcases touched.rows inside with signedNow | ⟨before, apart⟩
    · refine ⟨target, present, row.signature, ?_, fun _ => ?_, fun unlisted => ?_⟩
      · rw [same, signedNow]
      · by_cases later : old.id ∈ rest
        · exact again later
        · rw [kept later, signedNow]
          exact text
      · exact absurd (named ▸ mem_cons_self) unlisted
    · refine ⟨old, before, mark, same, fun listed => ?_, fun unlisted => ?_⟩
      · rcases mem_cons.mp listed with hit | later
        · have identical := keyed.same_id before present (hit.trans named.symm)
          exact absurd (congrArg Finding.findingKey identical) apart
        · exact again later
      · exact kept fun later => unlisted (mem_cons_of_mem _ later)

/-- What `seal` does to a finding before it is signed. -/
def close (now : F) (row : Finding F) : Finding F :=
  if row.isOpen then { row with resolvedAt := some now } else row

theorem close_fields (now : F) (row : Finding F) :
    (close now row).id = row.id ∧ (close now row).findingKey = row.findingKey ∧
      (close now row).category = row.category ∧ (close now row).subject = row.subject ∧
      (close now row).changeType = row.changeType ∧ (close now row).isOpen = false := by
  unfold close
  by_cases opened : row.isOpen = true
  · rw [if_pos opened]
    exact ⟨rfl, rfl, rfl, rfl, rfl, rfl⟩
  · rw [if_neg opened]
    exact ⟨rfl, rfl, rfl, rfl, rfl, Bool.not_eq_true _ ▸ opened⟩

theorem close_keyed {db middle : Db F} (keyed : Keyed db) (now : F)
    (rows : middle.findings = db.findings.map (close now)) : Keyed middle := by
  constructor
  · have same : middle.findings.map Finding.findingKey = db.findings.map Finding.findingKey := by
      rw [rows, map_map]
      exact map_congr_left fun row _ => (close_fields now row).2.1
    exact same ▸ keyed.keys
  · have same : middle.findings.map Finding.id = db.findings.map Finding.id := by
      rw [rows, map_map]
      exact map_congr_left fun row _ => (close_fields now row).1
    exact same ▸ keyed.ids

theorem seal_ok {snapshot : Snapshot F} {actor reason id : String} {now : F} {result : Unit} (inv : rt.Inv db)
    (done : rt.sealSnapshot snapshot actor reason id now db = .ok (result, after)) :
    rt.Inv after ∧ ∀ row ∈ after.findings, row.isOpen = false := by
  unfold sealSnapshot at done
  dsimp only at done
  obtain ⟨-, done⟩ := check_bind.mp done
  obtain ⟨text, written, done⟩ := lift_bind.mp done
  obtain ⟨signature, signed, done⟩ := lift_bind.mp done
  rw [read_bind] at done
  obtain ⟨-, done⟩ := check_bind.mp done
  rw [write_bind, write_bind] at done
  obtain ⟨_, middle, signs, told⟩ := bind_ok.mp done
  obtain ⟨only, rows⟩ := signs_ok (by exact close_keyed inv.keyed now rfl) signs
  have chained : rt.chainValid none middle.events = .ok true := by
    rw [only.events]
    exact inv.events
  obtain ⟨event, -, -, rfl, valid⟩ := event_ok (plain_object (by simp) (by
    intro field member
    simp only [mem_cons, not_mem_nil, or_false] at member
    rcases member with rfl | rfl | rfl | rfl
    · trivial
    · dsimp only
      cases (db.baselines.find? Baseline.active).map Baseline.id <;> trivial
    · trivial
    · trivial)) chained told
  have closed : ∀ row ∈ middle.findings, row.isOpen = false ∧
      row.findingKey = rt.keyOf row.category row.subject row.changeType ∧ rt.Signed row := by
    intro row member
    obtain ⟨old, inside, mark, same, again, kept⟩ := rows row member
    obtain ⟨origin, before, shape⟩ : ∃ origin ∈ db.findings, close now origin = old := mem_map.mp inside
    subst shape
    obtain ⟨sameId, key, category, subject, kind, shut⟩ := close_fields now origin
    refine ⟨by rw [same]; exact shut, ?_, ?_⟩
    · rw [same]
      change (close now origin).findingKey = rt.keyOf (close now origin).category
        (close now origin).subject (close now origin).changeType
      rw [key, category, subject, kind]
      exact inv.named origin before
    · by_cases opened : origin.isOpen = true
      · apply again
        rw [sameId]
        exact mem_map_of_mem (mem_filter.mpr ⟨before, opened⟩)
      · have unlisted : (close now origin).id ∉ (db.findings.filter Finding.isOpen).map Finding.id := by
          intro listed
          obtain ⟨other, present, equal⟩ := mem_map.mp listed
          obtain ⟨there, open_⟩ := mem_filter.mp present
          rw [inv.keyed.same_id there before (equal.trans sameId)] at open_
          exact opened open_
        have whole := kept unlisted
        rw [close, if_neg opened] at whole
        rw [whole]
        exact inv.signed origin before
  refine ⟨⟨⟨only.keyed.keys, only.keyed.ids⟩, fun row member => (closed row member).2.1,
    fun row member => (closed row member).2.2, ?_, ?_, valid, ?_⟩,
    fun row member => (closed row member).1⟩
  · intro row member
    have inside : row ∈ middle.baselines := member
    rw [only.baselines] at inside
    rcases mem_append.mp inside with old | new
    · obtain ⟨origin, before, rfl⟩ := mem_map.mp old
      have same : ∀ active, rt.baselineValid { origin with active := active } =
          rt.baselineValid origin := fun _ => rfl
      split
      · rw [same]
        exact inv.baselines origin before
      · exact inv.baselines origin before
    · rw [mem_singleton.mp new]
      exact baselineValid_written snapshot.payload_plain written rfl signed
  · intro row member
    have inside : row ∈ middle.observations := member
    rw [only.observations] at inside
    exact inv.observations row inside
  · intro _ _ _ row member open_
    rw [(closed row member).1] at open_
    cases open_

theorem acknowledge_ok {findingId actor note : String} {now : F} {result : Unit}
    (inv : rt.Inv db) (done : rt.acknowledge findingId actor note now db = .ok (result, after)) :
    rt.Inv after := by
  unfold acknowledge at done
  obtain ⟨-, done⟩ := check_bind.mp done
  rw [read_bind] at done
  cases found : db.findings.find? fun row => row.id = findingId ∧ row.isOpen with
  | none =>
    rw [found] at done
    exact (raise_ok.mp done).elim
  | some row =>
    rw [found] at done
    dsimp only at done
    have member := List.mem_of_find?_eq_some found
    have opened : row.isOpen = true := by
      have both := List.find?_some found
      simp only [Bool.decide_and, Bool.and_eq_true, decide_eq_true_eq] at both
      exact both.2
    rw [write_bind] at done
    obtain ⟨_, middle, signs, told⟩ := bind_ok.mp done
    obtain ⟨equal, touched⟩ := @update_touched F db inv.keyed row member (fun row => { row with
        acknowledgedAt := some now
        acknowledgedBy := some (cleaned 128 actor)
        note := cleaned 2000 note }) fun _ => ⟨rfl, rfl⟩
    rw [← equal] at touched
    obtain ⟨signature, text, all⟩ := Touched.sign touched signs
    have chained : rt.chainValid none middle.events = .ok true := by
      rw [all.events]
      exact inv.events
    obtain ⟨event, -, -, rfl, valid⟩ := event_ok (plain_texts [("findingId", row.id),
      ("note", cleaned 2000 note)] (by simp)) chained told
    refine ⟨⟨all.keyed.keys, all.keyed.ids⟩, fun other inside => ?_, fun other inside => ?_,
      fun other inside => ?_, fun other inside => ?_, valid, ?_⟩
    · rcases all.rows inside with rfl | ⟨before, -⟩
      · exact inv.named row member
      · exact inv.named other before
    · rcases all.rows inside with rfl | ⟨before, -⟩
      · exact text
      · exact inv.signed other before
    · have present : other ∈ middle.baselines := inside
      rw [all.baselines] at present
      exact inv.baselines other present
    · have present : other ∈ middle.observations := inside
      rw [all.observations] at present
      exact inv.observations other present
    · intro id baseline active other inside open_
      have before : rt.activeBaseline db = .ok (some (id, baseline)) :=
        (activeBaseline_congr all.baselines).symm.trans active
      rcases all.rows inside with rfl | ⟨there, -⟩
      · exact inv.fixed id baseline before row member opened
      · exact inv.fixed id baseline before other there open_

end Platform

open Foundation.Transaction (bind_ok lift_bind pure_ok read_bind write_bind)

theorem entries_changes (changes : List (Change F)) (drawn : Nat → String) :
    (changes.zipIdx.map fun entry => (entry.1, drawn entry.2)).map Prod.fst = changes := by
  rw [map_map]
  exact zipIdx_map_fst 0 changes

theorem entries_keys (changes : List (Change F)) (drawn : Nat → String) :
    (changes.zipIdx.map fun entry => (entry.1, drawn entry.2)).map (fun entry => entry.1.key) =
      changes.map Change.key := by
  have keys := congrArg (List.map Change.key) (entries_changes changes drawn)
  rwa [map_map] at keys

namespace Platform

variable {rt : Platform F}

theorem opened_kept {now : F} {start middle after : Db F} {entries : List (Change F × String)}
    {opened : List (List String)}
    (all : List.Forall₂ (fun entry ids => rt.Opened now start middle entry.1 entry.2 ids) entries opened)
    (kept : ∀ entry ∈ entries, after.finding entry.1.key = middle.finding entry.1.key) :
    List.Forall₂ (fun entry ids => rt.Opened now start after entry.1 entry.2 ids)
      entries opened := by
  induction all with
  | nil => exact List.Forall₂.nil
  | @cons entry ids others more first rest ih =>
    obtain ⟨details, signature, encoded, text, found, listed⟩ := first.row
    refine List.Forall₂.cons ⟨details, signature, encoded, text, ?_, listed⟩
      (ih fun other member => kept other (mem_cons_of_mem _ member))
    rw [kept entry mem_cons_self]
    exact found

theorem opened_ids {now : F} {start after : Db F} (keyed : Keyed after)
    {entries : List (Change F × String)} {opened : List (List String)}
    (distinct : (entries.map fun entry => entry.1.key).Nodup)
    (all : List.Forall₂ (fun entry ids => rt.Opened now start after entry.1 entry.2 ids) entries opened) :
    opened.flatten.Nodup ∧ (∀ entry ∈ entries, ∃ ids, rt.Opened now start after entry.1 entry.2 ids) ∧
      ∀ id, id ∈ opened.flatten ↔ ∃ entry ∈ entries, openAt start entry.1.key = false ∧
        ∃ row, after.finding entry.1.key = some row ∧ row.id = id := by
  induction all with
  | nil =>
    exact ⟨nodup_nil, fun _ member => absurd member not_mem_nil, fun id => by simp⟩
  | @cons entry ids others more first rest ih =>
    rw [map_cons, nodup_cons] at distinct
    obtain ⟨once, each, members⟩ := ih distinct.2
    obtain ⟨details, signature, -, -, found, listed⟩ := first.row
    have shown : ∀ id, id ∈ ids ↔ openAt start entry.1.key = false ∧
        ∃ row, after.finding entry.1.key = some row ∧ row.id = id := by
      intro id
      rw [listed, found]
      cases shut : openAt start entry.1.key with
      | true => simp
      | false => simp [eq_comm]
    refine ⟨?_, ?_, ?_⟩
    · rw [flatten_cons, nodup_append]
      refine ⟨?_, once, ?_⟩
      · rw [listed]
        split
        · exact nodup_nil
        · exact nodup_singleton _
      · intro one inFirst other inRest same
        obtain ⟨-, row, here, named⟩ := (shown one).mp inFirst
        obtain ⟨second, member, -, row', there, named'⟩ := (members other).mp inRest
        have identical := keyed.same_id (finding_mem here).1 (finding_mem there).1
          (named.trans (same.trans named'.symm))
        have keys : second.1.key = entry.1.key := by
          rw [← (finding_mem there).2, ← (finding_mem here).2, identical]
        apply distinct.1
        rw [← keys]
        exact mem_map.mpr ⟨second, member, rfl⟩
    · intro other member
      rcases mem_cons.mp member with rfl | later
      · exact ⟨ids, first⟩
      · exact each other later
    · intro id
      rw [flatten_cons, mem_append, shown, members]
      constructor
      · rintro (here | ⟨other, member, facts⟩)
        · exact ⟨entry, mem_cons_self, here⟩
        · exact ⟨other, mem_cons_of_mem _ member, facts⟩
      · rintro ⟨other, member, facts⟩
        rcases mem_cons.mp member with rfl | later
        · exact Or.inl facts
        · exact Or.inr ⟨other, later, facts⟩

theorem observationValid_signed {row : Observation F} {signature : String}
    (signed : rt.sign (observationValue row) = .ok signature) :
    rt.observationValid { row with signature := signature } = .ok true := by
  have same : rt.sign (observationValue { row with signature := signature }) = .ok signature := signed
  rw [observationValid, same]
  simp [Except.map]

def goneFrom (changes : List (Change F)) (db : Db F) : List (Finding F) :=
  (db.findings.filter Finding.isOpen).filter fun row =>
    !(changes.any fun change => change.key = row.findingKey)

theorem mem_goneFrom {changes : List (Change F)} {db : Db F} {row : Finding F} : row ∈ goneFrom changes db ↔
      row ∈ db.findings ∧ row.isOpen = true ∧ row.findingKey ∉ changes.map Change.key := by
  simp only [goneFrom, mem_filter, Bool.not_eq_true', any_eq_false, decide_eq_true_eq,
    and_assoc, mem_map, not_exists, not_and]

/-- What a successful `observe` does. -/
structure Observes (rt : Platform F) (now : F) (changes : List (Change F)) (db after : Db F)
    (result : Observed F) : Prop where
  keyed : Keyed after
  baselines : after.baselines = db.baselines
  stored : result.observation ∈ after.observations
  observations : ∀ row ∈ after.observations, row ∈ db.observations ∨ row = result.observation
  valid : rt.observationValid result.observation = .ok true
  count : result.observation.criticalCount = changes.countP Change.critical
  current : ∀ change ∈ changes, ∃ drawn ids, rt.Opened now db after change drawn ids
  gone : ∀ row ∈ goneFrom changes db, rt.Resolved now after row
  same : ∀ wanted, wanted ∉ changes.map Change.key → openAt db wanted = false →
    after.finding wanted = db.finding wanted
  once : result.opened.Nodup
  opened : ∀ id, id ∈ result.opened ↔ ∃ change ∈ changes, openAt db change.key = false ∧
    ∃ row, after.finding change.key = some row ∧ row.id = id
  resolved : result.resolved = (goneFrom changes db).map Finding.id
  events : ∃ opening closing, rt.Lists "drift-opened" result.opened opening ∧
    rt.Lists "drift-resolved" result.resolved closing ∧
    after.events = db.events ++ (opening ++ closing) ∧ rt.chainValid none after.events = .ok true

theorem observe_ok (collisionFree : Function.Injective rt.sha256) {snapshot : Snapshot F}
    {maintenanceActive : Bool} {drawn : Nat → String} {now : F} {db after : Db F}
    {result : Observed F} (inv : rt.Inv db)
    (done : rt.observe snapshot maintenanceActive drawn now db = .ok (result, after)) :
    ∃ baseline changes, rt.activeBaseline db = .ok baseline ∧
      rt.changesFrom baseline snapshot = .ok changes ∧ rt.Observes now changes db after result := by
  unfold observe at done
  rw [read_bind] at done
  obtain ⟨baseline, active, done⟩ := lift_bind.mp done
  obtain ⟨changes, compared, done⟩ := lift_bind.mp done
  obtain ⟨opened, middle, opens, done⟩ := bind_ok.mp done
  obtain ⟨resolved, ended, closes, done⟩ := bind_ok.mp done
  obtain ⟨signature, signed, done⟩ := lift_bind.mp done
  rw [write_bind] at done
  obtain ⟨_, told, first, done⟩ := bind_ok.mp done
  obtain ⟨_, last, second, final⟩ := bind_ok.mp done
  obtain ⟨rfl, rfl⟩ := Prod.mk.inj (pure_ok.mp final)
  refine ⟨baseline, changes, active, compared, ?_⟩
  have distinct := changesFrom_distinct collisionFree compared
  have keys := entries_keys changes drawn
  have apart := keys ▸ distinct.keys
  obtain ⟨only, frame, all⟩ := openChanges_ok inv.keyed inv.keyed apart (fun _ _ => rfl) opens
  rw [keys] at frame
  -- The findings that are resolved are not those of the changes.
  have outside : ∀ row ∈ goneFrom changes db, middle.finding row.findingKey = some row := by
    intro row member
    obtain ⟨present, -, unlisted⟩ := mem_goneFrom.mp member
    rw [frame _ unlisted]
    exact inv.keyed.finding_of_mem present
  have once : ((goneFrom changes db).map Finding.findingKey).Nodup :=
    inv.keyed.keys.sublist ((filter_sublist.trans filter_sublist).map _)
  obtain ⟨onlyClosed, rest, ends, ids⟩ := resolves_ok only.keyed once outside closes
  have findings : ∀ key ∈ changes.map Change.key, ended.finding key = middle.finding key := by
    intro key listed
    apply rest
    intro resolvedKey
    obtain ⟨row, member, rfl⟩ := mem_map.mp resolvedKey
    exact (mem_goneFrom.mp member).2.2 listed
  have written : List.Forall₂ (fun entry ids => rt.Opened now db ended entry.1 entry.2 ids)
      (changes.zipIdx.map fun entry => (entry.1, drawn entry.2)) opened := by
    apply opened_kept all
    intro entry inside
    exact findings _ (keys ▸ mem_map.mpr ⟨entry, inside, rfl⟩)
  obtain ⟨nodup, each, members⟩ := opened_ids onlyClosed.keyed apart written
  have entryOf : ∀ change, change ∈ changes ↔
      ∃ entry ∈ changes.zipIdx.map fun entry => (entry.1, drawn entry.2), entry.1 = change := by
    intro change
    rw [← mem_map, entries_changes]
  have chained : rt.chainValid none ended.events = .ok true := by
    rw [onlyClosed.events, only.events]
    exact inv.events
  obtain ⟨opening, listsOpened, rfl, chainedOpened⟩ := announce_ok (by exact chained) first
  obtain ⟨closing, listsResolved, rfl, chainedResolved⟩ := announce_ok chainedOpened second
  refine ⟨⟨onlyClosed.keyed.keys, onlyClosed.keyed.ids⟩, onlyClosed.baselines.trans only.baselines,
    ?_, ?_, ?_, rfl, ?_, ends, ?_, nodup, ?_, ids, opening, closing, listsOpened, listsResolved, ?_,
    chainedResolved⟩
  · refine mem_filter.mpr ⟨mem_append_right _ (mem_singleton.mpr rfl), ?_⟩
    rw [rt.expired_now]
    rfl
  · intro row member
    rcases mem_append.mp (mem_filter.mp member).1 with old | new
    · left
      rw [onlyClosed.observations, only.observations] at old
      exact old
    · exact Or.inr (mem_singleton.mp new)
  · exact observationValid_signed signed
  · intro change member
    obtain ⟨entry, inside, rfl⟩ := (entryOf change).mp member
    obtain ⟨ids, row⟩ := each entry inside
    exact ⟨entry.2, ids, ⟨row.row⟩⟩
  · intro wanted unlisted shut
    have kept := rest wanted (by
      intro resolvedKey
      obtain ⟨row, member, rfl⟩ := mem_map.mp resolvedKey
      obtain ⟨present, open_, -⟩ := mem_goneFrom.mp member
      rw [openAt, inv.keyed.finding_of_mem present] at shut
      rw [Option.any_some, open_] at shut
      cases shut)
    exact kept.trans (frame wanted unlisted)
  · intro id
    refine (members id).trans ?_
    constructor
    · rintro ⟨entry, inside, shut, found⟩
      exact ⟨entry.1, (entryOf _).mpr ⟨entry, inside, rfl⟩, shut, found⟩
    · rintro ⟨change, member, shut, found⟩
      obtain ⟨entry, inside, rfl⟩ := (entryOf change).mp member
      exact ⟨entry, inside, shut, found⟩
  · change ended.events ++ opening ++ closing = _
    rw [onlyClosed.events, only.events, append_assoc]

end Platform

namespace Platform

variable {rt : Platform F}

namespace Observes

variable {now : F} {changes : List (Change F)} {db after : Db F} {result : Observed F}

theorem row (collisionFree : Function.Injective rt.sha256) (inv : rt.Inv db)
    (distinct : rt.Distinct changes) (facts : rt.Observes now changes db after result)
    {change : Change F} (member : change ∈ changes) :
    ∃ row details drawn signature, after.finding change.key = some row ∧
      row = { written now change drawn details (db.finding change.key) with
        signature := signature } ∧
      rt.canonical change.details = .ok details ∧ Describes row change details ∧ rt.Signed row := by
  obtain ⟨drawn, ids, opened⟩ := facts.current change member
  obtain ⟨details, signature, encoded, text, found, -⟩ := opened.row
  have described : Describes (written now change drawn details (db.finding change.key)) change details := by
    apply written_of collisionFree (distinct.named change member)
    intro old before
    obtain ⟨inside, named⟩ := finding_mem before
    exact ⟨named, inv.named old inside⟩
  refine ⟨_, details, drawn, signature, found, rfl, encoded, ?_, text⟩
  exact ⟨described.key, described.category, described.subject, described.kind, described.opened, described.details⟩

theorem kinds (facts : rt.Observes now changes db after result) {row : Finding F} (member : row ∈ after.findings) :
    (∃ change ∈ changes, change.key = row.findingKey) ∨ (∃ old ∈ goneFrom changes db, ∃ signature,
        row = { old with resolvedAt := some now, signature := signature } ∧ rt.Signed row) ∨
      (row ∈ db.findings ∧ row.isOpen = false) := by
  by_cases listed : row.findingKey ∈ changes.map Change.key
  · exact Or.inl (List.mem_map.mp listed)
  · right
    have found := facts.keyed.finding_of_mem member
    cases wasOpen : openAt db row.findingKey with
    | true =>
      left
      rw [openAt, Option.any_eq_true] at wasOpen
      obtain ⟨old, before, open_⟩ := wasOpen
      obtain ⟨inside, named⟩ := finding_mem before
      have gone := mem_goneFrom.mpr ⟨inside, open_, named ▸ listed⟩
      obtain ⟨signature, text, stored⟩ := facts.gone old gone
      rw [← named] at found
      rw [found] at stored
      refine ⟨old, gone, signature, Option.some.inj stored, ?_⟩
      rw [Option.some.inj stored]
      exact text
    | false =>
      right
      rw [facts.same _ listed wasOpen] at found
      refine ⟨(finding_mem found).1, ?_⟩
      rw [openAt, found, Option.any_some] at wasOpen
      exact wasOpen

theorem of_open (facts : rt.Observes now changes db after result) {row : Finding F}
    (member : row ∈ after.findings) (open_ : row.isOpen = true) :
    ∃ change ∈ changes, change.key = row.findingKey := by
  rcases facts.kinds member with changed | ⟨old, -, signature, rfl, -⟩ | ⟨-, shut⟩
  · exact changed
  · cases open_
  · rw [shut] at open_
    cases open_

theorem kept (collisionFree : Function.Injective rt.sha256) (inv : rt.Inv db)
    (distinct : rt.Distinct changes) (facts : rt.Observes now changes db after result)
    {old : Finding F} (member : old ∈ db.findings) :
    ∃ new ∈ after.findings, new.id = old.id ∧ new.findingKey = old.findingKey := by
  have before := inv.keyed.finding_of_mem member
  by_cases listed : old.findingKey ∈ changes.map Change.key
  · obtain ⟨change, inside, same⟩ := List.mem_map.mp listed
    obtain ⟨row, details, drawn, signature, found, rfl, -⟩ := facts.row collisionFree inv distinct inside
    obtain ⟨present, named⟩ := finding_mem found
    refine ⟨_, present, ?_, named.trans same⟩
    rw [same, before]
    exact written_id now change drawn details old
  · cases open_ : old.isOpen with
    | true =>
      obtain ⟨signature, -, found⟩ := facts.gone old (mem_goneFrom.mpr ⟨member, open_, listed⟩)
      exact ⟨_, (finding_mem found).1, rfl, rfl⟩
    | false =>
      have found := facts.same _ listed (by rw [openAt, before, Option.any_some, open_])
      exact ⟨old, (finding_mem (found.trans before)).1, rfl, rfl⟩

theorem same_key (collisionFree : Function.Injective rt.sha256) (inv : rt.Inv db)
    (distinct : rt.Distinct changes) (facts : rt.Observes now changes db after result)
    {old row : Finding F} (member : old ∈ db.findings) (present : row ∈ after.findings)
    (same : row.id = old.id) : row.findingKey = old.findingKey := by
  obtain ⟨new, inside, sameId, key⟩ := facts.kept collisionFree inv distinct member
  rw [facts.keyed.same_id present inside (same.trans sameId.symm)]
  exact key

theorem inv (collisionFree : Function.Injective rt.sha256) (inv : rt.Inv db)
    {snapshot : Snapshot F} {baseline : Option (String × Value F)}
    (active : rt.activeBaseline db = .ok baseline)
    (compared : rt.changesFrom baseline snapshot = .ok changes)
    (facts : rt.Observes now changes db after result) : rt.Inv after := by
  have distinct := changesFrom_distinct collisionFree compared
  refine ⟨facts.keyed, fun row member => ?_, fun row member => ?_, ?_, fun row member => ?_, ?_, ?_⟩
  · rcases facts.kinds member with ⟨change, listed, same⟩ | ⟨old, gone, _, rfl, -⟩ | ⟨before, -⟩
    · obtain ⟨other, _, _, _, found, -, -, described, -⟩ :=
        facts.row collisionFree inv distinct listed
      rw [same, facts.keyed.finding_of_mem member] at found
      obtain rfl := Option.some.inj found
      rw [described.key, described.category, described.subject, described.kind]
      exact distinct.named change listed
    · exact inv.named old (mem_goneFrom.mp gone).1
    · exact inv.named row before
  · rcases facts.kinds member with ⟨change, listed, same⟩ | ⟨old, gone, _, _, text⟩ | ⟨before, -⟩
    · obtain ⟨other, _, _, _, found, -, -, -, text⟩ := facts.row collisionFree inv distinct listed
      rw [same, facts.keyed.finding_of_mem member] at found
      obtain rfl := Option.some.inj found
      exact text
    · exact text
    · exact inv.signed row before
  · rw [facts.baselines]
    exact inv.baselines
  · rcases facts.observations row member with old | rfl
    · exact inv.observations row old
    · exact facts.valid
  · obtain ⟨_, _, -, -, -, valid⟩ := facts.events
    exact valid
  · intro id value current row member open_ flag settled
    have before : rt.activeBaseline db = .ok (some (id, value)) :=
      (activeBaseline_congr facts.baselines).symm.trans current
    rw [before] at active
    obtain rfl := Except.ok.inj active
    obtain ⟨change, listed, same⟩ := facts.of_open member open_
    obtain ⟨other, details, drawn, signature, found, shape, -, described, -⟩ :=
      facts.row collisionFree inv distinct listed
    rw [same, facts.keyed.finding_of_mem member] at found
    obtain rfl := Option.some.inj found
    have source : rt.Compared value snapshot.payload change := compareSnapshots_compared compared change listed
    rcases written_critical now change drawn details (db.finding change.key) with
      fresh | ⟨old, there, wasOpen, stays⟩
    · rw [shape]
      refine Eq.trans fresh (source.settled ?_)
      rw [← described.category, ← described.subject]
      exact settled
    · obtain ⟨inside, named⟩ := finding_mem there
      obtain ⟨category, subject, -⟩ := same_subject collisionFree (inv.named old inside)
        (distinct.named change listed) named
      rw [shape]
      refine Eq.trans stays (inv.fixed id value before old inside wasOpen flag ?_)
      rw [category, subject, ← described.category, ← described.subject]
      exact settled

end Observes

theorem perform_inv (collisionFree : Function.Injective rt.sha256) {db : Db F} (inv : rt.Inv db)
    (call : Call F) : rt.Inv (rt.perform db call) := by
  cases call with
  | sealed snapshot actor reason id now =>
    rw [perform]
    exact Transaction.commit_induction rt.Inv inv fun _ _ done => (seal_ok inv done).1
  | observe snapshot maintenanceActive drawn now =>
    rw [perform]
    refine Transaction.commit_induction rt.Inv inv fun result after done => ?_
    obtain ⟨baseline, changes, active, compared, facts⟩ := observe_ok collisionFree inv done
    exact facts.inv collisionFree inv active compared
  | acknowledge findingId actor note now =>
    rw [perform]
    exact Transaction.commit_induction rt.Inv inv fun _ _ done => acknowledge_ok inv done

theorem run_inv (collisionFree : Function.Injective rt.sha256) (calls : List (Call F)) : rt.Inv (rt.run calls) := by
  induction calls using List.reverseRecOn with
  | nil => exact Inv.empty
  | append_singleton calls call ih =>
    rw [run, List.foldl_append]
    exact perform_inv collisionFree ih call

end Platform

end Dash.Drift
