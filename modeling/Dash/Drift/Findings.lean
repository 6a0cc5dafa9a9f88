import Dash.Drift.Observing
import Dash.Python.Plain

/-! The open findings against the drift that was observed. -/

set_option autoImplicit false

namespace Dash.Drift

open Dash.Python Dash.Foundation List

variable {F : Type}

def Db.opens (db : Db F) (id : String) : Prop := ∃ row ∈ db.findings, row.id = id ∧ row.isOpen = true

def Finding.pressing (row : Finding F) : Bool := row.critical && row.isOpen

namespace Platform

variable {rt : Platform F}

structure Attests (rt : Platform F) (changes : List (Change F)) (db : Db F) : Prop where
  distinct : (changes.map Change.key).Nodup
  keys : ((db.findings.filter Finding.isOpen).map Finding.findingKey).Perm (changes.map Change.key)
  rows : ∀ row ∈ db.findings, row.isOpen = true → ∀ change ∈ changes,
    change.key = row.findingKey → row.category = change.category ∧ row.subject = change.subject ∧
      row.changeType = change.change ∧ row.critical = change.critical ∧
      rt.canonical change.details = .ok row.detailsJson

/-- Every finding that `observe` opened or resolved is in one event, and no other is. -/
structure Reports (rt : Platform F) (db after : Db F) (result : Observed F) : Prop where
  once : result.opened.Nodup ∧ result.resolved.Nodup
  opened : ∀ id, id ∈ result.opened ↔ after.opens id ∧ ¬ db.opens id
  resolved : ∀ id, id ∈ result.resolved ↔ db.opens id ∧ ¬ after.opens id
  events : ∃ opening closing, rt.Lists "drift-opened" result.opened opening ∧
    rt.Lists "drift-resolved" result.resolved closing ∧
    after.events = db.events ++ (opening ++ closing)

def Forgets (db after : Db F) : Prop :=
  ∀ old ∈ db.findings, old.isOpen = false → ∀ new ∈ after.findings, new.id = old.id →
    new.isOpen = true → new.acknowledgedAt = none ∧ new.acknowledgedBy = none ∧ new.note = ""

/-- The count of the changes that are critical is that of the findings. -/
theorem Attests.count {changes : List (Change F)} {db : Db F} (attests : rt.Attests changes db)
    (keyed : Keyed db) : db.findings.countP Finding.pressing = changes.countP Change.critical := by
  have nodup : ((db.findings.filter Finding.isOpen).map Finding.findingKey).Nodup :=
    keyed.keys.sublist (filter_sublist.map _)
  have findings : ((db.findings.filter Finding.isOpen).map fun row => (row.findingKey, row.critical)).Nodup := by
    refine List.Nodup.of_map Prod.fst ?_
    rwa [map_map]
  have drift : (changes.map fun change => (change.key, change.critical)).Nodup := by
    refine List.Nodup.of_map Prod.fst ?_
    rw [map_map]
    exact attests.distinct
  have pairs : ((db.findings.filter Finding.isOpen).map fun row => (row.findingKey, row.critical)).Perm
      (changes.map fun change => (change.key, change.critical)) := by
    rw [perm_ext_iff_of_nodup findings drift]
    rintro ⟨key, critical⟩
    constructor
    · intro member
      obtain ⟨row, inside, same⟩ := mem_map.mp member
      obtain ⟨present, open_⟩ := mem_filter.mp inside
      obtain ⟨change, listed, named⟩ := mem_map.mp (attests.keys.mem_iff.mp (mem_map_of_mem inside))
      obtain ⟨-, -, -, flag, -⟩ := attests.rows row present open_ change listed named
      refine mem_map.mpr ⟨change, listed, ?_⟩
      rw [named, ← flag]
      exact same
    · intro member
      obtain ⟨change, listed, same⟩ := mem_map.mp member
      obtain ⟨row, inside, named⟩ := mem_map.mp (attests.keys.mem_iff.mpr (mem_map_of_mem listed))
      obtain ⟨present, open_⟩ := mem_filter.mp inside
      obtain ⟨-, -, -, flag, -⟩ := attests.rows row present open_ change listed named.symm
      refine mem_map.mpr ⟨row, inside, ?_⟩
      rw [named, flag]
      exact same
  have counts := pairs.countP_eq Prod.snd
  rw [countP_map, countP_map, countP_filter] at counts
  exact counts

namespace Observes

variable {now : F} {changes : List (Change F)} {db after : Db F} {result : Observed F}

theorem attests (collisionFree : Function.Injective rt.sha256) (inv : rt.Inv db)
    {snapshot : Snapshot F} {id : String} {baseline : Value F}
    (active : rt.activeBaseline db = .ok (some (id, baseline)))
    (compared : rt.compareSnapshots baseline snapshot.payload = .ok changes)
    (steady : ∀ row ∈ db.findings, row.isOpen = true → rt.Steady baseline snapshot.payload row)
    (facts : rt.Observes now changes db after result) : rt.Attests changes after := by
  have distinct := compareSnapshots_distinct collisionFree compared
  refine ⟨distinct.keys, ?_, ?_⟩
  · have nodup : ((after.findings.filter Finding.isOpen).map Finding.findingKey).Nodup :=
      facts.keyed.keys.sublist (filter_sublist.map _)
    rw [perm_ext_iff_of_nodup nodup distinct.keys]
    intro key
    constructor
    · intro member
      obtain ⟨row, inside, rfl⟩ := mem_map.mp member
      obtain ⟨present, open_⟩ := mem_filter.mp inside
      exact mem_map.mpr (facts.of_open present open_)
    · intro member
      obtain ⟨change, listed, rfl⟩ := mem_map.mp member
      obtain ⟨row, _, _, _, found, -, -, described, -⟩ := facts.row collisionFree inv distinct listed
      exact mem_map.mpr ⟨row, mem_filter.mpr ⟨(finding_mem found).1, described.opened⟩, described.key⟩
  · intro row member open_ change listed same
    obtain ⟨other, details, drawn, signature, found, shape, encoded, described, -⟩ :=
      facts.row collisionFree inv distinct listed
    rw [same, facts.keyed.finding_of_mem member] at found
    obtain rfl := Option.some.inj found
    refine ⟨described.category, described.subject, described.kind, ?_, ?_⟩
    · rcases written_critical now change drawn details (db.finding change.key) with
        fresh | ⟨old, there, wasOpen, stays⟩
      · rw [shape]
        exact fresh
      · obtain ⟨inside, named⟩ := finding_mem there
        obtain ⟨category, subject, kind⟩ := same_subject collisionFree (inv.named old inside)
          (distinct.named change listed) named
        rw [shape]
        refine Eq.trans stays ?_
        exact (compareSnapshots_compared compared change listed).critical
          (inv.fixed id baseline active old inside wasOpen) (steady old inside wasOpen) category
          subject kind
    · rw [described.details]
      exact encoded

theorem reports (collisionFree : Function.Injective rt.sha256) (inv : rt.Inv db)
    (distinct : rt.Distinct changes) (facts : rt.Observes now changes db after result) :
    rt.Reports db after result := by
  refine ⟨⟨facts.once, ?_⟩, fun id => ?_, fun id => ?_, ?_⟩
  · rw [facts.resolved]
    exact inv.keyed.ids.sublist ((filter_sublist.trans filter_sublist).map _)
  · rw [facts.opened]
    constructor
    · rintro ⟨change, listed, shut, row, found, rfl⟩
      obtain ⟨other, _, _, _, found', -, -, described, -⟩ := facts.row collisionFree inv distinct listed
      rw [found] at found'
      obtain rfl := Option.some.inj found'
      refine ⟨⟨row, (finding_mem found).1, rfl, described.opened⟩, ?_⟩
      rintro ⟨old, before, same, open_⟩
      have key := facts.same_key collisionFree inv distinct before (finding_mem found).1 same.symm
      rw [openAt, ← described.key, key, inv.keyed.finding_of_mem before, Option.any_some, open_] at shut
      cases shut
    · rintro ⟨⟨row, member, rfl, open_⟩, closed⟩
      obtain ⟨change, listed, same⟩ := facts.of_open member open_
      refine ⟨change, listed, ?_, row, ?_, rfl⟩
      · rw [← Bool.not_eq_true]
        intro wasOpen
        rw [openAt, Option.any_eq_true] at wasOpen
        obtain ⟨old, there, openBefore⟩ := wasOpen
        obtain ⟨before, named⟩ := finding_mem there
        obtain ⟨new, present, sameId, key⟩ := facts.kept collisionFree inv distinct before
        have found := facts.keyed.finding_of_mem present
        rw [key, named, same, facts.keyed.finding_of_mem member] at found
        obtain rfl := Option.some.inj found
        exact closed ⟨old, before, sameId.symm, openBefore⟩
      · rw [same]
        exact facts.keyed.finding_of_mem member
  · rw [facts.resolved, mem_map]
    constructor
    · rintro ⟨old, gone, rfl⟩
      obtain ⟨before, open_, -⟩ := mem_goneFrom.mp gone
      refine ⟨⟨old, before, rfl, open_⟩, ?_⟩
      rintro ⟨new, present, same, stillOpen⟩
      obtain ⟨signature, -, found⟩ := facts.gone old gone
      have closed := facts.keyed.same_id present (finding_mem found).1 same
      rw [closed] at stillOpen
      cases stillOpen
    · rintro ⟨⟨old, before, rfl, open_⟩, closed⟩
      refine ⟨old, mem_goneFrom.mpr ⟨before, open_, ?_⟩, rfl⟩
      intro listed
      obtain ⟨change, inside, same⟩ := mem_map.mp listed
      obtain ⟨row, _, _, _, found, -, -, described, -⟩ := facts.row collisionFree inv distinct inside
      obtain ⟨new, present, sameId, key⟩ := facts.kept collisionFree inv distinct before
      have found' := facts.keyed.finding_of_mem present
      rw [key, ← same, found] at found'
      obtain rfl := Option.some.inj found'
      exact closed ⟨row, present, sameId, described.opened⟩
  · obtain ⟨opening, closing, listsOpened, listsResolved, appended, -⟩ := facts.events
    exact ⟨opening, closing, listsOpened, listsResolved, appended⟩

theorem forgets (collisionFree : Function.Injective rt.sha256) (inv : rt.Inv db)
    (distinct : rt.Distinct changes) (facts : rt.Observes now changes db after result) :
    Forgets db after := by
  intro old before shut new present same open_
  obtain ⟨change, listed, named⟩ := facts.of_open present open_
  obtain ⟨row, details, drawn, signature, found, shape, -⟩ := facts.row collisionFree inv distinct listed
  rw [named, facts.keyed.finding_of_mem present] at found
  obtain rfl := Option.some.inj found
  have key := facts.same_key collisionFree inv distinct before present same
  rw [named, key, inv.keyed.finding_of_mem before] at shape
  rw [shape]
  exact written_unacknowledged now change drawn details shut

end Observes

/-- After an observation the open findings are the drift from the baseline, provided that no file
without a row in the baseline changed its flag while its finding was open. -/
theorem findings_current (rt : Platform F) (collisionFree : Function.Injective rt.sha256) (calls : List (Call F)) :
    rt.verify (rt.run calls) = ⟨true, true, true, true⟩ ∧
    (∀ snapshot actor reason id now after,
      rt.sealSnapshot snapshot actor reason id now (rt.run calls) = .ok ((), after) →
        ∀ row ∈ after.findings, row.isOpen = false) ∧
    ∀ snapshot maintenanceActive drawn now result after,
      rt.observe snapshot maintenanceActive drawn now (rt.run calls) = .ok (result, after) →
        (∀ id baseline, rt.activeBaseline (rt.run calls) = .ok (some (id, baseline)) →
          (∀ row ∈ (rt.run calls).findings, row.isOpen = true → rt.Steady baseline snapshot.payload row) →
          ∃ changes, rt.compareSnapshots baseline snapshot.payload = .ok changes ∧
            rt.Attests changes after ∧ result.observation ∈ after.observations ∧
            result.observation.criticalCount = after.findings.countP Finding.pressing) ∧
        Forgets (rt.run calls) after ∧ rt.Reports (rt.run calls) after result := by
  have inv := run_inv collisionFree calls
  refine ⟨inv.verified, ?_, ?_⟩
  · intro snapshot actor reason id now after done
    exact (seal_ok inv done).2
  · intro snapshot maintenanceActive drawn now result after done
    obtain ⟨baseline, changes, active, compared, facts⟩ := observe_ok collisionFree inv done
    have distinct := changesFrom_distinct collisionFree compared
    refine ⟨fun id value current steady => ?_, facts.forgets collisionFree inv distinct,
      facts.reports collisionFree inv distinct⟩
    rw [current] at active
    obtain rfl := Except.ok.inj active
    have attests := facts.attests collisionFree inv current compared steady
    refine ⟨changes, compared, attests, facts.stored, ?_⟩
    rw [facts.count, attests.count facts.keyed]

end Platform

def plainDrift : Platform FloatText where
  toRuntime := plainRuntime
  sameFloat first second := first = second
  floatIs _ _ := false
  sha256 text := text
  mac text := "hmac:" ++ text
  mac_some text := by
    intro empty
    have characters := congrArg String.toList empty
    simp at characters
  expired _ _ := false
  expired_now _ := rfl

def moment : FloatText := .decimal false 0 (.fraction digitZero)

def snapshotOf (files : List (String × Bool)) (distinct : (files.map Prod.fst).Nodup) :
    Snapshot FloatText where
  schemaVersion := .int 1
  files := .object (files.map fun file => (file.1, .object [("critical", .bool file.2)]))
  containers := .object []
  snapshotSha256 := ""
  plain := by
    refine ⟨trivial, plain_object ?_ ?_, plain_object nodup_nil ?_⟩
    · rwa [map_map]
    · intro field member
      obtain ⟨file, -, rfl⟩ := mem_map.mp member
      refine plain_object (by simp) fun other inside => ?_
      rw [mem_singleton.mp inside]
      trivial
    · exact fun _ member => absurd member not_mem_nil

def withFile (critical : Bool) : Snapshot FloatText :=
  snapshotOf [("compose.yaml", critical)] (by simp)

def history : List (Call FloatText) := [
  .sealed (snapshotOf [] nodup_nil) "ops" "first" "desired-1" moment,
  .observe (withFile false) false (fun _ => "drift-1") moment]

namespace Platform

instance {rt : Platform F} {baseline current : Value F} {row : Finding F} :
    Decidable (rt.Steady baseline current row) :=
  inferInstanceAs (Decidable (_ → _ → _ → _ → _))

theorem history_observed : (match plainDrift.activeBaseline (plainDrift.run history) with
    | .ok (some (_, baseline)) => decide (∀ row ∈ (plainDrift.run history).findings,
        row.isOpen = true → plainDrift.Steady baseline (withFile false).payload row)
    | _ => false) = true ∧
    (match plainDrift.observe (withFile false) false (fun _ => "drift-2") moment
      (plainDrift.run history) with
    | .ok (result, _) => decide (result.observation.driftCount = 1)
    | .error _ => false) = true ∧
    (match plainDrift.observe (withFile true) false (fun _ => "drift-2")
      moment (plainDrift.run history) with
    | .ok (result, after) => decide (result.observation.criticalCount = 1 ∧ after.findings.countP Finding.pressing = 0)
    | .error _ => false) = true := by
  decide +kernel

theorem findings_current_history : ∃ id baseline result after changes,
    plainDrift.activeBaseline (plainDrift.run history) = .ok (some (id, baseline)) ∧
    plainDrift.observe (withFile false) false (fun _ => "drift-2") moment
      (plainDrift.run history) = .ok (result, after) ∧
    plainDrift.compareSnapshots baseline (withFile false).payload = .ok changes ∧
    plainDrift.Attests changes after := by
  obtain ⟨steady, again, -⟩ := history_observed
  split at steady
  next id baseline active =>
    split at again
    next result after done =>
      obtain ⟨-, -, observes⟩ := findings_current plainDrift (fun _ _ same => same) history
      obtain ⟨changes, compared, attests, -⟩ :=
        (observes _ _ _ _ result after done).1 id baseline active (of_decide_eq_true steady)
      exact ⟨id, baseline, result, after, changes, active, done, compared, attests⟩
    next => cases again
  next => cases steady

/-- The file becomes critical: the observation counts one critical change, and no open finding is
critical. -/
theorem raised_flag_unseen : ∃ id baseline result after changes,
    plainDrift.activeBaseline (plainDrift.run history) = .ok (some (id, baseline)) ∧
    plainDrift.observe (withFile true) false (fun _ => "drift-2") moment
      (plainDrift.run history) = .ok (result, after) ∧
    plainDrift.compareSnapshots baseline (withFile true).payload = .ok changes ∧
    ¬ plainDrift.Attests changes after ∧ result.observation.criticalCount = 1 ∧
    after.findings.countP Finding.pressing = 0 := by
  obtain ⟨standing, -, flagged⟩ := history_observed
  split at standing
  next found active =>
    split at flagged
    next result after done =>
      obtain ⟨count, none⟩ := of_decide_eq_true flagged
      have inv := @run_inv _ plainDrift (fun _ _ same => same) history
      obtain ⟨baseline, changes, current, compared, facts⟩ :=
        observe_ok (fun _ _ same => same) inv done
      rw [active] at current
      obtain rfl := Except.ok.inj current
      refine ⟨_, _, result, after, changes, active, done, compared, ?_, count, none⟩
      intro attests
      have equal := attests.count facts.keyed
      rw [← facts.count, count, none] at equal
      cases equal
    next => cases flagged
  next => cases standing

end Platform

end Dash.Drift
