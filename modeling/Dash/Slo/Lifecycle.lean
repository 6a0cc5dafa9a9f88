import Dash.Slo.Events
import Dash.Slo.History

/-! The incidents of the store follow the samples that were recorded. -/

set_option autoImplicit false

namespace Dash.Slo

open Dash.Python Dash.Foundation List
open Foundation.Transaction (bind_ok pure_ok)

variable {F : Type}

def Incident.episode (row : Incident F) : Episode F :=
  ⟨row.openedAt, row.resolvedAt, row.failureCount⟩

def Sample.reading (row : Sample F) : Reading F := ⟨row.observedAt, row.good, row.excluded⟩

def incidentsOf (objective : String) (db : Db F) : List (Incident F) :=
  db.incidents.filter fun incident => incident.objectiveId = objective

def episodesOf (objective : String) (db : Db F) : List (Episode F) :=
  (incidentsOf objective db).map Incident.episode

def readingsOf (objective : String) (db : Db F) : List (Reading F) :=
  (db.samples.filter fun sample => sample.objectiveId = objective).map Sample.reading

structure Linked (db : Db F) : Prop where
  ids : (db.snapshots.map Snapshot.id).Nodup
  samples : ∀ sample ∈ db.samples, ∃ snapshot ∈ db.snapshots,
    snapshot.id = sample.snapshotId ∧ snapshot.observedAt = sample.observedAt

theorem episodesOf_core {db after : Db F} (same : after.incidents.map Incident.core = db.incidents.map Incident.core)
    (objective : String) : episodesOf objective after = episodesOf objective db := by
  have through : ∀ other : Db F, episodesOf objective other =
      ((other.incidents.map Incident.core).filter fun incident =>
        incident.objectiveId = objective).map Incident.episode := by
    intro other
    rw [episodesOf, incidentsOf, filter_map, map_map]
    rfl
  rw [through, through, same]

variable [LinearOrder F]

theorem streak_readings {objective : Objective} {db : Db F}
    (increasing : (readingsOf objective.id db).Pairwise fun first second => first.now < second.now) :
    Platform.streak objective db.samples = allBad objective.consecutiveFailures (readingsOf objective.id db) := by
  have sorted : samplesOf objective.id db.samples =
      (db.samples.filter fun sample => sample.objectiveId = objective.id).reverse := by
    rw [samplesOf]
    refine List.Pairwise.insertionSort_eq (pairwise_reverse.mpr ?_)
    rw [readingsOf, pairwise_map] at increasing
    exact increasing.imp fun less => le_of_lt less
  rw [Platform.streak, sorted, allBad, readingsOf, ← map_reverse, ← map_take, length_map, all_map]
  rfl

/-- The samples of a record's own time stay, and those before the cutoff go. -/
theorem prune_readings {cutoff : F} {db after : Db F} (linked : Linked db)
    (done : Platform.prune cutoff db = .ok ((), after)) :
    Linked after ∧ (∀ name, episodesOf name after = episodesOf name db) ∧ ∀ name, readingsOf name after =
        (readingsOf name db).filter fun reading => cutoff ≤ reading.now := by
  obtain ⟨incidents, _, snapshots, samples⟩ := prune_effect done
  have kept : ∀ sample ∈ db.samples,
      (sample.snapshotId ∈ after.snapshots.map Snapshot.id ↔ cutoff ≤ sample.observedAt) := by
    intro sample member
    obtain ⟨source, present, named, at_⟩ := linked.samples sample member
    rw [snapshots]
    constructor
    · intro stays
      obtain ⟨other, inside, same⟩ := mem_map.mp stays
      obtain ⟨there, recent⟩ := mem_filter.mp inside
      rw [Table.same_row linked.ids there present (same.trans named.symm), at_] at recent
      simpa using recent
    · intro recent
      refine mem_map.mpr ⟨source, mem_filter.mpr ⟨present, ?_⟩, named⟩
      rw [at_]
      simpa using recent
  refine ⟨⟨?_, fun sample member => ?_⟩, fun name => ?_, fun name => ?_⟩
  · rw [snapshots]
    exact linked.ids.sublist (filter_sublist.map _)
  · rw [samples] at member
    obtain ⟨old, stays⟩ := mem_filter.mp member
    obtain ⟨source, present, named, at_⟩ := linked.samples sample old
    refine ⟨source, ?_, named, at_⟩
    rw [snapshots]
    refine mem_filter.mpr ⟨present, ?_⟩
    rw [at_]
    simpa using (kept sample old).mp (of_decide_eq_true stays)
  · rw [episodesOf, incidentsOf, incidents]
    rfl
  · rw [readingsOf, readingsOf, samples, filter_map, filter_filter, filter_filter]
    congr 1
    refine filter_congr fun sample member => ?_
    have stays := kept sample member
    by_cases recent : cutoff ≤ sample.observedAt
    · simp [stays.mpr recent, Sample.reading, recent]
    · simp [mt stays.mp recent, Sample.reading, recent]

theorem retained_next {cutoff : F → F} (cutoff_le : ∀ time, cutoff time ≤ time)
    {history : List (Reading F)} {next : Reading F}
    (later : ∀ reading ∈ history, reading.now < next.now) :
    (retained cutoff history ++ [next]).filter (fun reading => cutoff next.now ≤ reading.now) =
      retained cutoff (history ++ [next]) := by
  have fresh : ((history ++ [next]).all fun other => cutoff other.now ≤ next.now) = true := by
    rw [all_eq_true]
    intro other member
    rcases mem_append.mp member with old | new
    · exact decide_eq_true ((cutoff_le other.now).trans (le_of_lt (later other old)))
    · rw [mem_singleton.mp new]
      exact decide_eq_true (cutoff_le next.now)
  have own : decide (cutoff next.now ≤ next.now) = true := decide_eq_true (cutoff_le next.now)
  rw [retained, retained, filter_append, filter_append, filter_filter, filter_singleton, filter_singleton, fresh, own]
  congr 1
  refine filter_congr fun reading _ => ?_
  rw [all_append, Bool.and_comm]
  simp

variable [Zero F]

namespace Platform

variable (rt : Platform F)

variable {objective : Objective} {db after : Db F}

/-- An incident of the objective is changed, and no other row of it is open. -/
theorem episodes_update {incident : Incident F}
    {change : Incident F → Incident F} (turn : Episode F → Episode F) (recounts : rt.Recounts db)
    (found : openIncident? objective.id db = some incident)
    (incidents : after.incidents = update Incident.id incident.id change db.incidents)
    (kept : ∀ row, (change row).objectiveId = row.objectiveId)
    (open_ : ∀ row : Incident F, row.resolvedAt = none → (change row).episode = turn row.episode)
    (closed : ∀ row : Incident F, row.resolvedAt ≠ none → turn row.episode = row.episode) :
    episodesOf objective.id after = (episodesOf objective.id db).map turn ∧
      ∀ other, other ≠ objective.id → episodesOf other after = episodesOf other db := by
  obtain ⟨member, about, opened⟩ := openIncident_mem found
  have shape : ∀ name, episodesOf name after = (incidentsOf name db).map fun row =>
      (if row.id = incident.id then change row else row).episode := by
    intro name
    rw [episodesOf, incidentsOf, incidents, update, filter_map, map_map, incidentsOf]
    congr 1
    refine filter_congr fun row _ => ?_
    simp only [Function.comp_apply]
    split <;> simp [kept]
  constructor
  · rw [shape, episodesOf, map_map]
    refine map_congr_left fun row inside => ?_
    obtain ⟨present, named⟩ := mem_filter.mp inside
    by_cases hit : row.id = incident.id
    · have same := Table.same_row recounts.single.ids present member hit
      rw [if_pos hit]
      exact open_ row ((recounts.dated row present).mp (same ▸ opened))
    · rw [if_neg hit]
      refine (closed row fun pending => hit ?_).symm
      have same := recounts.single.one row present incident member
        ((recounts.dated row present).mpr pending) opened ((of_decide_eq_true named).trans about.symm)
      rw [same]
  · intro other apart
    rw [shape, episodesOf]
    refine map_congr_left fun row inside => ?_
    obtain ⟨present, named⟩ := mem_filter.mp inside
    refine congrArg Incident.episode (if_neg fun hit => apart ?_)
    rw [Table.same_row recounts.single.ids present member hit] at named
    exact (of_decide_eq_true named).symm.trans about

theorem any_open {db : Db F} (objective : String) (recounts : rt.Recounts db) :
    (episodesOf objective db).any Episode.isOpen = (openIncident? objective db).isSome := by
  rw [Bool.eq_iff_iff, any_eq_true, Option.isSome_iff_exists]
  constructor
  · rintro ⟨episode, member, opened⟩
    obtain ⟨row, inside, rfl⟩ := mem_map.mp member
    obtain ⟨present, named⟩ := mem_filter.mp inside
    have pending : row.resolvedAt = none := by
      simpa [Episode.isOpen, Incident.episode] using opened
    cases found : openIncident? objective db with
    | some incident => exact ⟨incident, rfl⟩
    | none =>
      have absent := List.find?_eq_none.mp found row present
      simp [(recounts.dated row present).mpr pending, of_decide_eq_true named] at absent
  · rintro ⟨incident, found⟩
    obtain ⟨member, about, opened⟩ := openIncident_mem found
    refine ⟨incident.episode, mem_map_of_mem (mem_filter.mpr ⟨member, by simp [about]⟩), ?_⟩
    simp [Episode.isOpen, Incident.episode, (recounts.dated incident member).mp opened]

/-- What a sample that counts does is what the episodes ask for. -/
theorem judged_episodes {epoch : F} {good : Bool}
    (recounts : rt.Recounts db) (judged : rt.Judged objective epoch good db after) :
    episodesOf objective.id after = advance objective.consecutiveFailures
        (streak objective db.samples) ⟨epoch, good, false⟩ (episodesOf objective.id db) ∧
      ∀ other, other ≠ objective.id → episodesOf other after = episodesOf other db := by
  have any := rt.any_open objective.id recounts
  have none_ (found : openIncident? objective.id db = none) :
      ∀ episode ∈ episodesOf objective.id db, episode.isOpen = false := by
    rw [found] at any
    simpa [any_eq_false] using any
  cases judged with
  | resolves incident event found told =>
    refine rt.episodes_update (Episode.close epoch) recounts found rfl (fun _ => rfl) ?_ ?_
    · intro row pending
      simp [Incident.episode, Incident.resolve, Episode.close, Episode.isOpen, pending]
    · intro row resolved
      simp [Incident.episode, Episode.close, Episode.isOpen, resolved]
  | healthy found =>
    refine ⟨?_, fun _ _ => rfl⟩
    simp only [advance, Bool.false_eq_true, ↓reduceIte]
    refine ((map_congr_left fun episode member => ?_).trans (map_id _)).symm
    simp [Episode.close, none_ found episode member]
  | fails incident found =>
    rw [found, Option.isSome_some] at any
    simp only [advance, Bool.false_eq_true, ↓reduceIte, any]
    refine rt.episodes_update Episode.fail recounts found rfl (fun _ => rfl) ?_ ?_
    · intro row pending
      simp [Incident.episode, Incident.fail, Episode.fail, Episode.isOpen, pending]
    · intro row resolved
      simp [Incident.episode, Episode.fail, Episode.isOpen, resolved]
  | opens id event found bad fresh told =>
    rw [found, Option.isSome_none] at any
    simp only [advance, Bool.false_eq_true, ↓reduceIte, any, bad]
    constructor
    · simp [episodesOf, incidentsOf, Objective.incident, Incident.episode]
    · intro other apart
      simp [episodesOf, incidentsOf, Objective.incident, Ne.symm apart]
  | waits found short =>
    rw [found, Option.isSome_none] at any
    simp [advance, any, short]

def readingAt (signals : Value F) (objective : Objective) (maintenance : Bool) (epoch : F) : Reading F :=
  ⟨epoch, (signals.get? objective.signal).isSome && rt.truthy (signals.get objective.signal),
    maintenance && objective.excludeMaintenance⟩

structure Here (cutoff : F → F) (objective : Objective) (history : List (Reading F)) (db : Db F) :
    Prop where
  readings : readingsOf objective.id db = retained cutoff history
  cycle : Lifecycle objective.consecutiveFailures cutoff history (episodesOf objective.id db)

structure There (cutoff : F → F) (objective : Objective) (history : List (Reading F))
    (next : Reading F) (db : Db F) : Prop where
  readings : readingsOf objective.id db = retained cutoff history ++ [next]
  cycle : Lifecycle objective.consecutiveFailures cutoff (history ++ [next]) (episodesOf objective.id db)

structure Apart (snapshot : Snapshot F) (objective : Objective) (db after : Db F) : Prop where
  snapshots : after.snapshots = db.snapshots
  samples : ∀ sample ∈ after.samples, sample ∈ db.samples ∨
    (sample.snapshotId = snapshot.id ∧ sample.observedAt = snapshot.observedAt)
  readings : ∀ other, other ≠ objective.id → readingsOf other after = readingsOf other db
  episodes : ∀ other, other ≠ objective.id → episodesOf other after = episodesOf other db

theorem round_effect {policy : Policy F} {signals : Value F} {tokens : Tokens}
    {snapshot : Snapshot F} {maintenance : Bool}
    {made : Moved F} {cutoff : F → F} {history : List (Reading F)} (recounts : rt.Recounts db)
    (here : Here cutoff objective history db)
    (increasing : history.Pairwise fun first second => first.now < second.now)
    (later : ∀ reading ∈ history, reading.now < snapshot.observedAt)
    (done : rt.recordObjective policy signals snapshot.observedAt tokens snapshot.id maintenance
      objective db = .ok (made, after)) :
    rt.Recounts after ∧ Apart snapshot objective db after ∧ There cutoff objective history
        (rt.readingAt signals objective maintenance snapshot.observedAt) after := by
  obtain ⟨sample, read, cases_⟩ := rt.recordObjective_cases done
  have reading : sample.reading = rt.readingAt signals objective maintenance snapshot.observedAt := by
    rw [Sample.reading, readingAt, read.observedAt, read.good, read.excluded]
  generalize rt.readingAt signals objective maintenance snapshot.observedAt = next at reading ⊢
  have now : next.now = snapshot.observedAt := by rw [← reading]; exact read.observedAt
  have appended : ∀ name, readingsOf name { db with samples := db.samples ++ [sample] } =
      readingsOf name db ++ if name = objective.id then [next] else [] := by
    intro name
    by_cases same : name = objective.id
    · simp [readingsOf, read.objectiveId, same, reading]
    · simp [readingsOf, read.objectiveId, same, Ne.symm same]
  have own : readingsOf objective.id { db with samples := db.samples ++ [sample] } =
      retained cutoff history ++ [next] := by
    rw [appended, here.readings, if_pos rfl]
  have sampled : ∀ other ∈ db.samples ++ [sample], other ∈ db.samples ∨
      (other.snapshotId = snapshot.id ∧ other.observedAt = snapshot.observedAt) := by
    intro other member
    rcases mem_append.mp member with old | new
    · exact .inl old
    · rw [mem_singleton.mp new]
      exact .inr ⟨read.snapshotId, read.observedAt⟩
  have moved : rt.Moves db { db with samples := db.samples ++ [sample] } := .other rfl rfl
  have begun := rt.moves_recounts moved recounts
  have before : ∀ reading ∈ history, reading.now < next.now := fun reading member =>
    now ▸ later reading member
  have cycle := here.cycle.advance objective.failures_pos before
  rcases cases_ with ⟨excluded, rfl⟩ | ⟨counts, judged⟩
  · refine ⟨begun, ⟨rfl, sampled, fun other apart => ?_, fun _ _ => rfl⟩, own, ?_⟩
    · rw [appended, if_neg apart, append_nil]
    · have out : next.excluded = true := by rw [← reading]; exact excluded
      rwa [advance, if_pos out] at cycle
  · obtain ⟨snapshots, samples⟩ := judged.same
    obtain ⟨episodes, others⟩ := rt.judged_episodes begun judged
    have whole : readingsOf objective.id after = retained cutoff history ++ [next] := by
      rw [readingsOf, samples]
      exact own
    refine ⟨rt.moves_recounts judged.moves begun, ⟨snapshots, samples ▸ sampled, fun other apart => ?_,
      others⟩, whole, ?_⟩
    · rw [readingsOf, samples]
      exact (appended other).trans (by rw [if_neg apart, append_nil])
    · have grows : (retained cutoff history ++ [next]).Pairwise fun first second => first.now < second.now := by
        refine pairwise_append.mpr ⟨increasing.sublist filter_sublist, by simp, ?_⟩
        intro first member second last
        rw [mem_singleton.mp last, now]
        exact later first (mem_of_mem_filter member)
      have streaks := streak_readings (own ▸ grows)
      rw [own] at streaks
      have shape : next = ⟨snapshot.observedAt, sample.good, false⟩ := by
        rw [← reading, Sample.reading, read.observedAt, counts]
      rw [episodes, streaks, ← shape]
      exact cycle

theorem rounds_effect {policy : Policy F} {signals : Value F} {tokens : Tokens}
    {snapshot : Snapshot F} {maintenance : Bool} {cutoff : F → F}
    {history : String → List (Reading F)}
    (increasing : ∀ name, (history name).Pairwise fun first second => first.now < second.now)
    (later : ∀ name, ∀ reading ∈ history name, reading.now < snapshot.observedAt) :
    ∀ {objectives : List Objective} {db after : Db F} {made : List (Moved F)},
      (objectives.map Objective.id).Nodup → rt.Recounts db →
      (∀ objective ∈ objectives, Here cutoff objective (history objective.id) db) →
      Transaction.each (rt.recordObjective policy signals snapshot.observedAt tokens snapshot.id
        maintenance) objectives db = .ok (made, after) →
      rt.Recounts after ∧ after.snapshots = db.snapshots ∧ (∀ sample ∈ after.samples, sample ∈ db.samples ∨
          (sample.snapshotId = snapshot.id ∧ sample.observedAt = snapshot.observedAt)) ∧
        (∀ name ∉ objectives.map Objective.id, readingsOf name after = readingsOf name db ∧
          episodesOf name after = episodesOf name db) ∧
        ∀ objective ∈ objectives, There cutoff objective (history objective.id)
          (rt.readingAt signals objective maintenance snapshot.observedAt) after := by
  intro objectives
  induction objectives with
  | nil =>
    intro db after made _ recounts _ done
    simp only [Transaction.each, pure_ok, Prod.mk.injEq] at done
    obtain ⟨rfl, rfl⟩ := done
    exact ⟨recounts, rfl, fun _ => .inl, fun _ _ => ⟨rfl, rfl⟩, fun _ impossible => by cases impossible⟩
  | cons objective rest ih =>
    intro db after made distinct recounts here done
    obtain ⟨fresh, distinct⟩ := nodup_cons.mp distinct
    simp only [Transaction.each, bind_ok, pure_ok, Prod.mk.injEq] at done
    obtain ⟨first, middle, one, others, final, loop, _, rfl⟩ := done
    obtain ⟨better, apart, there⟩ := rt.round_effect recounts (here objective mem_cons_self)
      (increasing objective.id) (later objective.id) one
    have remains : ∀ other ∈ rest, Here cutoff other (history other.id) middle := by
      intro other member
      have named : other.id ≠ objective.id := fun same => fresh (same ▸ mem_map_of_mem member)
      have before := here other (mem_cons_of_mem _ member)
      exact ⟨(apart.readings other.id named).trans before.readings, (apart.episodes other.id named).symm ▸ before.cycle⟩
    obtain ⟨last, snapshots, samples, untouched, told⟩ := ih distinct better remains loop
    refine ⟨last, snapshots.trans apart.snapshots, fun sample member => ?_, fun name absent => ?_,
      fun other member => ?_⟩
    · rcases samples sample member with old | new
      · exact apart.samples sample old
      · exact .inr new
    · simp only [map_cons, mem_cons, not_or] at absent
      obtain ⟨readings, episodes⟩ := untouched name absent.2
      exact ⟨readings.trans (apart.readings name absent.1), episodes.trans (apart.episodes name absent.1)⟩
    · rcases mem_cons.mp member with rfl | later
      · obtain ⟨readings, episodes⟩ := untouched other.id fresh
        exact ⟨readings.trans there.readings, episodes.symm ▸ there.cycle⟩
      · exact told other later

end Platform

structure Chronicle (F : Type) where
  db : Db F
  history : String → List (Reading F)

def Call.Uses (policy : Policy F) : Call F → Prop
  | .record other _ _ _ _ => other = policy
  | _ => True

/-- The `observed_at` of a record. -/
def Call.epoch? : Call F → Option F
  | .record _ _ _ epoch _ => some epoch
  | _ => none

namespace Platform

variable (rt : Platform F)

def readings (db : Db F) (name : String) : Call F → List (Reading F)
  | .record policy signals _ epoch _ =>
    (policy.objectives.filter fun objective => objective.id = name).map fun objective =>
      rt.readingAt signals objective (activeMaintenance epoch db).isSome epoch
  | _ => []

def perform (chronicle : Chronicle F) (call : Call F) : Chronicle F :=
  match rt.body call chronicle.db with
  | .ok (_, after) =>
    ⟨after, fun name => chronicle.history name ++ rt.readings chronicle.db name call⟩
  | .error _ => chronicle

def chronicle (calls : List (Call F)) : Chronicle F :=
  calls.foldl rt.perform ⟨.initial, fun _ => []⟩

structure Follows (policy : Policy F) (epochs : List F) (chronicle : Chronicle F) : Prop where
  recounts : rt.Recounts chronicle.db
  linked : Linked chronicle.db
  increasing : ∀ name, (chronicle.history name).Pairwise fun first second => first.now < second.now
  past : ∀ name, ∀ reading ∈ chronicle.history name, reading.now ∈ epochs
  here : ∀ objective ∈ policy.objectives,
    Here policy.sampleCutoff objective (chronicle.history objective.id) chronicle.db

theorem record_follows {policy : Policy F} {signals context : Value F} {epoch : F} {tokens : Tokens}
    {chronicle : Chronicle F} {epochs : List F} {after : Db F} {result : Recorded F}
    (follows : rt.Follows policy epochs chronicle) (latest : ∀ time ∈ epochs, time < epoch)
    (done : rt.record policy signals context epoch tokens chronicle.db = .ok (result, after)) :
    rt.Follows policy (epochs ++ [epoch]) ⟨after, fun name => chronicle.history name ++
      rt.readings chronicle.db name (.record policy signals context epoch tokens)⟩ := by
  obtain ⟨snapshot, ⟨parts⟩⟩ := rt.record_parts done
  obtain ⟨made, middle, positive, rfl, fresh, loop, pruned⟩ := parts
  have begun : rt.Moves chronicle.db
      { chronicle.db with snapshots := chronicle.db.snapshots ++ [snapshot] } := .other rfl rfl
  have later : ∀ name, ∀ reading ∈ chronicle.history name, reading.now < snapshot.observedAt :=
    fun name reading member => latest _ (follows.past name reading member)
  obtain ⟨recounts, snapshots, samples, _, there⟩ := rt.rounds_effect follows.increasing later
    policy.ids_distinct (rt.moves_recounts begun follows.recounts)
    (fun objective member =>
      ⟨(follows.here objective member).readings, (follows.here objective member).cycle⟩) loop
  have linked : Linked middle := by
    constructor
    · rw [snapshots]
      exact Table.insert_keys follows.linked.ids fresh
    · intro sample member
      rw [snapshots]
      rcases samples sample member with old | ⟨named, at_⟩
      · obtain ⟨source, present, same⟩ := follows.linked.samples sample old
        exact ⟨source, mem_append_left _ present, same⟩
      · exact ⟨snapshot, by simp, named.symm, at_.symm⟩
  obtain ⟨better, episodes, readings⟩ := prune_readings linked pruned
  obtain ⟨incidents, events, _⟩ := prune_effect pruned
  -- an objective of the policy is read once, another name not at all
  have once : ∀ objective ∈ policy.objectives,
      policy.objectives.filter (fun other => other.id = objective.id) = [objective] := by
    intro objective member
    refine Table.filter_single policy.ids_distinct member (by simp) fun other _ same => ?_
    exact of_decide_eq_true same
  have read : ∀ name, ∀ reading ∈ rt.readings chronicle.db name
      (.record policy signals context snapshot.observedAt tokens),
      reading.now = snapshot.observedAt := by
    intro name reading member
    obtain ⟨objective, _, rfl⟩ := mem_map.mp member
    rfl
  refine ⟨rt.moves_recounts (.other incidents events) recounts, better, fun name => ?_,
    fun name reading member => ?_, fun objective member => ?_⟩
  · refine pairwise_append.mpr ⟨follows.increasing name, ?_, fun first old second new => ?_⟩
    · by_cases known : ∃ objective ∈ policy.objectives, objective.id = name
      · obtain ⟨objective, inside, rfl⟩ := known
        simp [Platform.readings, once objective inside]
      · have none_ : policy.objectives.filter (fun objective => objective.id = name) = [] := by
          rw [filter_eq_nil_iff]
          exact fun objective inside same => known ⟨objective, inside, of_decide_eq_true same⟩
        simp [Platform.readings, none_]
    · rw [read name second new]
      exact later name first old
  · rcases mem_append.mp member with old | new
    · exact mem_append_left _ (follows.past name reading old)
    · rw [read name reading new]
      simp
  · have own := there objective member
    have next : rt.readings chronicle.db objective.id (.record policy signals context snapshot.observedAt tokens) =
        [rt.readingAt signals objective (activeMaintenance snapshot.observedAt chronicle.db).isSome
          snapshot.observedAt] := by
      rw [Platform.readings, once objective member]
      rfl
    dsimp only
    rw [next]
    refine ⟨?_, (episodes objective.id).symm ▸ own.cycle⟩
    rw [readings, own.readings]
    generalize at_ : rt.readingAt signals objective _ _ = reading
    have now : reading.now = snapshot.observedAt := by rw [← at_]; rfl
    rw [← now]
    exact retained_next policy.sampleCutoff_le fun earlier inside =>
      now ▸ later objective.id earlier inside

theorem perform_follows {policy : Policy F} {call : Call F} {chronicle : Chronicle F}
    {epochs : List F} (follows : rt.Follows policy epochs chronicle) (uses : call.Uses policy)
    (latest : ∀ epoch, call.epoch? = some epoch → ∀ time ∈ epochs, time < epoch) :
    rt.Follows policy (epochs ++ call.epoch?.toList) (rt.perform chronicle call) := by
  have wider (other : Chronicle F) (kept : rt.Follows policy epochs other) :
      rt.Follows policy (epochs ++ call.epoch?.toList) other :=
    ⟨kept.recounts, kept.linked, kept.increasing,
      fun name reading member => mem_append_left _ (kept.past name reading member), kept.here⟩
  unfold perform
  split
  next after done =>
    by_cases quiet : ∀ policy signals context epoch tokens, call ≠ .record policy signals context epoch tokens
    · obtain ⟨moves, snapshots, samples, incidents⟩ := rt.quiet_moves quiet done
      have silent : ∀ name, rt.readings chronicle.db name call = [] := by
        intro name
        cases call with
        | record policy signals context epoch tokens =>
          exact absurd rfl (quiet policy signals context epoch tokens)
        | _ => rfl
      refine wider _ ⟨rt.moves_recounts moves follows.recounts, ⟨snapshots ▸ follows.linked.ids,
        snapshots ▸ samples ▸ follows.linked.samples⟩, ?_, ?_, fun objective member => ?_⟩
      · simpa [silent] using follows.increasing
      · simpa [silent] using follows.past
      · have here := follows.here objective member
        refine ⟨?_, ?_⟩
        · simpa [silent, readingsOf, samples] using here.readings
        · simpa [silent, episodesOf_core incidents] using here.cycle
    · simp only [not_forall, not_not] at quiet
      obtain ⟨other, signals, context, epoch, tokens, rfl⟩ := quiet
      obtain rfl : other = policy := uses
      simp only [body, bind_ok, pure_ok, Prod.mk.injEq] at done
      obtain ⟨_, _, recorded, _, rfl⟩ := done
      exact rt.record_follows follows (latest epoch rfl) recorded
  next => exact wider chronicle follows

theorem chronicle_follows (policy : Policy F) (calls : List (Call F)) (fixed : ∀ call ∈ calls, call.Uses policy)
    (increasing : (calls.filterMap Call.epoch?).Pairwise (· < ·)) :
    rt.Follows policy (calls.filterMap Call.epoch?) (rt.chronicle calls) := by
  induction calls using List.reverseRecOn with
  | nil =>
    have linked : Linked (Db.initial : Db F) := ⟨nodup_nil, fun _ impossible => nomatch impossible⟩
    exact ⟨rt.run_recounts [], linked, fun _ => .nil, by simp [chronicle], fun objective _ => ⟨rfl, .start⟩⟩
  | append_singleton calls call ih =>
    rw [filterMap_append] at increasing ⊢
    obtain ⟨before, _, last⟩ := pairwise_append.mp increasing
    have follows := ih (fun call member => fixed call (mem_append_left _ member)) before
    have step := rt.perform_follows follows (fixed call (by simp)) fun epoch at_ time member =>
      last time member epoch (by simp [at_])
    have one : [call].filterMap Call.epoch? = call.epoch?.toList := by
      cases at_ : call.epoch? <;> simp [at_]
    rw [chronicle, foldl_append, one]
    exact step

/-- What the store holds, next to the samples that were recorded. -/
structure Kept (policy : Policy F) (chronicle : Chronicle F) : Prop where
  single : ∀ first ∈ chronicle.db.incidents, ∀ second ∈ chronicle.db.incidents,
    first.status = .opened → second.status = .opened → first.objectiveId = second.objectiveId → first = second
  status : ∀ incident ∈ chronicle.db.incidents, incident.status = .opened ↔ incident.resolvedAt = none
  cycle : ∀ objective ∈ policy.objectives, Lifecycle objective.consecutiveFailures
    policy.sampleCutoff (chronicle.history objective.id) (episodesOf objective.id chronicle.db)
  /-- What is left in the table are the samples that no record has pruned. -/
  samples : ∀ objective ∈ policy.objectives, readingsOf objective.id chronicle.db =
    retained policy.sampleCutoff (chronicle.history objective.id)
  told : ∀ incident ∈ chronicle.db.incidents, Told incident.status (typesOf incident.id chronicle.db.events)
  chain : rt.integrityCheck chronicle.db = true

theorem incidents_follow_samples (policy : Policy F) (calls : List (Call F)) (fixed : ∀ call ∈ calls, call.Uses policy)
    (increasing : (calls.filterMap Call.epoch?).Pairwise (· < ·)) :
    rt.Kept policy (rt.chronicle calls) := by
  have follows := rt.chronicle_follows policy calls fixed increasing
  exact ⟨follows.recounts.single.one, follows.recounts.dated,
    fun objective member => (follows.here objective member).cycle,
    fun objective member => (follows.here objective member).readings, follows.recounts.told,
    follows.recounts.chain⟩

end Platform

def acknowledgedThenResolved : List (Call Int) := hidden ++ [
  .acknowledge (.str "slo-backup-b") (.str "operator") .none 25,
  recordAt twoObjectives 30 "c" [("login", false), ("backup", true)]]

theorem incidents_follow_samples_acknowledged : (∀ call ∈ acknowledgedThenResolved, call.Uses twoObjectives) ∧
      (acknowledgedThenResolved.filterMap Call.epoch?).Pairwise (· < ·) ∧
      plainSlo.Kept twoObjectives (plainSlo.chronicle acknowledgedThenResolved) := by
  have fixed : ∀ call ∈ acknowledgedThenResolved, call.Uses twoObjectives := by
    simp [acknowledgedThenResolved, hidden, recordAt, Call.Uses]
  have increasing : (acknowledgedThenResolved.filterMap Call.epoch?).Pairwise (· < ·) := by
    decide
  exact ⟨fixed, increasing, plainSlo.incidents_follow_samples twoObjectives _ fixed increasing⟩

end Dash.Slo
