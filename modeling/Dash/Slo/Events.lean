import Dash.Python.Plain
import Dash.Slo.Effects

/-! What `status` shows of the open incidents, and the event chain, which tells every incident from its opening.

The incidents are fetched newest first and up to a limit, so an open one is shown if no more
than that were opened since.
-/

set_option autoImplicit false

namespace Dash.Slo

open Dash.Python Dash.Foundation List
open Foundation.Transaction (bind_ok pure_ok)

variable {F : Type}

inductive Overall where
  | noData | critical | degraded | healthy
  deriving DecidableEq, Repr

structure ObjectiveView (F : Type) where
  objective : Objective
  current : Option (Sample F)
  openIncident : Option (Incident F)

structure Report (F : Type) where
  ok : Bool
  overall : Overall
  generatedAt : String
  objectives : List (ObjectiveView F)
  openIncidents : List (Incident F)
  incidents : List (Incident F)
  lastSnapshot : Option (Snapshot F)

def clamp (limit : Int) : Nat := (max 1 (min limit 1000)).toNat

/-- The rows that `status` fetches. -/
def fetched [LinearOrder F] (limit : Int) (db : Db F) : List (Incident F) :=
  (newestFirst db.incidents).take (clamp limit)

structure Single (db : Db F) : Prop where
  ids : (db.incidents.map Incident.id).Nodup
  one : ∀ first ∈ db.incidents, ∀ second ∈ db.incidents, first.status = .opened →
    second.status = .opened → first.objectiveId = second.objectiveId → first = second

theorem Single.update {db after : Db F} (single : Single db) {incident : Incident F}
    {change : Incident F → Incident F} (member : incident ∈ db.incidents)
    (opened : incident.status = .opened) (same : after.incidents = update Incident.id incident.id change db.incidents)
    (kept : ∀ row, (change row).id = row.id ∧ (change row).objectiveId = row.objectiveId) :
    Single after := by
  constructor
  · rw [same, Table.update_keys fun row => (kept row).1]
    exact single.ids
  · -- a row that is open now was open before, in the same place
    have source : ∀ row ∈ after.incidents, row.status = .opened → ∃ old ∈ db.incidents,
        old.status = .opened ∧ old.objectiveId = row.objectiveId ∧
          row = if old.id = incident.id then change old else old := by
      intro row present open_
      rw [same] at present
      obtain ⟨old, before, rfl⟩ := mem_map.mp present
      refine ⟨old, before, ?_, ?_, rfl⟩
      · by_cases hit : old.id = incident.id
        · rw [Table.same_row single.ids before member hit]
          exact opened
        · rwa [if_neg hit] at open_
      · split
        · exact (kept old).2.symm
        · rfl
    intro first one second other firstOpen secondOpen about
    obtain ⟨old, before, wasOpen, named, rfl⟩ := source first one firstOpen
    obtain ⟨older, earlier, wasOpen', named', rfl⟩ := source second other secondOpen
    rw [single.one old before older earlier wasOpen wasOpen' (named.trans (about.trans named'.symm))]

variable [LinearOrder F] [Zero F]

namespace Platform

variable (rt : Platform F)

/-- `status`; the windows of availability are left out. -/
def status (policy : Policy F) (limit : Value F) (now : F) (db : Db F) : Result (Report F) := do
  let oldest := rt.sub (rt.sub now rt.longestWindow) policy.maxSampleGapSeconds
  let samples := (db.samples.filter fun sample => oldest ≤ sample.observedAt).insertionSort
    fun first second => first.observedAt ≤ second.observedAt
  let limit ← rt.int limit
  let incidents := fetched limit db
  let lastSnapshot := (db.snapshots.insertionSort
    fun first second => second.observedAt ≤ first.observedAt).head?
  let openIncidents := incidents.filter fun incident => incident.status = .opened
  -- the last row of an objective stays in the dictionary
  let objectives := policy.objectives.map fun objective =>
    { objective
      current := (samples.filter fun sample => sample.objectiveId = objective.id).getLast?
      openIncident := openIncidents.reverse.find? fun incident =>
        incident.objectiveId = objective.id }
  let overall : Overall :=
    if lastSnapshot.isNone then .noData
    else if openIncidents.any fun incident => incident.severity = .critical then .critical
    else if openIncidents ≠ [] then .degraded
    else .healthy
  let generatedAt ← rt.iso now
  .ok ⟨decide (overall = .healthy), overall, generatedAt, objectives, openIncidents, incidents, lastSnapshot⟩

theorem moves_single {db after : Db F} (moves : rt.Moves db after) (single : Single db) : Single after := by
  cases moves with
  | other incidents events => exact ⟨incidents ▸ single.ids, incidents ▸ single.one⟩
  | notes incident event member told incidents events =>
    exact ⟨incidents ▸ single.ids, incidents ▸ single.one⟩
  | fails incident epoch member opened incidents events =>
    exact single.update member opened incidents fun _ => ⟨rfl, rfl⟩
  | resolves incident epoch event member opened told incidents events =>
    exact single.update member opened incidents fun _ => ⟨rfl, rfl⟩
  | acknowledges incident epoch actor event member opened told incidents events =>
    exact single.update member opened incidents fun _ => ⟨rfl, rfl⟩
  | opens objective id epoch event fresh alone told incidents events =>
    have none_ : ∀ row ∈ db.incidents, row.status = .opened → row.objectiveId ≠ objective.id := by
      intro row present opened about
      have absent := List.find?_eq_none.mp alone row present
      simp [about, opened] at absent
    constructor
    · rw [incidents]
      exact Table.insert_keys single.ids fresh
    · rw [incidents]
      intro first one second other firstOpen secondOpen about
      rcases mem_append.mp one with old | new <;> rcases mem_append.mp other with older | newer
      · exact single.one first old second older firstOpen secondOpen about
      · rw [mem_singleton.mp newer] at about
        exact absurd about (none_ first old firstOpen)
      · rw [mem_singleton.mp new] at about
        exact absurd about.symm (none_ second older secondOpen)
      · rw [mem_singleton.mp new, mem_singleton.mp newer]

theorem run_single (calls : List (Call F)) : Single (rt.run calls) :=
  rt.run_induction Single ⟨nodup_nil, fun _ impossible => nomatch impossible⟩ (fun _ _ => rt.moves_single) calls

theorem record_snapshot {policy : Policy F} {signals context : Value F} {epoch : F} {tokens : Tokens}
    {db after : Db F} {result : Recorded F}
    (done : rt.record policy signals context epoch tokens db = .ok (result, after)) :
    after.snapshots ≠ [] := by
  obtain ⟨snapshot, ⟨parts⟩⟩ := rt.record_parts done
  have kept : ∀ (objectives : List Objective) (first last : Db F) (rounds : List (Moved F)),
      Transaction.each (rt.recordObjective policy signals epoch tokens snapshot.id
        (activeMaintenance epoch db).isSome) objectives first = .ok (rounds, last) →
      last.snapshots = first.snapshots := by
    intro objectives
    induction objectives with
    | nil =>
      intro first last rounds done
      simp only [Transaction.each, pure_ok, Prod.mk.injEq] at done
      rw [done.2]
    | cons objective rest ih =>
      intro first last rounds done
      simp only [Transaction.each, bind_ok, pure_ok, Prod.mk.injEq] at done
      obtain ⟨made, middle, one, others, final, loop, _, rfl⟩ := done
      rw [ih middle final others loop]
      obtain ⟨sample, _, ⟨_, rfl⟩ | ⟨_, judged⟩⟩ := rt.recordObjective_cases one
      · rfl
      · exact judged.same.1
  have same := kept _ _ _ _ parts.loop
  obtain ⟨_, _, pruned, _⟩ := prune_effect parts.pruned
  refine ne_nil_of_mem (a := snapshot) ?_
  rw [pruned, same, mem_filter]
  refine ⟨by simp, ?_⟩
  rw [parts.observedAt]
  simpa using policy.sampleCutoff_le epoch

theorem run_snapshot (calls : List (Call F)) : (rt.run calls).incidents ≠ [] → (rt.run calls).snapshots ≠ [] := by
  induction calls using List.reverseRecOn with
  | nil => exact fun impossible => absurd rfl impossible
  | append_singleton calls call ih =>
    rw [run, foldl_append, foldl_cons, foldl_nil, ← run]
    unfold Transaction.commit
    split
    next after done =>
      by_cases quiet : ∀ policy signals context epoch tokens, call ≠ .record policy signals context epoch tokens
      · obtain ⟨_, snapshots, _, incidents⟩ := rt.quiet_moves quiet done
        rw [snapshots]
        refine fun some => ih fun none_ => some ?_
        simpa [none_] using incidents
      · simp only [not_forall, not_not] at quiet
        obtain ⟨policy, signals, context, epoch, tokens, rfl⟩ := quiet
        simp only [body, bind_ok, pure_ok, Prod.mk.injEq] at done
        obtain ⟨_, _, recorded, _, rfl⟩ := done
        exact fun _ => rt.record_snapshot recorded
    next => exact ih

/-- The report shows the open incidents, each with its objective, and their worst severity. -/
structure Shows (policy : Policy F) (db : Db F) (report : Report F) : Prop where
  openIncidents : ∀ incident, incident ∈ report.openIncidents ↔ incident ∈ db.incidents ∧ incident.status = .opened
  openIncident : ∀ view ∈ report.objectives, ∀ incident, view.openIncident = some incident ↔
    incident ∈ db.incidents ∧ incident.status = .opened ∧ incident.objectiveId = view.objective.id
  objectives : report.objectives.map ObjectiveView.objective = policy.objectives
  healthy : report.overall = .healthy → db.snapshots ≠ [] ∧ ∀ incident ∈ db.incidents, incident.status ≠ .opened
  critical : (∃ incident ∈ db.incidents, incident.status = .opened ∧ incident.severity = .critical) →
    report.overall = .critical
  degraded : (∃ incident ∈ db.incidents, incident.status = .opened) →
    (∀ incident ∈ db.incidents, incident.status = .opened → incident.severity = .warning) →
    report.overall = .degraded

/-- In a reachable store the report shows the open incidents exactly if all of them are among the
rows it fetches. -/
theorem status_shows_iff (calls : List (Call F)) (policy : Policy F) (limit : Value F) (now : F)
    (count : Int) (report : Report F) (counted : rt.int limit = .ok count)
    (done : rt.status policy limit now (rt.run calls) = .ok report) :
    Shows policy (rt.run calls) report ↔ ∀ incident ∈ (rt.run calls).incidents, incident.status = .opened →
        incident ∈ fetched count (rt.run calls) := by
  have single := rt.run_single calls
  have snapshots := rt.run_snapshot calls
  simp only [status, counted, result_bind] at done
  obtain ⟨_, same, generated, _, done⟩ := done
  cases same
  cases done
  generalize rt.run calls = db at single snapshots ⊢
  have rows : ∀ incident, incident ∈ (fetched count db).filter (fun incident => incident.status = .opened) ↔
      incident ∈ fetched count db ∧ incident.status = .opened := by
    intro incident
    simp
  have stored : ∀ incident ∈ fetched count db, incident ∈ db.incidents := fun incident member =>
    (perm_insertionSort _ _).mem_iff.mp (mem_of_mem_take member)
  constructor
  · intro shows incident member opened
    exact ((rows incident).mp ((shows.openIncidents incident).mpr ⟨member, opened⟩)).1
  · intro all
    have listed : ∀ incident, incident ∈ (fetched count db).filter (fun incident => incident.status = .opened) ↔
          incident ∈ db.incidents ∧ incident.status = .opened := by
      intro incident
      rw [rows]
      exact ⟨fun both => ⟨stored incident both.1, both.2⟩, fun both => ⟨all incident both.1 both.2, both.2⟩⟩
    have shot : db.incidents ≠ [] → (db.snapshots.insertionSort
        fun first second => second.observedAt ≤ first.observedAt).head?.isNone = false := by
      intro some
      have inside := snapshots some
      cases sorted : db.snapshots.insertionSort fun first second =>
          second.observedAt ≤ first.observedAt with
      | nil =>
        have length := congrArg List.length sorted
        rw [length_insertionSort] at length
        exact absurd (length_eq_zero_iff.mp length) inside
      | cons first rest => rfl
    generalize (fetched count db).filter (fun incident => incident.status = .opened) = shown at listed ⊢
    have isOpen : ∀ incident ∈ shown, incident ∈ db.incidents ∧ incident.status = .opened :=
      fun incident => (listed incident).mp
    refine ⟨listed, ?_, ?_, ?_, ?_, ?_⟩
    · intro view member incident
      obtain ⟨objective, _, rfl⟩ := mem_map.mp member
      constructor
      · intro found
        obtain ⟨present, opened⟩ := isOpen incident (mem_reverse.mp (List.mem_of_find?_eq_some found))
        exact ⟨present, opened, by simpa using List.find?_some found⟩
      · rintro ⟨present, opened, about⟩
        have inside := (listed incident).mpr ⟨present, opened⟩
        cases found : shown.reverse.find? fun incident => incident.objectiveId = objective.id with
        | none =>
          have absent := List.find?_eq_none.mp found incident (mem_reverse.mpr inside)
          simp [about] at absent
        | some other =>
          obtain ⟨kept, open_⟩ := isOpen other (mem_reverse.mp (List.mem_of_find?_eq_some found))
          have named : other.objectiveId = objective.id := by simpa using List.find?_some found
          rw [single.one other kept incident present open_ opened (named.trans about.symm)]
    · simp [Function.comp_def]
    · intro healthy
      refine ⟨fun none_ => ?_, fun incident member opened => ?_⟩
      · simp [none_] at healthy
      · have inside := (listed incident).mpr ⟨member, opened⟩
        have filled : shown ≠ [] := ne_nil_of_mem inside
        simp only [shot (ne_nil_of_mem member), Bool.false_eq_true, ↓reduceIte, ne_eq, filled,
          not_false_eq_true] at healthy
        split at healthy <;> cases healthy
    · rintro ⟨incident, member, opened, critical⟩
      have inside := (listed incident).mpr ⟨member, opened⟩
      have worst : (shown.any fun incident => incident.severity = .critical) = true :=
        any_eq_true.mpr ⟨incident, inside, by simp [critical]⟩
      simp [shot (ne_nil_of_mem member), ↓reduceIte, worst]
    · rintro ⟨incident, member, opened⟩ warnings
      have filled : shown ≠ [] := ne_nil_of_mem ((listed incident).mpr ⟨member, opened⟩)
      have mild : (shown.any fun incident => incident.severity = .critical) = false := by
        rw [any_eq_false]
        intro other inside
        obtain ⟨present, open_⟩ := isOpen other inside
        simp [warnings other present open_]
      simp [shot (ne_nil_of_mem member), ↓reduceIte, mild, filled]

end Platform

def plainSlo : Platform Int where
  toRuntime := wholeRuntime
  sha256 text := text
  sub later earlier := later - earlier
  one := 1
  fiveMinutes := 300
  day := 86400
  longestWindow := 2592000
  stamp epoch := .ok (toString epoch)
  iso epoch := .ok (toString epoch)
  parseEpoch value := wholeRuntime.int value

def objectiveOf (id : String) (severity : Severity) (failures : Nat) (positive : 0 < failures) : Objective :=
  ⟨id, id, "", id, severity, failures, true, positive⟩

def policyOf (objectives : List Objective) (distinct : (objectives.map Objective.id).Nodup) :
    Policy Int where
  sampleIntervalSeconds := 60
  maxSampleGapSeconds := 300
  sampleCutoff epoch := epoch - 90 * 86400
  objectives
  sampleCutoff_le epoch := by omega
  ids_distinct := distinct

def twoObjectives : Policy Int :=
  policyOf [objectiveOf "login" .critical 1 (by decide), objectiveOf "backup" .warning 1 (by decide)]
    (by decide)

def recordAt (policy : Policy Int) (epoch : Int) (token : String) (signals : List (String × Bool)) : Call Int :=
  .record policy (.object (signals.map fun signal => (signal.1, .bool signal.2))) .none epoch
    ⟨token, fun _ => token⟩

def hidden : List (Call Int) := [
  recordAt twoObjectives 10 "a" [("login", false), ("backup", true)],
  recordAt twoObjectives 20 "b" [("login", false), ("backup", false)]]

theorem hidden_run : ((plainSlo.status twoObjectives (.int 1) 40 (plainSlo.run hidden)).toOption.map
      Report.overall = some .degraded) ∧
    (plainSlo.run hidden).incidents.any fun incident =>
      decide (incident.status = .opened) && decide (incident.severity = .critical) := by
  decide +kernel

theorem status_shows_iff_hidden : ∃ report, plainSlo.int (.int 1) = .ok 1 ∧
    plainSlo.status twoObjectives (.int 1) 40 (plainSlo.run hidden) = .ok report ∧
    (Platform.Shows twoObjectives (plainSlo.run hidden) report ↔
      ∀ incident ∈ (plainSlo.run hidden).incidents, incident.status = .opened →
        incident ∈ fetched 1 (plainSlo.run hidden)) := by
  have overall := hidden_run.1
  cases done : plainSlo.status twoObjectives (.int 1) 40 (plainSlo.run hidden) with
  | error why => simp [done, Except.toOption] at overall
  | ok report =>
    exact ⟨report, rfl, rfl, plainSlo.status_shows_iff hidden twoObjectives (.int 1) 40 1 report rfl done⟩

/-- A critical incident is open, and with room for one row the store shows a warning. -/
theorem status_hides_open : ∃ report, plainSlo.status twoObjectives (.int 1) 40 (plainSlo.run hidden) = .ok report ∧
    report.overall = .degraded ∧ ¬ Platform.Shows twoObjectives (plainSlo.run hidden) report := by
  obtain ⟨overall, critical⟩ := hidden_run
  obtain ⟨incident, member, opened⟩ := any_eq_true.mp critical
  simp only [Bool.and_eq_true, decide_eq_true_eq] at opened
  cases done : plainSlo.status twoObjectives (.int 1) 40 (plainSlo.run hidden) with
  | error why => simp [done, Except.toOption] at overall
  | ok report =>
    have degraded : report.overall = .degraded := by simpa [done, Except.toOption] using overall
    refine ⟨report, rfl, degraded, fun shows => ?_⟩
    have worst := shows.critical ⟨incident, member, opened⟩
    rw [degraded] at worst
    cases worst

end Dash.Slo

namespace Dash.Slo

open Dash.Python Dash.Foundation List

variable {F : Type}

def typesOf (incidentId : String) (events : List (Event F)) : List EventType :=
  (events.filter fun event => event.incidentId = incidentId).map Event.eventType

def Told (status : Status) (types : List EventType) : Prop :=
  ∃ rest, types = .opened :: rest ∧ .opened ∉ rest ∧ match status with
    | .opened => .resolved ∉ rest
    | .resolved => ∃ before after, rest = before ++ .resolved :: after ∧ .resolved ∉ before ∧
        .resolved ∉ after ∧ .acknowledged ∉ after

theorem typesOf_append (incidentId : String) (events : List (Event F)) (event : Event F) :
    typesOf incidentId (events ++ [event]) = typesOf incidentId events ++
      if event.incidentId = incidentId then [event.eventType] else [] := by
  by_cases same : event.incidentId = incidentId <;> simp [typesOf, same]

namespace Told

variable {types : List EventType}

theorem resolve (told : Told .opened types) : Told .resolved (types ++ [.resolved]) := by
  obtain ⟨rest, rfl, once, pending⟩ := told
  exact ⟨rest ++ [.resolved], rfl, by simp [once], rest, [], rfl, pending, by simp, by simp⟩

theorem acknowledge (told : Told .opened types) : Told .opened (types ++ [.acknowledged]) := by
  obtain ⟨rest, rfl, once, pending⟩ := told
  have still : EventType.resolved ∉ rest := pending
  exact ⟨rest ++ [.acknowledged], rfl, by simp [once], by simp [still]⟩

theorem note {status : Status} (told : Told status types) : Told status (types ++ [.note]) := by
  obtain ⟨rest, rfl, once, kept⟩ := told
  refine ⟨rest ++ [.note], rfl, by simp [once], ?_⟩
  cases status with
  | opened =>
    have still : EventType.resolved ∉ rest := kept
    simp [still]
  | resolved =>
    obtain ⟨before, after, rfl, first, second, quiet⟩ := kept
    exact ⟨before, after ++ [.note], by simp, first, by simp [second], by simp [quiet]⟩

end Told

variable [LinearOrder F] [Zero F]

namespace Platform

variable (rt : Platform F)

/-- An event that carries the digest that is due keeps the chain valid. -/
theorem chainValid_append (previous : Option String) (events : List (Event F)) (event : Event F)
    (valid : rt.chainValid previous events = true)
    (next : rt.rowValid (match events.getLast? with
      | some last => some last.eventHash
      | none => previous) event = true) :
    rt.chainValid previous (events ++ [event]) = true := by
  induction events generalizing previous with
  | nil => simpa [chainValid] using next
  | cons first rest ih =>
    simp only [chainValid, Bool.and_eq_true] at valid
    simp only [cons_append, chainValid, Bool.and_eq_true]
    refine ⟨valid.1, ih _ valid.2 ?_⟩
    cases rest with
    | nil => simpa using next
    | cons second others =>
      obtain ⟨last, final⟩ : ∃ last, (second :: others).getLast? = some last :=
        ⟨_, List.getLast?_eq_getLast_of_ne_nil (cons_ne_nil second others)⟩
      rw [List.getLast?_cons_cons, final] at next
      rw [final]
      exact next

structure Recounts (db : Db F) : Prop where
  single : Single db
  chain : rt.integrityCheck db = true
  known : ∀ event ∈ db.events, event.incidentId ∈ db.incidents.map Incident.id
  told : ∀ incident ∈ db.incidents, Told incident.status (typesOf incident.id db.events)
  dated : ∀ incident ∈ db.incidents, incident.status = .opened ↔ incident.resolvedAt = none

theorem chain_append {db : Db F} {event : Event F} (chain : rt.integrityCheck db = true)
    (valid : rt.rowValid (head db.events) event = true) :
    rt.chainValid none (db.events ++ [event]) = true := by
  refine rt.chainValid_append none db.events event chain ?_
  rw [head] at valid
  cases last : db.events.getLast? with
  | none => simpa [last] using valid
  | some final => simpa [last] using valid

/-- A change of one incident that comes with an event about it. -/
theorem recounts_update {db after : Db F} {incident : Incident F} {change : Incident F → Incident F}
    {event : Event F} {type : EventType} (recounts : rt.Recounts db) (single : Single after)
    (member : incident ∈ db.incidents) (told : rt.Appends db.events incident.id type event)
    (incidents : after.incidents = update Incident.id incident.id change db.incidents)
    (events : after.events = db.events ++ [event])
    (kept : ∀ row, (change row).id = row.id)
    (grows : Told (change incident).status (typesOf incident.id db.events ++ [type]))
    (dated : (change incident).status = .opened ↔ (change incident).resolvedAt = none) :
    rt.Recounts after := by
  have keys : after.incidents.map Incident.id = db.incidents.map Incident.id := by
    rw [incidents, Table.update_keys kept]
  refine ⟨single, ?_, fun other present => ?_, fun row present => ?_, fun row present => ?_⟩
  · rw [integrityCheck, events]
    exact rt.chain_append recounts.chain told.valid
  · rw [keys]
    rw [events] at present
    rcases mem_append.mp present with old | new
    · exact recounts.known other old
    · rw [mem_singleton.mp new, told.incidentId]
      exact mem_map_of_mem member
  · rw [events, typesOf_append, told.incidentId, told.eventType]
    rw [incidents] at present
    rcases Table.update_cases recounts.single.ids member present with rfl | ⟨old, other⟩
    · simpa [kept] using grows
    · simpa [Ne.symm other] using recounts.told row old
  · rw [incidents] at present
    rcases Table.update_cases recounts.single.ids member present with rfl | ⟨old, _⟩
    · exact dated
    · exact recounts.dated row old

theorem moves_recounts {db after : Db F} (moves : rt.Moves db after) (recounts : rt.Recounts db) :
    rt.Recounts after := by
  have single := rt.moves_single moves recounts.single
  cases moves with
  | other incidents events =>
    exact ⟨single, by rw [integrityCheck, events]; exact recounts.chain,
      incidents ▸ events ▸ recounts.known, incidents ▸ events ▸ recounts.told,
      incidents ▸ recounts.dated⟩
  | notes incident event member told incidents events =>
    have unchanged : after.incidents = update Incident.id incident.id id db.incidents := by
      simp [incidents, update]
    exact rt.recounts_update recounts single member told unchanged events (fun _ => rfl)
      (recounts.told incident member).note (recounts.dated incident member)
  | fails incident epoch member opened incidents events =>
    have keys : after.incidents.map Incident.id = db.incidents.map Incident.id := by
      have kept : ∀ row : Incident F, (row.fail epoch).id = row.id := fun _ => rfl
      rw [incidents, Table.update_keys kept]
    refine ⟨single, by rw [integrityCheck, events]; exact recounts.chain, fun other present => ?_,
      fun row present => ?_, fun row present => ?_⟩
    · rw [keys]
      exact recounts.known other (events ▸ present)
    · rw [incidents] at present
      rw [events]
      rcases Table.update_cases recounts.single.ids member present with rfl | ⟨old, _⟩
      · exact recounts.told incident member
      · exact recounts.told row old
    · rw [incidents] at present
      rcases Table.update_cases recounts.single.ids member present with rfl | ⟨old, _⟩
      · exact recounts.dated incident member
      · exact recounts.dated row old
  | resolves incident epoch event member opened told incidents events =>
    have open_ := recounts.told incident member
    rw [opened] at open_
    exact rt.recounts_update recounts single member told incidents events (fun _ => rfl)
      open_.resolve (by simp [Incident.resolve])
  | acknowledges incident epoch actor event member opened told incidents events =>
    have open_ := recounts.told incident member
    rw [opened] at open_
    refine rt.recounts_update recounts single member told incidents events (fun _ => rfl) ?_
      (recounts.dated incident member)
    rw [Incident.acknowledge, opened]
    exact open_.acknowledge
  | opens objective id epoch event fresh alone told incidents events =>
    have silent : typesOf id db.events = [] := by
      rw [typesOf, map_eq_nil_iff, filter_eq_nil_iff]
      intro other present same
      have about : other.incidentId = id := by simpa using same
      exact fresh (about ▸ recounts.known other present)
    refine ⟨single, ?_, fun other present => ?_, fun row present => ?_, fun row present => ?_⟩
    · rw [integrityCheck, events]
      exact rt.chain_append recounts.chain told.valid
    · rw [incidents, map_append]
      rw [events] at present
      rcases mem_append.mp present with old | new
      · exact mem_append_left _ (recounts.known other old)
      · rw [mem_singleton.mp new, told.incidentId]
        exact mem_append_right _ mem_cons_self
    · rw [incidents] at present
      rw [events, typesOf_append, told.incidentId, told.eventType]
      rcases mem_append.mp present with old | new
      · have other : id ≠ row.id := fun same => fresh (same ▸ mem_map_of_mem old)
        simpa [other] using recounts.told row old
      · rw [mem_singleton.mp new]
        have named : (objective.incident id epoch).id = id := rfl
        rw [named, if_pos rfl, silent]
        exact ⟨[], rfl, by simp, by simp [Objective.incident]⟩
    · rw [incidents] at present
      rcases mem_append.mp present with old | new
      · exact recounts.dated row old
      · rw [mem_singleton.mp new]
        simp [Objective.incident]

theorem run_recounts (calls : List (Call F)) : rt.Recounts (rt.run calls) := by
  refine rt.run_induction rt.Recounts ⟨?_, rfl, ?_, ?_, ?_⟩ (fun _ _ => rt.moves_recounts) calls
  · exact ⟨nodup_nil, fun _ impossible => nomatch impossible⟩
  · exact fun _ impossible => nomatch impossible
  · exact fun _ impossible => nomatch impossible
  · exact fun _ impossible => nomatch impossible

end Platform

end Dash.Slo
