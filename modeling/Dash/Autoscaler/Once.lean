import Dash.Autoscaler.Stops

/-! Travel requests of a growing log are counted once. -/

set_option autoImplicit false

namespace Dash.Autoscaler

open List

variable {rt : Platform}

variable {event : Event}

theorem travel_id {text : String} (found : rt.travel? text = some event) : event.id = rt.sha1 text := by
  unfold Platform.travel? at found
  split at found
  · split at found
    · cases found
    · cases found
      rfl
  · cases found

variable {lines : List Line}

theorem parseLines_line {seen : List String} (member : event ∈ rt.parseLines seen lines) :
    event.id ∉ seen ∧ ∃ line ∈ lines, rt.travel? line.text = some event := by
  induction lines generalizing seen with
  | nil => cases member
  | cons line rest ih =>
    have tail : ∀ {seen}, event ∈ rt.parseLines seen rest → event.id ∉ seen ∧
        ∃ other ∈ line :: rest, rt.travel? other.text = some event := fun inside => by
      obtain ⟨fresh, other, listed, found⟩ := ih inside
      exact ⟨fresh, other, mem_cons_of_mem _ listed, found⟩
    unfold Platform.parseLines at member
    split at member
    · rename_i own found
      split at member
      · exact tail member
      · rename_i fresh
        rcases mem_cons.mp member with rfl | inside
        · exact ⟨fresh, line, mem_cons_self, found⟩
        · obtain ⟨out, rest⟩ := tail inside
          exact ⟨fun before => out (mem_cons_of_mem _ before), rest⟩
    · exact tail member

theorem parseLines_distinct (seen : List String) (lines : List Line) :
    ((rt.parseLines seen lines).map Event.id).Nodup := by
  induction lines generalizing seen with
  | nil => exact nodup_nil
  | cons line rest ih =>
    unfold Platform.parseLines
    split
    · rename_i own found
      split
      · exact ih seen
      · rw [map_cons, nodup_cons]
        refine ⟨fun listed => ?_, ih _⟩
        obtain ⟨other, inside, same⟩ := mem_map.mp listed
        exact (parseLines_line inside).1 (same ▸ mem_cons_self)
    · exact ih seen

variable {line : Line}

theorem parseLines_covers {seen : List String} (member : line ∈ lines) (found : rt.travel? line.text = some event) :
    event.id ∈ seen ∨ ∃ other ∈ rt.parseLines seen lines, other.id = event.id := by
  induction lines generalizing seen with
  | nil => cases member
  | cons first rest ih =>
    unfold Platform.parseLines
    rcases mem_cons.mp member with rfl | inside
    · rw [found]
      dsimp only
      split
      · exact .inl ‹_›
      · exact .inr ⟨event, mem_cons_self, rfl⟩
    · split
      · rename_i own _
        split
        · exact ih inside
        · rcases ih inside with before | ⟨other, listed, same⟩
          · rcases mem_cons.mp before with here | earlier
            · exact .inr ⟨own, mem_cons_self, here.symm⟩
            · exact .inl earlier
          · exact .inr ⟨other, mem_cons_of_mem _ listed, same⟩
      · exact ih inside

theorem newEvents_covers {state : State} (member : line ∈ lines) (found : rt.travel? line.text = some event) :
    (state.demandEvents event.id).isSome = true ∨ ∃ other ∈ rt.newEvents state lines, other.id = event.id := by
  obtain ⟨other, listed, same⟩ := (parseLines_covers member found).resolve_left not_mem_nil
  cases entry : state.demandEvents event.id with
  | some time => exact .inl rfl
  | none =>
    refine .inr ⟨other, mem_filter.mpr ⟨listed, ?_⟩, same⟩
    rw [same, entry]
    rfl

section

variable (now : ℚ) (services : List String) (state : State)
include now services state

theorem demandServices_count (service : String) : (state.demandServices now services).demandCount service =
      state.demandCount service + services.count service := by
  induction services generalizing state with
  | nil => rfl
  | cons first rest ih =>
    change ((state.demandService now first).demandServices now rest).demandCount service = _
    rw [ih, count_cons]
    by_cases same : first = service
    · subst same
      simp [State.demandService]
      omega
    · rw [if_neg (by simpa using same)]
      change Function.update state.demandCount first _ service + _ = _
      rw [Function.update_of_ne (Ne.symm same)]
      omega

theorem demandServices_demand (service : String) : (state.demandServices now services).demand service =
      if service ∈ services then some now else state.demand service := by
  induction services generalizing state with
  | nil => rfl
  | cons first rest ih =>
    change ((state.demandService now first).demandServices now rest).demand service = _
    rw [ih]
    by_cases later : service ∈ rest
    · rw [if_pos later, if_pos (mem_cons_of_mem _ later)]
    · rw [if_neg later]
      change Function.update state.demand first (some now) service = _
      by_cases same : service = first
      · subst same
        rw [Function.update_self, if_pos mem_cons_self]
      · rw [Function.update_of_ne same, if_neg fun member =>
          (mem_cons.mp member).elim same later]

theorem demandServices_rest : (state.demandServices now services).demandEvents = state.demandEvents ∧
      (state.demandServices now services).counted = state.counted := by
  induction services generalizing state with
  | nil => exact ⟨rfl, rfl⟩
  | cons first rest ih => exact ih (state.demandService now first)

end

def total (counted : List Counted) (service : String) : Nat :=
  (counted.map fun entry => entry.services.count service).sum

theorem total_cons (entry : Counted) (rest : List Counted) (service : String) :
    total (entry :: rest) service = entry.services.count service + total rest service := by
  rw [total, map_cons, sum_cons, total]

theorem total_append (first second : List Counted) (service : String) :
    total (first ++ second) service = total first service + total second service := by
  rw [total, map_append, sum_append, total, total]

structure Adds (now : ℚ) (events : List Event) (before after : State) : Prop where
  counted : ∃ entries, after.counted = before.counted ++ entries ∧
    entries.map Counted.event = events ∧ (∀ entry ∈ entries, entry.time = now) ∧
    (∀ service, after.demandCount service = before.demandCount service + total entries service) ∧
    ∀ entry ∈ entries, ∀ service ∈ entry.services, after.demand service = some now
  demandEvents : ∀ id, after.demandEvents id =
    if id ∈ events.map Event.id then some now else before.demandEvents id
  demand : ∀ service, after.demand service = some now ∨ after.demand service = before.demand service

theorem addEvents_adds {now : ℚ} {inventory : Inventory} {partitions : Event → Option (List Int)}
    {events : List Event} {state next : State}
    (added : rt.addEvents now inventory partitions events state = some next) :
    Adds now events state next := by
  induction events generalizing state with
  | nil =>
    cases added
    exact ⟨⟨[], (append_nil _).symm, rfl, by simp, by simp [total], by simp⟩, fun _ => rfl, fun _ => .inr rfl⟩
  | cons event rest ih =>
    unfold Platform.addEvents at added
    split at added
    · rename_i ids _
      have later := ih added
      generalize rt.selected state inventory event ids = services at later
      obtain ⟨entries, counted, named, timed, counts, demanded⟩ := later.counted
      have entered : (state.enter now event services).counted = state.counted ++ [⟨event, services, now⟩] := by
        rw [State.enter, (demandServices_rest now services state).2]
      have demand : ∀ service, (state.enter now event services).demand service =
          if service ∈ services then some now else state.demand service :=
        demandServices_demand now services state
      refine ⟨⟨⟨event, services, now⟩ :: entries, ?_, ?_, ?_, ?_, ?_⟩, fun id => ?_, fun service => ?_⟩
      · rw [counted, entered, append_assoc, singleton_append]
      · rw [map_cons, named]
      · exact forall_mem_cons.mpr ⟨rfl, timed⟩
      · intro service
        have own : (state.enter now event services).demandCount service = _ :=
          demandServices_count now services state service
        rw [counts, own, total_cons, Nat.add_assoc]
      · refine forall_mem_cons.mpr ⟨fun service member => ?_, demanded⟩
        rcases later.demand service with same | same
        · exact same
        · rw [same, demand, if_pos member]
      · rw [later.demandEvents, map_cons]
        by_cases inside : id ∈ rest.map Event.id
        · rw [if_pos inside, if_pos (mem_cons_of_mem _ inside)]
        · rw [if_neg inside, State.enter, (demandServices_rest now services state).1]
          by_cases same : id = event.id
          · subst same
            rw [if_pos mem_cons_self]
            exact Function.update_self ..
          · rw [if_neg fun member => (mem_cons.mp member).elim same inside]
            exact Function.update_of_ne same ..
      · rcases later.demand service with same | same
        · exact .inl same
        · rw [same, demand]
          split
          · exact .inl rfl
          · exact .inr rfl
    · cases added

structure Collects (rt : Platform) (now : ℚ) (lines : List Line) (before after : State) : Prop where
  counted : ∃ entries, after.counted = before.counted ++ entries ∧
    entries.map Counted.event = rt.newEvents before lines ∧ (∀ entry ∈ entries, entry.time = now) ∧
    (∀ service, after.demandCount service = before.demandCount service + total entries service) ∧
    ∀ entry ∈ entries, ∀ service ∈ entry.services, after.demand service = some now
  demandEvents : ∀ id, after.demandEvents id = (if id ∈ (rt.newEvents before lines).map Event.id then some now
      else before.demandEvents id).filter fun time => now - time ≤ 86400

theorem collect_collects {state next : State} {now : ℚ} {scan : Scan}
    (collected : rt.collect state now lines scan = some next) :
    Collects rt now lines state next := by
  unfold Platform.collect at collected
  split at collected
  · rename_i none_
    cases collected
    refine ⟨⟨[], (append_nil _).symm, none_.symm, by simp, by simp [total, State.expireEvents], by simp⟩, fun id => ?_⟩
    rw [none_]
    rfl
  · rename_i event rest some_
    split at collected
    · obtain ⟨added, inside, rfl⟩ := Option.map_eq_some_iff.mp collected
      have adds := addEvents_adds inside
      rw [← some_] at adds
      exact ⟨adds.counted, fun id => congrArg (Option.filter _) (adds.demandEvents id)⟩
    · cases collected

structure Keeps (before after : State) : Prop where
  demandEvents : after.demandEvents = before.demandEvents
  counted : after.counted = before.counted
  demandCount : after.demandCount = before.demandCount

theorem Keeps.refl (state : State) : Keeps state state := ⟨rfl, rfl, rfl⟩

namespace Call

def log : Call → Option (List Line)
  | .tick _ _ readings => readings.scan.log
  | .demandTick _ _ scan _ => scan.log
  | _ => none

def now : Call → ℚ
  | .tick _ _ readings => readings.now
  | .demandTick _ now _ _ => now
  | .control _ now _ _ => now
  | .restart => 0

def Meets (call : Call) (service : String) : Prop :=
  match call with
  | .tick _ _ readings => ∃ counts, readings.counts = some counts ∧ 0 < counts service
  | _ => False

def ticks : Call → Bool
  | .control .. => false
  | _ => true

end Call

/-- What a call with a scan of this log leaves of the requests. -/
inductive Scanned (rt : Platform) (world : World) (now : ℚ) (log : Option (List Line))
    (meets : String → Prop) (done : Done) : Prop where
  | none (lines : done.lines = none) (scanAt : done.world.scanAt = world.scanAt ∨ done.world.scanAt = 0)
      (keeps : Keeps (rt.read world.stored) (rt.read done.world.stored))
  | failed (given : List Line) (log : log = some given)
      (lines : done.lines = some (fetched given (since world.scanAt now)))
      (scanAt : done.world.scanAt = now) (finished : done.finished = false)
      (same : done.world.stored = world.stored)
  | wrote (given : List Line) (log : log = some given)
      (lines : done.lines = some (fetched given (since world.scanAt now)))
      (scanAt : done.world.scanAt = now) (finished : done.finished = true) (state : State)
      (collects : Collects rt now (fetched given (since world.scanAt now)) (rt.read world.stored) state)
      (keeps : Keeps state (rt.read done.world.stored))
      (demand : ∀ service, state.demand service = some now →
        (rt.read done.world.stored).demand service = some now ∨ meets service)

section Scans

variable {scan : Scan} {now : ℚ} {world : World} {state : State}

theorem scanned_none (given : scan.log = none) : rt.scanned scan now world state = (none, some state, world) := by
  unfold Platform.scanned
  rw [given]

theorem scanned_some {log : List Line} (given : scan.log = some log) :
    rt.scanned scan now world state = (some (fetched log (since world.scanAt now)),
      rt.collect state now (fetched log (since world.scanAt now)) scan,
      { world with scanAt := now }) := by
  unfold Platform.scanned
  rw [given]

end Scans

theorem reconciled_requests (rt : Platform) (readings : Readings) (inventory : Inventory)
    (lines : Option (List Line)) {state : State} (world : World) (minute : 60 ≤ state.demandTtlSeconds) :
    (rt.reconciled readings inventory lines state world).lines = lines ∧
      (rt.reconciled readings inventory lines state world).world.scanAt = world.scanAt ∧
      (((rt.reconciled readings inventory lines state world).finished = false ∧
          (rt.reconciled readings inventory lines state world).world.stored = world.stored) ∨
        ((rt.reconciled readings inventory lines state world).finished = true ∧
          Keeps state (rt.read (rt.reconciled readings inventory lines state world).world.stored) ∧
          ∀ service, state.demand service = some readings.now →
            (rt.read (rt.reconciled readings inventory lines state world).world.stored).demand service =
                some readings.now ∨
              ∃ counts, readings.counts = some counts ∧ 0 < counts service)) := by
  unfold Platform.reconciled
  split
  · exact ⟨rfl, rfl, .inl ⟨rfl, rfl⟩⟩
  · rename_i counts known
    dsimp only
    have ends : Ends (Settled rt ⟨⟨readings.now, inventory, counts, readings.acts, readings.memory⟩,
      state⟩) _ _ := reconcile_ends
    split
    · rename_i progress outcome
      rw [outcome] at ends
      have settled : Settled rt _ progress := ends
      cases writes : readings.writes with
      | false => exact ⟨rfl, rfl, .inl ⟨rfl, rfl⟩⟩
      | true =>
        refine ⟨rfl, rfl, .inr ⟨rfl, ⟨settled.demandEvents, settled.counted, settled.demandCount⟩,
          fun service live => ?_⟩⟩
        refine (settled.demand service readings.now live ?_).imp_right fun players =>
          ⟨counts, known, players⟩
        have positive : (60 : ℚ) ≤ state.demandTtlSeconds := by exact_mod_cast minute
        rw [sub_self]
        linarith
    · exact ⟨rfl, rfl, .inl ⟨rfl, rfl⟩⟩

theorem read_ttl (stored : Option State) : 60 ≤ (rt.read stored).demandTtlSeconds := clamp_low ..

theorem tick_scanned (force collectDemand : Bool) (readings : Readings) (world : World) :
    Scanned rt world readings.now readings.scan.log
      (fun service => ∃ counts, readings.counts = some counts ∧ 0 < counts service)
      (rt.autoscalerTick force collectDemand readings world) := by
  unfold Platform.autoscalerTick
  dsimp only
  split
  · exact .none rfl (.inl rfl) (.refl _)
  · split
    · exact .none rfl (.inl rfl) (.refl _)
    · rename_i inventory _
      have plain : Scanned rt world readings.now readings.scan.log
          (fun service => ∃ counts, readings.counts = some counts ∧ 0 < counts service)
          (rt.reconciled readings inventory none (rt.read world.stored) world) := by
        obtain ⟨lines, scanAt, ⟨-, same⟩ | ⟨-, keeps, -⟩⟩ :=
          reconciled_requests rt readings inventory none world (read_ttl world.stored)
        · refine .none lines (.inl scanAt) ?_
          rw [same]
          exact .refl _
        · exact .none lines (.inl scanAt) keeps
      split
      · cases given : readings.scan.log with
        | none =>
          rw [given] at plain
          rw [scanned_none rfl]
          exact plain
        | some log =>
          rw [scanned_some rfl]
          generalize same : fetched log (since world.scanAt readings.now) = lines
          cases collected : rt.collect (rt.read world.stored) readings.now lines
              ⟨some log, some inventory, readings.scan.partitions⟩ with
          | none => exact .failed log rfl (congrArg some same.symm) rfl rfl rfl
          | some state =>
            have minute : 60 ≤ state.demandTtlSeconds := by
              rw [collect_demands collected]
              exact read_ttl world.stored
            obtain ⟨fetched_, scanAt, ⟨failed, kept⟩ | ⟨finished, keeps, demand⟩⟩ :=
              reconciled_requests rt readings inventory (some lines) { world with scanAt := readings.now } minute
            · exact .failed log rfl (fetched_.trans (congrArg some same.symm)) scanAt failed kept
            · exact .wrote log rfl (fetched_.trans (congrArg some same.symm)) scanAt finished state
                (same ▸ collect_collects collected) keeps demand
      · exact plain

theorem demandTick_scanned (paused : Bool) (now : ℚ) (scan : Scan) (writes : Bool) (world : World) :
    Scanned rt world now scan.log (fun _ => False) (rt.autoscalerDemandTick paused now scan writes world) := by
  unfold Platform.autoscalerDemandTick
  dsimp only
  split
  · exact .none rfl (.inl rfl) (.refl _)
  · cases given : scan.log with
    | none =>
      rw [scanned_none given]
      cases writes with
      | false => exact .none rfl (.inl rfl) ⟨rfl, rfl, rfl⟩
      | true => exact .none rfl (.inl rfl) ⟨rfl, rfl, rfl⟩
    | some log =>
      rw [scanned_some given]
      generalize same : fetched log (since world.scanAt now) = lines
      cases collected : rt.collect (rt.read world.stored) now lines scan with
      | none => exact .failed log rfl (congrArg some same.symm) rfl rfl rfl
      | some state =>
        cases writes with
        | false => exact .failed log rfl (congrArg some same.symm) rfl rfl rfl
        | true =>
          exact .wrote log rfl (congrArg some same.symm) rfl rfl state (same ▸ collect_collects collected)
            ⟨rfl, rfl, rfl⟩ fun service live => .inl live

variable {call : Call}

theorem perform_scanned (world : World) (ticks : call.ticks = true) :
    Scanned rt world call.now call.log call.Meets (rt.perform world call) := by
  cases call with
  | tick force collectDemand readings => exact tick_scanned force collectDemand readings world
  | demandTick paused now scan writes => exact demandTick_scanned paused now scan writes world
  | control => cases ticks
  | restart => exact .none rfl (.inr rfl) (.refl _)

theorem mem_lastLines_filter {count : Nat} {keeps : Line → Bool}
    (member : line ∈ lastLines count lines) (kept : keeps line = true) :
    line ∈ lastLines count (lines.filter keeps) := by
  unfold lastLines at member ⊢
  have split := take_append_drop (lines.length - count) lines
  generalize lines.take (lines.length - count) = front at split
  have short : (lines.drop (lines.length - count)).length ≤ count := by
    rw [length_drop]
    omega
  generalize lines.drop (lines.length - count) = back at split member short
  have filtered : (back.filter keeps).length ≤ count := (length_filter_le ..).trans short
  rw [← split, filter_append, length_append, drop_append, mem_append]
  right
  rw [show (front.filter keeps).length + (back.filter keeps).length - count -
    (front.filter keeps).length = 0 by omega, drop_zero]
  exact mem_filter.mpr ⟨member, kept⟩

theorem mem_fetched {log : List Line} {scanAt now : ℚ}
    (member : line ∈ lastLines 1000 log) (late : scanAt ≤ line.time) :
    line ∈ fetched log (since scanAt now) := by
  refine mem_lastLines_filter member ?_
  unfold since
  split
  · rename_i passes
    refine decide_eq_true ?_
    have floor : ((⌊scanAt⌋ : Int) : ℚ) ≤ scanAt := Int.floor_le scanAt
    push_cast
    exact max_le (passes.1.le.trans late) (by linarith)
  · rfl

theorem fetched_subset {log : List Line} {second : Option Int} (member : line ∈ fetched log second) : line ∈ log :=
  (mem_filter.mp (mem_of_mem_drop member)).1

structure Ledger where
  world : World
  log : List Line
  /-- The requests that were in the tail when a scan first met them. -/
  due : List String
  /-- The times of the last scan that was written, and of the last scan. -/
  (wrote clock : ℚ)

namespace Platform

variable (rt : Platform)

def firstMet (before log : List Line) : List String :=
  ((lastLines 1000 log).filter fun line =>
    decide (line.text ∉ before.map Line.text ∧ (rt.travel? line.text).isSome = true)).map Line.text

def account (ledger : Ledger) (call : Call) : Ledger :=
  let done := rt.perform ledger.world call
  match done.lines, call.log with
  | some _, some log =>
    { world := done.world
      log := log
      due := ledger.due ++ rt.firstMet ledger.log log
      wrote := if done.finished then call.now else ledger.wrote
      clock := call.now }
  | _, _ => { ledger with world := done.world }

def Ledger.start : Ledger := ⟨⟨none, 0⟩, [], [], 0, 0⟩

def accounts (calls : List Call) : Ledger := calls.foldl rt.account Ledger.start

def Throughout (property : Ledger → Call → Prop) : Ledger → List Call → Prop
  | _, [] => True
  | ledger, call :: rest => property ledger call ∧ Throughout property (rt.account ledger call) rest

instance (property : Ledger → Call → Prop) [∀ ledger call, Decidable (property ledger call)] :
    ∀ ledger calls, Decidable (rt.Throughout property ledger calls)
  | _, [] => .isTrue trivial
  | ledger, call :: rest =>
    have : Decidable (rt.Throughout property (rt.account ledger call) rest) :=
      instDecidableThroughout property _ rest
    inferInstanceAs (Decidable (_ ∧ _))

end Platform

/-- Ticks, demand ticks and restarts at increasing times, over a log that grows: lines that a scan
did not find are written later. -/
structure Grows (ledger : Ledger) (call : Call) : Prop where
  ticks : call.ticks = true
  later : ∀ log ∈ call.log, ledger.clock ≤ call.now
  grows : ∀ log ∈ call.log, ledger.log <+: log ∧
    ∀ line ∈ log.drop ledger.log.length, ledger.world.scanAt ≤ line.time

instance (ledger : Ledger) (call : Call) : Decidable (Grows ledger call) :=
  decidable_of_iff (call.ticks = true ∧ (∀ log ∈ call.log, ledger.clock ≤ call.now) ∧
      ∀ log ∈ call.log, ledger.log <+: log ∧
        ∀ line ∈ log.drop ledger.log.length, ledger.world.scanAt ≤ line.time)
    ⟨fun ⟨ticks, later, grows⟩ => ⟨ticks, later, grows⟩,
      fun ⟨ticks, later, grows⟩ => ⟨ticks, later, grows⟩⟩

/-- No two lines of the log have one hash, a call that fails after its scan found no new request, and
no line is fetched that was counted more than a day before the last scan that was written. -/
structure Clear (rt : Platform) (ledger : Ledger) (call : Call) : Prop where
  hash : ∀ log ∈ call.log, ∀ first ∈ log, ∀ second ∈ log,
    rt.sha1 first.text = rt.sha1 second.text → first.text = second.text
  fails : ∀ lines ∈ (rt.perform ledger.world call).lines, (rt.perform ledger.world call).finished = false →
      rt.newEvents (rt.read ledger.world.stored) lines = []
  recent : ∀ lines ∈ (rt.perform ledger.world call).lines, ∀ line ∈ lines,
    ∀ entry ∈ (rt.read ledger.world.stored).counted, entry.event.id = rt.sha1 line.text →
      ledger.wrote - entry.time ≤ 86400

instance (rt : Platform) (ledger : Ledger) (call : Call) : Decidable (Clear rt ledger call) :=
  decidable_of_iff
    ((∀ log ∈ call.log, ∀ first ∈ log, ∀ second ∈ log,
        rt.sha1 first.text = rt.sha1 second.text → first.text = second.text) ∧
      (∀ lines ∈ (rt.perform ledger.world call).lines,
        (rt.perform ledger.world call).finished = false →
          rt.newEvents (rt.read ledger.world.stored) lines = []) ∧
      ∀ lines ∈ (rt.perform ledger.world call).lines, ∀ line ∈ lines,
        ∀ entry ∈ (rt.read ledger.world.stored).counted, entry.event.id = rt.sha1 line.text →
          ledger.wrote - entry.time ≤ 86400)
    ⟨fun ⟨hash, fails, recent⟩ => ⟨hash, fails, recent⟩,
      fun ⟨hash, fails, recent⟩ => ⟨hash, fails, recent⟩⟩

/-- Every request that was due is counted once, and what is counted adds up. -/
structure Once (rt : Platform) (ledger : Ledger) : Prop where
  due : ∀ text ∈ ledger.due, ((rt.read ledger.world.stored).counted.filter fun entry =>
    decide (rt.travel? text = some entry.event)).length = 1
  most : ((rt.read ledger.world.stored).counted.map fun entry => entry.event.id).Nodup
  counts : ∀ service, (rt.read ledger.world.stored).demandCount service =
    total (rt.read ledger.world.stored).counted service

/-- Each request that a call counts is a demand for its services, unless players are there. -/
def Contributes (rt : Platform) (ledger : Ledger) (call : Call) : Prop :=
  ∀ entry ∈ (rt.read (rt.account ledger call).world.stored).counted,
    entry ∉ (rt.read ledger.world.stored).counted → ∀ service ∈ entry.services,
      (rt.read (rt.account ledger call).world.stored).demand service = some entry.time ∨ call.Meets service

structure Counts (rt : Platform) (state : State) (log : List Line) (due : List String) (wrote : ℚ) :
    Prop where
  most : (state.counted.map fun entry => entry.event.id).Nodup
  lines : ∀ entry ∈ state.counted, ∃ line ∈ log, rt.travel? line.text = some entry.event
  entered : ∀ entry ∈ state.counted, wrote - entry.time ≤ 86400 →
    state.demandEvents entry.event.id = some entry.time
  known : ∀ id, (state.demandEvents id).isSome = true → ∃ entry ∈ state.counted, entry.event.id = id
  due : ∀ text ∈ due, ∃ entry ∈ state.counted, rt.travel? text = some entry.event
  counts : ∀ service, state.demandCount service = total state.counted service

section Steps

variable {state next : State} {log given : List Line} {due : List String} {wrote now : ℚ}

theorem Counts.keeps (counts : Counts rt state log due wrote) (keeps : Keeps state next) :
    Counts rt next log due wrote := by
  obtain ⟨events, counted, count⟩ := keeps
  constructor
  · rw [counted]
    exact counts.most
  · rw [counted]
    exact counts.lines
  · rw [counted, events]
    exact counts.entered
  · rw [counted, events]
    exact counts.known
  · rw [counted]
    exact counts.due
  · rw [counted, count]
    exact counts.counts

theorem same_request {first second : String} {event other : Event}
    (hash : rt.sha1 first = rt.sha1 second → first = second)
    (found : rt.travel? first = some event) (again : rt.travel? second = some other)
    (same : event.id = other.id) : rt.travel? first = some other := by
  rw [travel_id found, travel_id again] at same
  rw [hash same]
  exact again

theorem Counts.request (counts : Counts rt state log due wrote) (within : log ⊆ given)
    (hash : ∀ first ∈ given, ∀ second ∈ given,
      rt.sha1 first.text = rt.sha1 second.text → first.text = second.text) {line : Line}
    (member : line ∈ given) {event : Event} (found : rt.travel? line.text = some event)
    {entry : Counted} (listed : entry ∈ state.counted) (same : entry.event.id = event.id) :
    rt.travel? line.text = some entry.event := by
  obtain ⟨other, inside, own⟩ := counts.lines entry listed
  exact same_request (hash line member other (within inside)) found own same.symm

variable {rest : List Line} {scanAt : ℚ}

theorem firstMet_fetched (now : ℚ) (grows : given = log ++ rest)
    (late : ∀ line ∈ rest, scanAt ≤ line.time) {text : String}
    (member : text ∈ rt.firstMet log given) : ∃ line ∈ fetched given (since scanAt now),
      line.text = text ∧ ∃ event, rt.travel? text = some event := by
  obtain ⟨line, listed, rfl⟩ := mem_map.mp member
  obtain ⟨tail, first⟩ := mem_filter.mp listed
  obtain ⟨fresh, request⟩ := of_decide_eq_true first
  have inside := mem_of_mem_drop tail
  rw [grows] at inside
  refine ⟨line, mem_fetched tail (late line ?_), rfl, Option.isSome_iff_exists.mp request⟩
  exact (mem_append.mp inside).resolve_left fun old => fresh (mem_map_of_mem old)

section

variable (counts : Counts rt state log due wrote) (grows : given = log ++ rest)
  (late : ∀ line ∈ rest, scanAt ≤ line.time)
include counts grows late

theorem Counts.failed (hash : ∀ first ∈ given, ∀ second ∈ given,
      rt.sha1 first.text = rt.sha1 second.text → first.text = second.text)
    (nothing : rt.newEvents state (fetched given (since scanAt now)) = []) :
    Counts rt state given (due ++ rt.firstMet log given) wrote := by
  have within : log ⊆ given := fun line member => grows ▸ mem_append_left _ member
  refine ⟨counts.most, fun entry member => ?_, counts.entered, counts.known, fun text member => ?_, counts.counts⟩
  · obtain ⟨line, inside, found⟩ := counts.lines entry member
    exact ⟨line, within inside, found⟩
  · rcases mem_append.mp member with old | new
    · exact counts.due text old
    · obtain ⟨line, inside, rfl, event, found⟩ := firstMet_fetched now grows late new
      rcases newEvents_covers inside found with there | ⟨other, listed, -⟩
      · obtain ⟨entry, listed, same⟩ := counts.known event.id there
        exact ⟨entry, listed, counts.request within hash (fetched_subset inside) found listed same⟩
      · rw [nothing] at listed
        cases listed

theorem Counts.collected (before : wrote ≤ now) (hash : ∀ first ∈ given, ∀ second ∈ given,
      rt.sha1 first.text = rt.sha1 second.text → first.text = second.text)
    (recent : ∀ line ∈ fetched given (since scanAt now), ∀ entry ∈ state.counted,
      entry.event.id = rt.sha1 line.text → wrote - entry.time ≤ 86400)
    (collects : Collects rt now (fetched given (since scanAt now)) state next) :
    Counts rt next given (due ++ rt.firstMet log given) now := by
  have within : log ⊆ given := fun line member => grows ▸ mem_append_left _ member
  obtain ⟨⟨entries, counted, named, timed, count, -⟩, events⟩ := collects
  generalize lines_ : fetched given (since scanAt now) = lines at *
  -- A new request is a line's, has no entry, and was not counted before.
  have fresh : ∀ event ∈ rt.newEvents state lines, state.demandEvents event.id = none ∧
      ∃ line ∈ lines, rt.travel? line.text = some event := fun event member => by
    obtain ⟨parsed, none_⟩ := mem_filter.mp member
    exact ⟨Option.isNone_iff_eq_none.mp none_, (parseLines_line parsed).2⟩
  have uncounted : ∀ event ∈ rt.newEvents state lines, ∀ entry ∈ state.counted,
      entry.event.id ≠ event.id := fun event member entry listed same => by
    obtain ⟨none_, line, inside, found⟩ := fresh event member
    have entered := counts.entered entry listed (recent line inside entry listed (same.trans (travel_id found)))
    rw [same, none_] at entered
    cases entered
  have events_of : ∀ entry ∈ entries, entry.event ∈ rt.newEvents state lines := fun entry member =>
    named ▸ mem_map_of_mem member
  have requests : ∀ entry ∈ next.counted, ∃ line ∈ given, rt.travel? line.text = some entry.event := by
    intro entry member
    rw [counted] at member
    rcases mem_append.mp member with old | new
    · obtain ⟨line, inside, found⟩ := counts.lines entry old
      exact ⟨line, within inside, found⟩
    · obtain ⟨line, inside, found⟩ := (fresh entry.event (events_of entry new)).2
      exact ⟨line, fetched_subset (lines_ ▸ inside), found⟩
  have covered : ∀ line ∈ lines, ∀ event, rt.travel? line.text = some event →
      ∃ entry ∈ next.counted, entry.event.id = event.id := by
    intro line inside event found
    rw [counted]
    rcases newEvents_covers inside found with there | ⟨other, listed, same⟩
    · obtain ⟨entry, old, same⟩ := counts.known event.id there
      exact ⟨entry, mem_append_left _ old, same⟩
    · rw [← named] at listed
      obtain ⟨entry, new, rfl⟩ := mem_map.mp listed
      exact ⟨entry, mem_append_right _ new, same⟩
  refine ⟨?_, requests, fun entry member day => ?_, fun id there => ?_, fun text member => ?_, fun service => ?_⟩
  · rw [counted, map_append]
    have ids : entries.map (fun entry => entry.event.id) = (rt.newEvents state lines).map Event.id := by
      rw [← named, map_map]
      rfl
    refine nodup_append.mpr ⟨counts.most, ?_, fun first old second new same => ?_⟩
    · rw [ids]
      exact (parseLines_distinct [] lines).sublist (filter_sublist.map _)
    · obtain ⟨entry, listed, rfl⟩ := mem_map.mp old
      rw [ids] at new
      obtain ⟨event, inside, rfl⟩ := mem_map.mp new
      exact uncounted event inside entry listed same
  · rw [events]
    rw [counted] at member
    rcases mem_append.mp member with old | new
    · have apart : entry.event.id ∉ (rt.newEvents state lines).map Event.id := fun inside => by
        obtain ⟨event, listed, same⟩ := mem_map.mp inside
        exact uncounted event listed entry old same.symm
      rw [if_neg apart, counts.entered entry old (by linarith)]
      exact Option.filter_some_pos (decide_eq_true day)
    · rw [if_pos (mem_map_of_mem (events_of entry new)), timed entry new]
      rw [timed entry new] at day
      exact Option.filter_some_pos (decide_eq_true day)
  · rw [events] at there
    obtain ⟨time, kept⟩ := Option.isSome_iff_exists.mp there
    have before := (Option.filter_eq_some_iff.mp kept).1
    split at before
    · rename_i inside
      obtain ⟨event, listed, rfl⟩ := mem_map.mp inside
      rw [← named] at listed
      obtain ⟨entry, new, rfl⟩ := mem_map.mp listed
      exact ⟨entry, counted ▸ mem_append_right _ new, rfl⟩
    · obtain ⟨entry, old, same⟩ := counts.known id (Option.isSome_iff_exists.mpr ⟨time, before⟩)
      exact ⟨entry, counted ▸ mem_append_left _ old, same⟩
  · rcases mem_append.mp member with old | new
    · obtain ⟨entry, listed, found⟩ := counts.due text old
      exact ⟨entry, counted ▸ mem_append_left _ listed, found⟩
    · obtain ⟨line, inside, rfl, event, found⟩ := firstMet_fetched now grows late new
      rw [lines_] at inside
      obtain ⟨entry, listed, same⟩ := covered line inside event found
      obtain ⟨other, there, own⟩ := requests entry listed
      exact ⟨entry, listed, same_request (hash line (fetched_subset (lines_ ▸ inside)) other there) found own same.symm⟩
  · rw [counted, total_append, count, counts.counts]

end

end Steps

structure Balanced (rt : Platform) (ledger : Ledger) : Prop where
  counts : Counts rt (rt.read ledger.world.stored) ledger.log ledger.due ledger.wrote
  clock : ledger.wrote ≤ ledger.clock

variable {ledger : Ledger}

theorem account_none (lines : (rt.perform ledger.world call).lines = none) :
    rt.account ledger call = { ledger with world := (rt.perform ledger.world call).world } := by
  simp [Platform.account, lines]

theorem account_some {lines log : List Line}
    (scanned : (rt.perform ledger.world call).lines = some lines) (given : call.log = some log) :
    rt.account ledger call =
      { world := (rt.perform ledger.world call).world
        log := log
        due := ledger.due ++ rt.firstMet ledger.log log
        wrote := if (rt.perform ledger.world call).finished then call.now else ledger.wrote
        clock := call.now } := by
  simp [Platform.account, scanned, given]

theorem Balanced.account (balanced : Balanced rt ledger) (grows : Grows ledger call) (clear : Clear rt ledger call) :
    Balanced rt (rt.account ledger call) := by
  cases perform_scanned ledger.world grows.ticks with
  | none lines scanAt keeps =>
    rw [account_none lines]
    exact ⟨balanced.counts.keeps keeps, balanced.clock⟩
  | failed log given lines scanAt finished same =>
    obtain ⟨⟨rest, split⟩, late⟩ := grows.grows log given
    rw [← split, drop_left] at late
    rw [account_some lines given, finished]
    refine ⟨?_, balanced.clock.trans (grows.later log given)⟩
    rw [same]
    exact balanced.counts.failed split.symm late (clear.hash log given) (clear.fails _ lines finished)
  | wrote log given lines scanAt finished state collects keeps demand =>
    obtain ⟨⟨rest, split⟩, late⟩ := grows.grows log given
    rw [← split, drop_left] at late
    rw [account_some lines given, finished]
    exact ⟨(balanced.counts.collected split.symm late
      (balanced.clock.trans (grows.later log given)) (clear.hash log given)
      (clear.recent _ lines) collects).keeps keeps, le_refl _⟩

theorem account_contributes (grows : Grows ledger call) : Contributes rt ledger call := by
  intro entry member new service chosen
  have world : (rt.account ledger call).world = (rt.perform ledger.world call).world := by
    unfold Platform.account
    dsimp only
    split <;> rfl
  rw [world] at member ⊢
  cases perform_scanned ledger.world grows.ticks with
  | none lines scanAt keeps =>
    rw [keeps.counted] at member
    exact absurd member new
  | failed log given lines scanAt finished same =>
    rw [same] at member
    exact absurd member new
  | wrote log given lines scanAt finished state collects keeps demand =>
    obtain ⟨entries, counted, -, timed, -, demanded⟩ := collects.counted
    rw [keeps.counted, counted] at member
    have inside := (mem_append.mp member).resolve_left new
    rw [timed entry inside]
    exact demand service (demanded entry inside service chosen)

theorem Balanced.once (balanced : Balanced rt ledger) : Once rt ledger where
  due text member := by
    obtain ⟨entry, listed, found⟩ := balanced.counts.due text member
    have inside : entry ∈ (rt.read ledger.world.stored).counted.filter fun entry =>
        decide (rt.travel? text = some entry.event) :=
      mem_filter.mpr ⟨listed, decide_eq_true found⟩
    have distinct := balanced.counts.most.sublist ((filter_sublist
      (p := fun entry => decide (rt.travel? text = some entry.event))).map _)
    have same : ∀ other ∈ (rt.read ledger.world.stored).counted.filter fun entry =>
        decide (rt.travel? text = some entry.event), other.event.id = entry.event.id := by
      intro other there
      have own := of_decide_eq_true (mem_filter.mp there).2
      rw [Option.some.inj (own.symm.trans found)]
    match filtered : (rt.read ledger.world.stored).counted.filter fun entry =>
        decide (rt.travel? text = some entry.event) with
    | [] =>
      rw [filtered] at inside
      cases inside
    | [_] =>
      rw [filtered]
      rfl
    | first :: second :: rest =>
      rw [filtered] at distinct same
      have first_ := same first mem_cons_self
      have second_ := same second (mem_cons_of_mem _ mem_cons_self)
      rw [map_cons, nodup_cons] at distinct
      exact absurd (mem_map.mpr ⟨second, mem_cons_self, second_.trans first_.symm⟩) distinct.1
  most := balanced.counts.most
  counts := balanced.counts.counts

theorem start_balanced (rt : Platform) : Balanced rt Platform.Ledger.start := by
  have empty : (rt.read none).counted = [] ∧ (rt.read none).demandEvents = (fun _ => none) ∧
      (rt.read none).demandCount = fun _ => 0 := by
    unfold Platform.read Platform.defaultState
    dsimp only [Option.getD_none]
    split
    · unfold Platform.applyProfile Platform.profileSettings
      dsimp only
      cases rt.PROFILE_DEFAULT <;> exact ⟨rfl, rfl, rfl⟩
    · exact ⟨rfl, rfl, rfl⟩
  obtain ⟨counted, events, count⟩ := empty
  refine ⟨?_, le_refl _⟩
  change Counts rt (rt.read none) [] [] 0
  constructor <;> simp [counted, events, count, total]

/-- While calls meet the conditions, requests are counted once. -/
theorem travel_counted_once (rt : Platform) (calls : List Call)
    (grows : rt.Throughout Grows Platform.Ledger.start calls)
    (clear : rt.Throughout (Clear rt) Platform.Ledger.start calls) :
    Once rt (rt.accounts calls) ∧ rt.Throughout (Contributes rt) Platform.Ledger.start calls := by
  have starts := start_balanced rt
  unfold Platform.accounts
  generalize Platform.Ledger.start = ledger at grows clear starts ⊢
  induction calls generalizing ledger with
  | nil => exact ⟨starts.once, trivial⟩
  | cons call rest ih =>
    obtain ⟨once, contributes⟩ := ih _ grows.2 clear.2 (starts.account grows.1 clear.1)
    exact ⟨once, account_contributes grows.1, contributes⟩

def requestLine : Line :=
  ⟨990, "Received travel request for 1 player(s) to DeepDesert (instancingMode=Dimension)"⟩

def travelMap : Platform :=
  { oneMap with
    ENABLED_DEFAULT := true
    sha1 := fun text =>
      if text = requestLine.text then "d537976a413392e02ad02ef66629684478305774" else text
    patterns := [fun _ => none,
      fun text => if text = requestLine.text then some ("DeepDesert", 1) else none, fun _ => none] }

def demands (now : ℚ) (partitions : Option (List Int)) : Call :=
  .demandTick false now ⟨some [requestLine], some fun _ => some false, fun _ => partitions⟩ true

def scannedAgain : List Call :=
  [demands 1000 (some [1]), demands 1003 (some [1]), .restart, demands 2000 (some [1])]

theorem scannedAgain_once :
    (travelMap.read (travelMap.accounts scannedAgain).world.stored).demandCount "deep-desert" = 1 ∧
      Once travelMap (travelMap.accounts scannedAgain) ∧
      travelMap.Throughout (Contributes travelMap) Platform.Ledger.start scannedAgain :=
  ⟨by decide +kernel, travel_counted_once travelMap scannedAgain (by decide +kernel) (by decide +kernel)⟩

/-- The query raises at the scan that finds the request; the next scan asks for later lines. -/
def scannedInVain : List Call := [demands 1000 none, demands 1003 (some [1])]

theorem scannedInVain_lost : travelMap.Throughout Grows Platform.Ledger.start scannedInVain ∧
      ¬ Once travelMap (travelMap.accounts scannedInVain) := by
  refine ⟨by decide, fun once => ?_⟩
  have due : requestLine.text ∈ (travelMap.accounts scannedInVain).due := by decide +kernel
  have none_ : (travelMap.read (travelMap.accounts scannedInVain).world.stored).counted = [] := by
    decide +kernel
  have counted := once.due requestLine.text due
  rw [none_] at counted
  cases counted

end Dash.Autoscaler
