import Dash.Autoscaler.Reconcile

/-! Which maps a run of ticks and changes stops. -/

set_option autoImplicit false

namespace Dash.Autoscaler

open List

variable {rt : Platform}

def Demands (before after : State) : Prop :=
  after = { before with
    demand := after.demand
    demandSource := after.demandSource
    demandEvents := after.demandEvents
    lastActivity := after.lastActivity
    demandCount := after.demandCount
    lastEvictionReason := after.lastEvictionReason
    counted := after.counted }

theorem Demands.trans {first second third : State} (early : Demands first second)
    (late : Demands second third) : Demands first third := by
  unfold Demands at *
  rw [late, early]

theorem demandServices_demands (now : ℚ) (services : List String) (state : State) :
    Demands state (state.demandServices now services) := by
  induction services generalizing state with
  | nil => rfl
  | cons service rest ih => exact Demands.trans (show Demands state (state.demandService now service) from rfl) (ih _)

theorem enter_demands (now : ℚ) (event : Event) (services : List String) (state : State) :
    Demands state (state.enter now event services) :=
  (demandServices_demands now services state).trans rfl

variable {state next : State}

theorem addEvents_demands {now : ℚ} {inventory : Inventory}
    {partitions : Event → Option (List Int)} {events : List Event}
    (added : rt.addEvents now inventory partitions events state = some next) : Demands state next := by
  induction events generalizing state with
  | nil => exact Option.some.inj added ▸ rfl
  | cons event rest ih =>
    unfold Platform.addEvents at added
    split at added
    · exact (enter_demands now event _ state).trans (ih added)
    · cases added

theorem collect_demands {now : ℚ} {lines : List Line} {scan : Scan}
    (collected : rt.collect state now lines scan = some next) : Demands state next := by
  unfold Platform.collect at collected
  split at collected
  · exact Option.some.inj collected ▸ rfl
  · split at collected
    · obtain ⟨added, inside, rfl⟩ := Option.map_eq_some_iff.mp collected
      exact (addEvents_demands inside).trans rfl
    · cases collected

theorem scanned_demands {scan : Scan} {now : ℚ} {world left : World}
    {lines : Option (List Line)} (scanned : rt.scanned scan now world state = (lines, some next, left)) :
    Demands state next ∧ left.stored = world.stored := by
  unfold Platform.scanned at scanned
  split at scanned
  · obtain ⟨-, collected, rfl⟩ := Prod.mk.inj scanned |>.imp id Prod.mk.inj
    exact ⟨collect_demands collected, rfl⟩
  · obtain ⟨-, same, rfl⟩ := Prod.mk.inj scanned |>.imp id Prod.mk.inj
    exact ⟨Option.some.inj same ▸ rfl, rfl⟩

def Recorded (stored : Option State) (done : Done) : Doing → Prop
  | .ok progress => done.issued = progress.issued ∧
      (done.world.stored = some progress.state ∨ done.world.stored = stored)
  | .error progress => done.issued = progress.issued ∧ done.world.stored = stored

inductive Ticked (rt : Platform) (stored : Option State) (done : Done) : Prop where
  | skipped (looked : done.looked = none) (same : done.world.stored = stored)
  | reconciled (sight : Sight) (looked : done.looked = some sight)
      (demands : Demands (rt.read stored) sight.state)
      (recorded : Recorded stored done (rt.reconcile sight.look sight.state))

theorem reconciled_ticked {readings : Readings} {inventory : Inventory} {lines : Option (List Line)}
    {state : State} {world : World} {stored : Option State} (demands : Demands (rt.read stored) state)
    (same : world.stored = stored) :
    Ticked rt stored (rt.reconciled readings inventory lines state world) := by
  unfold Platform.reconciled
  split
  · exact .skipped rfl same
  · rename_i counts known
    dsimp only
    split
    · rename_i progress outcome
      refine .reconciled ⟨_, state⟩ rfl demands ?_
      rw [outcome]
      refine ⟨rfl, ?_⟩
      unfold Platform.saved
      split
      · exact .inl rfl
      · exact .inr same
    · rename_i progress outcome
      refine .reconciled ⟨_, state⟩ rfl demands ?_
      rw [outcome]
      exact ⟨rfl, same⟩

theorem tick_ticked (force collectDemand : Bool) (readings : Readings) (world : World) :
    Ticked rt world.stored (rt.autoscalerTick force collectDemand readings world) := by
  unfold Platform.autoscalerTick
  dsimp only
  split
  · exact .skipped rfl rfl
  · split
    · exact .skipped rfl rfl
    · split
      · split
        · rename_i scanned
          obtain ⟨demands, same⟩ := scanned_demands scanned
          exact reconciled_ticked demands same
        · rename_i lines left scanned
          refine .skipped rfl ?_
          unfold Platform.scanned at scanned
          split at scanned
          · obtain ⟨-, -, rfl⟩ := Prod.mk.inj scanned |>.imp id Prod.mk.inj
            rfl
          · obtain ⟨-, -, rfl⟩ := Prod.mk.inj scanned |>.imp id Prod.mk.inj
            rfl
      · exact reconciled_ticked rfl rfl

theorem demandTick_demands (rt : Platform) (paused : Bool) (now : ℚ) (scan : Scan) (writes : Bool) (world : World) :
    (rt.autoscalerDemandTick paused now scan writes world).looked = none ∧
      ((rt.autoscalerDemandTick paused now scan writes world).world.stored = world.stored ∨
        ∃ state, Demands (rt.read world.stored) state ∧
          (rt.autoscalerDemandTick paused now scan writes world).world.stored = some state) := by
  unfold Platform.autoscalerDemandTick
  dsimp only
  split
  · exact ⟨rfl, .inl rfl⟩
  · split
    · rename_i state left scanned
      obtain ⟨demands, same⟩ := scanned_demands scanned
      refine ⟨rfl, ?_⟩
      unfold unchanged Platform.saved
      split
      · exact .inr ⟨_, demands, rfl⟩
      · exact .inl same
    · rename_i left scanned
      refine ⟨rfl, .inl ?_⟩
      unfold Platform.scanned at scanned
      split at scanned
      · obtain ⟨-, -, rfl⟩ := Prod.mk.inj scanned |>.imp id Prod.mk.inj
        rfl
      · obtain ⟨-, -, rfl⟩ := Prod.mk.inj scanned |>.imp id Prod.mk.inj
        rfl

structure Round where
  earlier : List Sight
  sight : Sight
  /-- The maps whose `idleSince` entry is from before a tick that found them in another way. -/
  stale : String → Bool
  issued : List Stop

structure Track where
  world : World
  sights : List Sight
  stale : String → Bool
  rounds : List Round

namespace Platform

variable (rt : Platform)

/-- The run goes on after what a call did. -/
def after (track : Track) (done : Done) : Track where
  world := done.world
  sights := track.sights ++ done.looked.toList
  stale service := ((rt.read done.world.stored).idleSince service).isSome &&
    (track.stale service || done.looked.any fun sight => !decide (sight.Idle service))
  rounds := track.rounds ++ done.looked.toList.map fun sight => ⟨track.sights, sight, track.stale, done.issued⟩

/-- A call of the run; a change is made before the tick that follows it. -/
def track (track : Track) : Call → Track
  | .control control now writes readings =>
    match rt.changed control now writes track.world with
    | some world =>
      let track := rt.after track (unchanged world true)
      match control.tick? with
      | some force => rt.after track (rt.autoscalerTick force true readings world)
      | none => track
    | none => track
  | call => rt.after track (rt.perform track.world call)

def Track.start : Track := ⟨⟨none, 0⟩, [], fun _ => false, []⟩

def run (calls : List Call) : Track := calls.foldl rt.track Track.start

end Platform

def Seen (sights : List Sight) (service : String) (time : ℚ) : Prop :=
  ∃ before first after, sights = before ++ first :: after ∧ first.look.now = time ∧
    ∀ sight ∈ first :: after, sight.Idle service

variable {sight : Sight} {service : String}

theorem Seen.snoc {sights : List Sight} {time : ℚ} (seen : Seen sights service time) (idle : sight.Idle service) :
    Seen (sights ++ [sight]) service time := by
  obtain ⟨before, first, after, rfl, start, all⟩ := seen
  refine ⟨before, first, after ++ [sight], by simp, start, fun other member => ?_⟩
  rw [← cons_append] at member
  rcases mem_append.mp member with old | new
  · exact all other old
  · exact mem_singleton.mp new ▸ idle

theorem Seen.now {sights : List Sight} (idle : sight.Idle service) : Seen (sights ++ [sight]) service sight.look.now :=
  ⟨sights, sight, [], rfl, rfl, fun other member => by
    cases mem_singleton.mp member
    exact idle⟩

def Entered (rt : Platform) (track : Track) : Prop :=
  ∀ service since, (rt.read track.world.stored).idleSince service = some since →
    (rt.read track.world.stored).mode service = .dynamic → track.stale service = true ∨
      Seen track.sights service since

theorem readMode_read (modes : String → Option Mode) : rt.readMode (rt.readMode modes) = rt.readMode modes := by
  funext service
  unfold Platform.readMode
  by_cases listed : service ∈ rt.GAME_MAP_SERVICES
  · by_cases required : service ∈ rt.SIMULATION_REQUIRED_SERVICES
    · rw [if_pos listed, if_pos required, if_pos listed, if_pos required]
    · simp [if_pos listed, if_neg required]
  · rw [if_neg listed, if_neg listed]

theorem readMode_congr {first second : String → Option Mode} (same : first service = second service) :
    rt.readMode first service = rt.readMode second service := by
  rw [Platform.readMode, Platform.readMode, same]

theorem read_of {stored : Option State} {state : State} (modes : state.modes service = (rt.read stored).modes service) :
    (rt.read (some state)).mode service = (rt.read stored).mode service := by
  have same : rt.readMode state.modes service =
      rt.readMode (rt.readMode (stored.getD rt.defaultState).modes) service := readMode_congr modes
  rw [readMode_read] at same
  exact congrArg (fun mode : Option Mode => mode.getD .alwaysOn) same

variable {done : Done}

theorem Entered.tick {track : Track} (entered : Entered rt track)
    (ticked : Ticked rt track.world.stored done) : Entered rt (rt.after track done) := by
  cases ticked with
  | skipped looked same =>
    intro service since found dynamic
    change (rt.read done.world.stored).idleSince service = _ at found
    change (rt.read done.world.stored).mode service = _ at dynamic
    rw [same] at found dynamic
    rcases entered service since found dynamic with stale | seen
    · left
      simp [Platform.after, same, found, stale]
    · right
      simpa [Platform.after, looked] using seen
  | reconciled sight looked demands recorded =>
    intro service since found dynamic
    change (rt.read done.world.stored).idleSince service = _ at found
    change (rt.read done.world.stored).mode service = _ at dynamic
    have sights : (rt.after track done).sights = track.sights ++ [sight] := by
      simp [Platform.after, looked]
    have stale : (rt.after track done).stale service = (track.stale service || !decide (sight.Idle service)) := by
      simp [Platform.after, looked, found]
    rw [sights, stale]
    -- An entry that was there before stays stale, or the tick sees the map once more.
    have old : (rt.read track.world.stored).idleSince service = some since →
        (rt.read track.world.stored).mode service = .dynamic →
        (track.stale service || !decide (sight.Idle service)) = true ∨
          Seen (track.sights ++ [sight]) service since := by
      intro before mode
      rcases entered service since before mode with stale | seen
      · exact .inl (by rw [stale, Bool.true_or])
      · by_cases idle : sight.Idle service
        · exact .inr (seen.snoc idle)
        · exact .inl (by simp [idle])
    have ends : Ends (Settled rt sight) _ _ := reconcile_ends
    cases outcome : rt.reconcile sight.look sight.state with
    | error progress =>
      rw [outcome] at recorded
      rw [recorded.2] at found dynamic
      exact old found dynamic
    | ok progress =>
      rw [outcome] at recorded ends
      obtain ⟨-, written | same⟩ := recorded
      · rw [written] at found dynamic
        have settled : Settled rt sight progress := ends
        have modes : progress.state.modes = (rt.read track.world.stored).modes := by
          rw [settled.settings.modes, demands]
        rw [read_of (congrFun modes service)] at dynamic
        rcases settled.entries service since found with before | ⟨idle, rfl⟩
        · rw [demands] at before
          exact old before dynamic
        · exact .inr (Seen.now idle)
      · rw [same] at found dynamic
        exact old found dynamic

theorem Entered.kept {track : Track} (entered : Entered rt track) (looked : done.looked = none)
    (kept : ∀ service since, (rt.read done.world.stored).idleSince service = some since →
      (rt.read track.world.stored).idleSince service = some since ∧
        (rt.read done.world.stored).mode service = (rt.read track.world.stored).mode service) :
    Entered rt (rt.after track done) := by
  intro service since found dynamic
  change (rt.read done.world.stored).idleSince service = _ at found
  change (rt.read done.world.stored).mode service = _ at dynamic
  obtain ⟨before, mode⟩ := kept service since found
  rw [mode] at dynamic
  rcases entered service since before dynamic with stale | seen
  · left
    simp [Platform.after, found, stale]
  · right
    simpa [Platform.after, looked] using seen

theorem change_keeps {now : ℚ} {control : Control}
    (changed : rt.change now state control = some next) (service : String) (since : ℚ)
    (found : next.idleSince service = some since) :
    state.idleSince service = some since ∧ next.modes service = state.modes service := by
  cases control with
  | setMode other mode =>
    dsimp only [Platform.change] at changed
    split at changed
    · cases changed
      by_cases same : service = other
      · rw [same] at found
        change Function.update state.idleSince other none other = some since at found
        rw [Function.update_self] at found
        cases found
      · change Function.update state.idleSince other none service = some since at found
        rw [Function.update_of_ne same] at found
        exact ⟨found, Function.update_of_ne same ..⟩
    · cases changed
  | profile profile =>
    cases changed
    cases found
  | demand other source =>
    dsimp only [Platform.change] at changed
    split at changed <;> cases changed
    exact ⟨found, rfl⟩
  | setRetention other seconds =>
    dsimp only [Platform.change] at changed
    split at changed <;> cases changed
    exact ⟨found, rfl⟩
  | _ =>
    cases changed
    exact ⟨found, rfl⟩

theorem changed_keeps {control : Control} {now : ℚ} {writes : Bool} {world next : World}
    (changed : rt.changed control now writes world = some next) (service : String) (since : ℚ)
    (found : (rt.read next.stored).idleSince service = some since) :
    (rt.read world.stored).idleSince service = some since ∧
      (rt.read next.stored).mode service = (rt.read world.stored).mode service := by
  unfold Platform.changed at changed
  split at changed
  · rename_i state made
    split at changed
    · cases changed
      obtain ⟨before, modes⟩ := change_keeps made service since found
      exact ⟨before, read_of modes⟩
    · cases changed
  · cases changed

theorem Entered.demandTick {track : Track} (entered : Entered rt track) (paused : Bool) (now : ℚ)
    (scan : Scan) (writes : Bool) :
    Entered rt (rt.after track (rt.autoscalerDemandTick paused now scan writes track.world)) := by
  obtain ⟨looked, same | ⟨state, demands, written⟩⟩ := demandTick_demands rt paused now scan writes track.world
  · refine entered.kept looked fun service since found => ?_
    rw [same] at found ⊢
    exact ⟨found, rfl⟩
  · refine entered.kept looked fun service since found => ?_
    rw [written] at found ⊢
    have before : (rt.read track.world.stored).idleSince service = some since := by
      have own : state.idleSince service = some since := found
      rwa [demands] at own
    exact ⟨before, read_of (by rw [demands])⟩

namespace Round

variable (rt : Platform) (round : Round)

def Fresh : Prop := ∀ service, round.sight.Idle service → round.sight.state.mode service = .dynamic →
  round.stale service = false

def SeenIdle (service : String) (seconds : Int) : Prop :=
  ∃ time, time ≤ round.sight.look.now - seconds ∧ Seen (round.earlier ++ [round.sight]) service time

/-- The stop of a map, after others, is one of those that the settings allow. -/
structure Allows (earlier : List Stop) (stop : Stop) : Prop where
  empty : round.sight.look.counts stop.service = 0
  optional : round.sight.state.mode stop.service ≠ .alwaysOn
  why : round.sight.state.mode stop.service = .disabled ∨ (round.sight.state.mode stop.service = .dynamic ∧
      round.sight.state.demanded stop.service round.sight.look.now = false ∧
      round.SeenIdle stop.service (rt.retentionSeconds round.sight.state stop.service)) ∨
    round.sight.Beyond rt stop.service ∨
    (round.sight.Kept rt stop.service ∧ 0 < round.sight.state.minAvailableMemoryBytes ∧
      round.sight.look.memory (pressed earlier) < round.sight.state.minAvailableMemoryBytes)

def Succeeds : Prop := ∃ progress, rt.reconcile round.sight.look round.sight.state = .ok progress ∧
    ∀ stop ∈ progress.issued, round.sight.look.acts stop.service = some true

def running : List String := rt.GAME_MAP_SERVICES.filter fun service =>
  decide (round.sight.Idle service ∧ round.sight.state.mode service = .dynamic ∧
    ∀ stop ∈ round.issued, stop.service ≠ service)

def Bounded : Prop := round.Succeeds rt → 0 < round.sight.state.maxWarmDynamicMaps →
  (round.running rt).length ≤ round.sight.state.maxWarmDynamicMaps

end Round

theorem clamp_low (low high value : Int) : low ≤ clamp low high value := le_max_left _ _

theorem retention_positive (stored : Option State) (service : String) :
    60 ≤ rt.retentionSeconds (rt.read stored) service := by
  have general : 60 ≤ orInt (rt.read stored).retentionSeconds rt.IDLE_SECONDS_DEFAULT := by
    have low : 60 ≤ (rt.read stored).retentionSeconds := clamp_low ..
    unfold orInt
    split
    · omega
    · exact low
  unfold Platform.retentionSeconds orInt
  split
  · exact general
  · rename_i own
    cases stored_ : (rt.read stored).retentionByService service with
    | none =>
      rw [stored_] at own
      exact absurd rfl own
    | some seconds =>
      change (if service ∈ rt.GAME_MAP_SERVICES then _ else none) = some seconds at stored_
      split at stored_
      · obtain ⟨given, -, rfl⟩ := Option.map_eq_some_iff.mp stored_
        exact clamp_low ..
      · cases stored_

theorem Justified.idle {earlier : List Stop} {stop : Stop}
    (why : Justified rt sight earlier stop) : sight.Idle stop.service := by
  cases why with
  | looped why => exact why.idle
  | budget _ beyond => exact beyond.1.1
  | memory _ kept _ _ => exact kept.1

theorem Entered.allows {track : Track} (entered : Entered rt track)
    {issued : List Stop} (demands : Demands (rt.read track.world.stored) sight.state)
    (fresh : Round.Fresh ⟨track.sights, sight, track.stale, issued⟩) {earlier : List Stop}
    {stop : Stop} (why : Justified rt sight earlier stop) :
    Round.Allows rt ⟨track.sights, sight, track.stale, issued⟩ earlier stop := by
  have idle := why.idle
  have ways : sight.state.mode stop.service = .disabled ∨ (sight.state.mode stop.service = .dynamic ∧
      sight.Expired rt stop.service) ∨ sight.Beyond rt stop.service ∨
      (sight.Kept rt stop.service ∧ 0 < sight.state.minAvailableMemoryBytes ∧
        sight.look.memory (pressed earlier) < sight.state.minAvailableMemoryBytes) := by
    cases why with
    | looped why =>
      rcases why.why with ⟨-, off⟩ | ⟨-, dynamic, expired⟩
      · exact .inl off
      · exact .inr (.inl ⟨dynamic, expired⟩)
    | budget _ beyond => exact .inr (.inr (.inl beyond))
    | memory _ kept minimum low => exact .inr (.inr (.inr ⟨kept, minimum, low⟩))
  refine ⟨idle.2.1, fun on => ?_, ways.imp_right fun ways => ways.imp_left fun ways => ?_⟩
  · rcases ways with off | ⟨dynamic, -⟩ | beyond | kept
    · exact Mode.noConfusion (on.symm.trans off)
    · exact Mode.noConfusion (on.symm.trans dynamic)
    · exact Mode.noConfusion (on.symm.trans beyond.1.2.1)
    · exact Mode.noConfusion (on.symm.trans kept.1.2.1)
  · obtain ⟨dynamic, expired⟩ := ways
    refine ⟨dynamic, idle.2.2, ?_⟩
    have minute : 60 ≤ rt.retentionSeconds sight.state stop.service := by
      rw [demands]
      exact retention_positive track.world.stored stop.service
    unfold Sight.Expired Sight.idleSince at expired
    cases entry : sight.state.idleSince stop.service with
    | none =>
      rw [entry, Option.getD_none, sub_self] at expired
      have := Int.cast_nonpos.mp expired
      omega
    | some since =>
      rw [entry, Option.getD_some] at expired
      have stored : (rt.read track.world.stored).idleSince stop.service = some since := by
        rwa [demands] at entry
      have mode : (rt.read track.world.stored).mode stop.service = .dynamic := by
        rwa [demands] at dynamic
      have sound := fresh stop.service idle dynamic
      refine ⟨since, by linarith, ?_⟩
      rcases entered stop.service since stored mode with stale | seen
      · exact absurd (sound.symm.trans stale) Bool.false_ne_true
      · exact seen.snoc idle

/-- No more idle dynamic maps than the budget keep running. -/
theorem settled_bounded {round : Round} {progress : Progress}
    (settled : Settled rt round.sight progress) (issued : round.issued = progress.issued)
    (limited : 0 < round.sight.state.maxWarmDynamicMaps) :
    (round.running rt).length ≤ round.sight.state.maxWarmDynamicMaps := by
  have subset : round.running rt ⊆ ((round.sight.ranked rt).drop
      (Platform.excess round.sight.state (round.sight.ranked rt))).map Warm.service := by
    intro service member
    obtain ⟨listed, runs⟩ := mem_filter.mp member
    obtain ⟨idle, dynamic, stays⟩ := of_decide_eq_true runs
    have on : ¬ ∃ stop ∈ progress.issued, stop.service = service := by
      rintro ⟨stop, inside, same⟩
      exact stays stop (issued ▸ inside) same
    have kept : service ∈ round.sight.kept rt := mem_filter.mpr ⟨listed, decide_eq_true
      ⟨idle, dynamic, fun expired => on (settled.due service listed idle dynamic expired)⟩⟩
    have ranked : round.sight.warm service ∈ round.sight.ranked rt := mem_ranked.mpr ⟨kept, rfl⟩
    rw [← take_append_drop (Platform.excess round.sight.state (round.sight.ranked rt))
      (round.sight.ranked rt)] at ranked
    rcases mem_append.mp ranked with surplus | left
    · exact absurd (settled.surplus _ surplus) on
    · exact mem_map.mpr ⟨_, left, rfl⟩
  have nodup : (round.running rt).Nodup := rt.distinct.filter _
  have count := (subperm_of_subset nodup subset).length_le
  rw [length_map, length_drop] at count
  unfold Platform.excess at count
  rw [if_pos limited] at count
  omega

structure Sound (rt : Platform) (round : Round) : Prop where
  allows : round.Fresh → ∀ earlier stop later, round.issued = earlier ++ stop :: later →
    round.Allows rt earlier stop
  bounded : round.Bounded rt

theorem Entered.sound {track : Track} (entered : Entered rt track)
    (ticked : Ticked rt track.world.stored done) (looked : done.looked = some sight) :
    Sound rt ⟨track.sights, sight, track.stale, done.issued⟩ := by
  cases ticked with
  | skipped none_ _ =>
    rw [none_] at looked
    cases looked
  | reconciled own same demands recorded =>
    cases looked.symm.trans same
    have ends : Ends (Settled rt sight) _ _ := reconcile_ends
    cases outcome : rt.reconcile sight.look sight.state with
    | error progress =>
      rw [outcome] at recorded ends
      have issued : Issued rt sight done.issued := recorded.1 ▸ ends
      refine ⟨fun fresh earlier stop later split =>
        entered.allows demands fresh (issued.split earlier stop later split), fun succeeds => ?_⟩
      obtain ⟨other, fine, -⟩ := succeeds
      cases outcome.symm.trans fine
    | ok progress =>
      rw [outcome] at recorded ends
      have settled : Settled rt sight progress := ends
      have issued : Issued rt sight done.issued := recorded.1 ▸ settled.issued
      exact ⟨fun fresh earlier stop later split =>
          entered.allows demands fresh (issued.split earlier stop later split),
        fun _ limited => settled_bounded settled recorded.1 limited⟩

structure Tracked (rt : Platform) (track : Track) : Prop where
  entered : Entered rt track
  sound : ∀ round ∈ track.rounds, Sound rt round

theorem Tracked.tick {track : Track} (tracked : Tracked rt track)
    (ticked : Ticked rt track.world.stored done) : Tracked rt (rt.after track done) where
  entered := tracked.entered.tick ticked
  sound round member := by
    rcases mem_append.mp member with before | new
    · exact tracked.sound round before
    · obtain ⟨sight, looked, rfl⟩ := mem_map.mp new
      exact tracked.entered.sound ticked (Option.mem_toList.mp looked)

theorem Tracked.kept {track : Track} (tracked : Tracked rt track)
    (looked : done.looked = none) (entered : Entered rt (rt.after track done)) :
    Tracked rt (rt.after track done) where
  entered := entered
  sound round member := by
    rw [Platform.after, looked] at member
    exact tracked.sound round (by simpa using member)

theorem track_tracked {track : Track} (tracked : Tracked rt track) (call : Call) :
    Tracked rt (rt.track track call) := by
  cases call with
  | tick force collectDemand readings =>
    exact tracked.tick (tick_ticked force collectDemand readings track.world)
  | demandTick paused now scan writes =>
    exact tracked.kept (demandTick_demands rt paused now scan writes track.world).1
      (tracked.entered.demandTick paused now scan writes)
  | control control now writes readings =>
    unfold Platform.track
    dsimp only
    split
    · rename_i world changed
      have moved : Tracked rt (rt.after track (unchanged world true)) :=
        tracked.kept rfl (tracked.entered.kept rfl (changed_keeps changed))
      split
      · exact moved.tick (tick_ticked _ true readings world)
      · exact moved
    · exact tracked
  | restart =>
    exact tracked.kept rfl (tracked.entered.kept rfl fun _ _ found => ⟨found, rfl⟩)

theorem run_tracked (rt : Platform) (calls : List Call) : Tracked rt (rt.run calls) := by
  unfold Platform.run
  have starts : Tracked rt Platform.Track.start := by
    refine ⟨fun service since found _ => ?_, fun _ member => absurd member not_mem_nil⟩
    have none_ : rt.defaultState.idleSince service = none := by
      unfold Platform.defaultState
      dsimp only
      split <;> rfl
    cases none_.symm.trans found
  generalize Platform.Track.start = track at starts ⊢
  induction calls generalizing track with
  | nil => exact starts
  | cons call rest ih => exact ih _ (track_tracked starts call)

/-- Ticks that find no stale entry stop only what the settings allow, and no tick whose actions all
succeed leaves more idle dynamic maps running than the budget. -/
theorem stops_allowed (rt : Platform) (calls : List Call) (fresh : ∀ round ∈ (rt.run calls).rounds, round.Fresh) :
    ∀ round ∈ (rt.run calls).rounds, (∀ earlier stop later, round.issued = earlier ++ stop :: later →
        round.Allows rt earlier stop) ∧ round.Bounded rt := by
  intro round member
  have sound := (run_tracked rt calls).sound round member
  exact ⟨sound.allows (fresh round member), sound.bounded⟩

def oneMap : Platform where
  GAME_MAP_SERVICES := ["deep-desert"]
  distinct := nodup_singleton _
  ALWAYS_ON_SERVICES := []
  SIMULATION_REQUIRED_SERVICES := []
  DEFAULT_MODE := .dynamic
  ENABLED_DEFAULT := false
  PROFILE_DEFAULT := .custom
  IDLE_SECONDS_DEFAULT := 300
  DEMAND_TTL_SECONDS_DEFAULT := 900
  BALANCED_RETENTION_SECONDS := 900
  BALANCED_MAX_WARM_MAPS := 4
  BALANCED_MIN_AVAILABLE_MEMORY_BYTES := 0
  BALANCED_RETENTION_BY_SERVICE _ := none
  sha1 text := text
  patterns := []

def looks (now : ℚ) (running : Bool) : Call :=
  .tick true true
    { paused := false
      now := now
      inventory := some fun service => if service = "deep-desert" then some running else none
      scan := ⟨none, none, fun _ => none⟩
      counts := some fun _ => 0
      acts := fun _ => some true
      memory := fun _ => 0
      writes := true }

def idleThroughout : List Call := [looks 1000 true, looks 1310 true]

theorem idleThroughout_inventory : (oneMap.run idleThroughout).rounds.map (fun round => round.sight.look.inventory) =
      List.replicate 2 fun service => if service = "deep-desert" then some true else none := by
  with_unfolding_all rfl

theorem idleThroughout_stale : (oneMap.run idleThroughout).rounds.map (fun round => round.stale "deep-desert") =
      List.replicate 2 false := by
  decide +kernel

theorem idleThroughout_fresh : ∀ round ∈ (oneMap.run idleThroughout).rounds, round.Fresh := by
  intro round member service idle _
  have inventory := mem_map_of_mem (f := fun round : Round => round.sight.look.inventory) member
  have stale := mem_map_of_mem (f := fun round : Round => round.stale "deep-desert") member
  rw [idleThroughout_inventory] at inventory
  rw [idleThroughout_stale] at stale
  have found := idle.1
  rw [eq_of_mem_replicate inventory] at found
  beta_reduce at found
  split at found
  · rename_i same
    rw [same]
    exact eq_of_mem_replicate stale
  · cases found

/-- It is stopped, and the stop is allowed. -/
theorem idleThroughout_stops : (oneMap.run idleThroughout).rounds.map Round.issued =
      [[], [⟨"deep-desert", .retentionExpired⟩]] ∧
    ∀ round ∈ (oneMap.run idleThroughout).rounds, (∀ earlier stop later, round.issued = earlier ++ stop :: later →
        round.Allows oneMap earlier stop) ∧ round.Bounded oneMap :=
  ⟨by decide +kernel, stops_allowed oneMap idleThroughout idleThroughout_fresh⟩

def startedAgain : List Call := [looks 1000 true, looks 1030 false, looks 1450 true]

structure Shown where
  issued : List Stop
  sights : List (ℚ × Bool)
  mode : Mode
  (retention maxWarm minimum : Int)
  deriving DecidableEq

def Round.shown (round : Round) : Shown where
  issued := round.issued
  sights := (round.earlier ++ [round.sight]).map fun sight =>
    (sight.look.now, decide (sight.Idle "deep-desert"))
  mode := round.sight.state.mode "deep-desert"
  retention := oneMap.retentionSeconds round.sight.state "deep-desert"
  maxWarm := round.sight.state.maxWarmDynamicMaps
  minimum := round.sight.state.minAvailableMemoryBytes

theorem startedAgain_shown : (oneMap.run startedAgain).rounds.map Round.shown =
    [⟨[], [(1000, true)], .dynamic, 300, 0, 0⟩, ⟨[], [(1000, true), (1030, false)], .dynamic, 300, 0, 0⟩,
      ⟨[⟨"deep-desert", .retentionExpired⟩], [(1000, true), (1030, false), (1450, true)], .dynamic, 300, 0, 0⟩] := by
  decide +kernel

/-- The map is stopped as it is found, although it was just started. -/
theorem startedAgain_stops : ¬ ∀ round ∈ (oneMap.run startedAgain).rounds, ∀ earlier stop later,
    round.issued = earlier ++ stop :: later → round.Allows oneMap earlier stop := by
  intro allowed
  obtain ⟨first, second, third, rounds⟩ : ∃ first second third,
      (oneMap.run startedAgain).rounds = [first, second, third] := by
    have length := congrArg List.length startedAgain_shown
    rw [length_map] at length
    exact length_eq_three.mp length
  have shown := startedAgain_shown
  rw [rounds] at shown allowed
  obtain ⟨-, -, last⟩ : _ ∧ _ ∧ third.shown = _ := by simpa using shown
  have issued := congrArg Shown.issued last
  have sights := congrArg Shown.sights last
  have allows := allowed third (by simp) [] _ [] issued
  rcases allows.why with off | ⟨-, -, time, long, seen⟩ | beyond | memory
  · cases off.symm.trans (congrArg Shown.mode last)
  · rw [show oneMap.retentionSeconds third.sight.state "deep-desert" = 300 from
      congrArg Shown.retention last] at long
    obtain ⟨before, begins, after, split, start, idle⟩ := seen
    change ((third.earlier ++ [third.sight]).map fun sight =>
      (sight.look.now, decide (sight.Idle "deep-desert"))) = _ at sights
    have now : third.sight.look.now = 1450 := by
      have ends := congrArg List.getLast? sights
      simpa using congrArg (Option.map Prod.fst) ends
    rw [split, map_append, map_cons] at sights
    have idles : ∀ sight ∈ begins :: after, decide (sight.Idle "deep-desert") = true :=
      fun sight member => decide_eq_true (idle sight member)
    rw [now] at long
    -- The ticks seen idle would begin at the first, which the second rules out, or at the third.
    match before, after with
    | [], [] => simp at sights
    | [], second :: rest =>
      have busy := idles second (mem_cons_of_mem _ mem_cons_self)
      simp [busy] at sights
    | [_], rest =>
      have busy := idles begins mem_cons_self
      simp [busy] at sights
    | [_, _], rest =>
      have late : begins.look.now = 1450 := by
        simp at sights
        exact sights.2.2.1.1
      rw [← start, late] at long
      norm_num at long
    | _ :: _ :: _ :: _, rest => simp at sights
  · have limited : 0 < third.shown.maxWarm := beyond.2.1
    rw [last] at limited
    exact absurd limited (lt_irrefl _)
  · have limited : 0 < third.shown.minimum := memory.2.1
    rw [last] at limited
    exact absurd limited (lt_irrefl _)

end Dash.Autoscaler
