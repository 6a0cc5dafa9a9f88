import Mathlib.Data.List.Sort
import Mathlib.Data.Prod.Lex
import Mathlib.Data.Rat.Floor
import Mathlib.Data.String.Basic

/-! The autoscaler's state file (how it is read, its profiles and its modes), the scan of the director's log
for travel requests, and the ticks.
-/

set_option autoImplicit false

namespace Dash.Autoscaler

inductive Mode where
  | alwaysOn | dynamic | disabled
  deriving DecidableEq

inductive Profile where
  | minimumFootprint | balanced | adaptive | fullWarm | custom
  deriving DecidableEq

structure Event where
  (id map : String)
  count : Nat
  deriving DecidableEq

structure Counted where
  event : Event
  services : List String
  time : ℚ

structure State where
  enabled : Bool
  profile : Profile
  retentionSeconds : Int
  retentionByService : String → Option Int
  (maxWarmDynamicMaps minAvailableMemoryBytes demandTtlSeconds : Int)
  modes : String → Option Mode
  idleSince : String → Option ℚ
  demand : String → Option ℚ
  demandSource : String → Option String
  demandEvents : String → Option ℚ
  lastActivity : String → Option ℚ
  demandCount : String → Nat
  lastEvictionReason : String → Option String
  /-- The requests counted in this state; the file has no such list. -/
  counted : List Counted

/-- The project's map services and the settings of the environment. -/
structure Platform where
  GAME_MAP_SERVICES : List String
  distinct : GAME_MAP_SERVICES.Nodup
  ALWAYS_ON_SERVICES : List String
  SIMULATION_REQUIRED_SERVICES : List String
  DEFAULT_MODE : Mode
  ENABLED_DEFAULT : Bool
  PROFILE_DEFAULT : Profile
  IDLE_SECONDS_DEFAULT : Int
  DEMAND_TTL_SECONDS_DEFAULT : Int
  BALANCED_RETENTION_SECONDS : Int
  BALANCED_MAX_WARM_MAPS : Int
  BALANCED_MIN_AVAILABLE_MEMORY_BYTES : Int
  BALANCED_RETENTION_BY_SERVICE : String → Option Int
  sha1 : String → String
  /-- The three patterns of travel requests: the map and the count. -/
  patterns : List (String → Option (String × Nat))

def clamp (low high value : Int) : Int := max low (min value high)

def orInt (value other : Int) : Int := if value = 0 then other else value

/-- `value or other`, of a time that may be missing. -/
def orTime (value : Option ℚ) (other : ℚ) : ℚ :=
  match value with
  | some time => if time = 0 then other else time
  | none => other

namespace Platform

variable (rt : Platform)

/-- `autoscaler_default_mode` -/
def defaultMode (service : String) : Mode :=
  if service ∈ rt.ALWAYS_ON_SERVICES ∨ service ∈ rt.SIMULATION_REQUIRED_SERVICES then .alwaysOn
  else rt.DEFAULT_MODE

def profileModes (service : String) : Option Mode :=
  if service ∈ rt.GAME_MAP_SERVICES then
    some (if service ∈ rt.ALWAYS_ON_SERVICES ∨ service ∈ rt.SIMULATION_REQUIRED_SERVICES then
      .alwaysOn else .dynamic)
  else none

/-- `autoscaler_apply_profile`: what the profile itself sets. -/
def profileSettings (profile : Profile) (state : State) : State :=
  match profile with
  | .fullWarm => { state with
      modes := fun service => if service ∈ rt.GAME_MAP_SERVICES then some .alwaysOn else none
      retentionSeconds := rt.IDLE_SECONDS_DEFAULT
      retentionByService := fun _ => none
      maxWarmDynamicMaps := 0
      minAvailableMemoryBytes := 0 }
  | .minimumFootprint => { state with
      modes := rt.profileModes
      retentionSeconds := rt.IDLE_SECONDS_DEFAULT
      retentionByService := fun _ => none
      maxWarmDynamicMaps := 0
      minAvailableMemoryBytes := 0 }
  | .balanced | .adaptive => { state with
      modes := rt.profileModes
      retentionSeconds := rt.BALANCED_RETENTION_SECONDS
      retentionByService := rt.BALANCED_RETENTION_BY_SERVICE
      maxWarmDynamicMaps := rt.BALANCED_MAX_WARM_MAPS
      minAvailableMemoryBytes := rt.BALANCED_MIN_AVAILABLE_MEMORY_BYTES }
  | .custom => state

/-- `autoscaler_apply_profile` -/
def applyProfile (profile : Profile) (state : State) : State :=
  { rt.profileSettings profile { state with enabled := true, profile := profile } with
    idleSince := fun _ => none
    demand := fun _ => none
    demandSource := fun _ => none }

/-- The state without a file. -/
def defaultState : State :=
  let state : State :=
    { enabled := rt.ENABLED_DEFAULT
      profile := rt.PROFILE_DEFAULT
      retentionSeconds := rt.IDLE_SECONDS_DEFAULT
      retentionByService := fun _ => none
      maxWarmDynamicMaps := 0
      minAvailableMemoryBytes := 0
      demandTtlSeconds := rt.DEMAND_TTL_SECONDS_DEFAULT
      modes := fun service =>
        if service ∈ rt.GAME_MAP_SERVICES then some (rt.defaultMode service) else none
      idleSince := fun _ => none
      demand := fun _ => none
      demandSource := fun _ => none
      demandEvents := fun _ => none
      lastActivity := fun _ => none
      demandCount := fun _ => 0
      lastEvictionReason := fun _ => none
      counted := [] }
  if rt.ENABLED_DEFAULT then rt.applyProfile rt.PROFILE_DEFAULT state else state

def readMode (modes : String → Option Mode) (service : String) : Option Mode :=
  if service ∈ rt.GAME_MAP_SERVICES then
    if service ∈ rt.SIMULATION_REQUIRED_SERVICES then some .alwaysOn
    else some ((modes service).getD (rt.defaultMode service))
  else modes service

/-- `read_autoscaler_state` -/
def read (stored : Option State) : State :=
  let state := stored.getD rt.defaultState
  { state with
    retentionSeconds := clamp 60 86400 (orInt state.retentionSeconds rt.IDLE_SECONDS_DEFAULT)
    maxWarmDynamicMaps := clamp 0 rt.GAME_MAP_SERVICES.length state.maxWarmDynamicMaps
    minAvailableMemoryBytes := clamp 0 (1024 ^ 4) state.minAvailableMemoryBytes
    demandTtlSeconds :=
      clamp 60 86400 (orInt state.demandTtlSeconds rt.DEMAND_TTL_SECONDS_DEFAULT)
    retentionByService := fun service =>
      if service ∈ rt.GAME_MAP_SERVICES then
        ((state.retentionByService service).filter fun seconds => 0 ≤ seconds).map (clamp 60 86400)
      else none
    modes := rt.readMode state.modes }

/-- `autoscaler_retention_seconds` -/
def retentionSeconds (state : State) (service : String) : Int :=
  orInt ((state.retentionByService service).getD 0) (orInt state.retentionSeconds rt.IDLE_SECONDS_DEFAULT)

end Platform

namespace State

variable (state : State) (service : String)

def mode : Mode := (state.modes service).getD .alwaysOn

def demanded (now : ℚ) : Bool :=
  match state.demand service with
  | some time => decide (0 < time ∧ now - time ≤ state.demandTtlSeconds)
  | none => false

def expireDemand (now : ℚ) : State :=
  let demand : String → Option ℚ := fun service =>
    (state.demand service).filter fun time => now - time ≤ state.demandTtlSeconds
  { state with
    demand := demand
    demandSource := fun service =>
      if (demand service).isSome then state.demandSource service else none }

end State

structure Line where
  time : ℚ
  text : String
  deriving DecidableEq

abbrev Inventory : Type := String → Option Bool

/-- What a call meets in a scan; `none` raises. -/
structure Scan where
  log : Option (List Line)
  inventory : Option Inventory
  partitions : Event → Option (List Int)

def lastLines (count : Nat) (lines : List Line) : List Line := lines.drop (lines.length - count)

def since (scanAt now : ℚ) : Option Int :=
  if 0 < scanAt ∧ scanAt ≤ now + 5 then some (max 0 (⌊scanAt⌋ - 1)) else none

def writtenSince (second : Option Int) (line : Line) : Bool :=
  match second with
  | some second => decide ((second : ℚ) ≤ line.time)
  | none => true

def fetched (log : List Line) (second : Option Int) : List Line :=
  lastLines 1000 (log.filter (writtenSince second))

namespace Platform

variable (rt : Platform)

def travel? (text : String) : Option Event :=
  match rt.patterns.findSome? fun pattern => pattern text with
  | some (map, count) => if count = 0 then none else some ⟨rt.sha1 text, map, count⟩
  | none => none

/-- `parse_director_travel_demand`, after the events that were seen. -/
def parseLines : List String → List Line → List Event
  | _, [] => []
  | seen, line :: rest =>
    match rt.travel? line.text with
    | some event =>
      if event.id ∈ seen then parseLines seen rest else event :: parseLines (event.id :: seen) rest
    | none => parseLines seen rest

def parseDirectorTravelDemand (lines : List Line) : List Event := rt.parseLines [] lines

def dynamicServices (state : State) (partitions : List Int) : List String :=
  partitions.filterMap fun (partition : Int) =>
    if 1 ≤ partition ∧ partition ≤ rt.GAME_MAP_SERVICES.length then
      (rt.GAME_MAP_SERVICES[(partition - 1).toNat]?).filter fun service =>
        state.mode service = .dynamic
    else none

def selected (state : State) (inventory : Inventory) (event : Event) (partitions : List Int) : List String :=
  let services := rt.dynamicServices state partitions
  let running := fun service => decide (inventory service = some true)
  (services.filter (fun service => !running service) ++ services.filter running).take (max 1 event.count)

end Platform

namespace State

variable (state : State)

def demandService (now : ℚ) (service : String) : State :=
  { state with
    demand := Function.update state.demand service (some now)
    demandSource := Function.update state.demandSource service (some "director-travel")
    lastActivity := Function.update state.lastActivity service (some now)
    demandCount := Function.update state.demandCount service (state.demandCount service + 1)
    lastEvictionReason := Function.update state.lastEvictionReason service none }

def demandServices (now : ℚ) (services : List String) : State :=
  services.foldl (fun state service => state.demandService now service) state

def enter (now : ℚ) (event : Event) (services : List String) : State :=
  let demanded := state.demandServices now services
  { demanded with
    demandEvents := Function.update demanded.demandEvents event.id (some now)
    counted := demanded.counted ++ [⟨event, services, now⟩] }

def expireEvents (now : ℚ) : State :=
  { state with
    demandEvents := fun id => (state.demandEvents id).filter fun time => now - time ≤ 86400 }

end State

namespace Platform

variable (rt : Platform)

def addEvents (now : ℚ) (inventory : Inventory) (partitions : Event → Option (List Int)) :
    List Event → State → Option State
  | [], state => some state
  | event :: rest, state =>
    match partitions event with
    | some ids =>
      addEvents now inventory partitions rest (state.enter now event (rt.selected state inventory event ids))
    | none => none

def newEvents (state : State) (lines : List Line) : List Event :=
  (rt.parseDirectorTravelDemand lines).filter fun event => (state.demandEvents event.id).isNone

/-- `autoscaler_collect_travel_demand` after the log was fetched; `none` raises. -/
def collect (state : State) (now : ℚ) (lines : List Line) (scan : Scan) : Option State :=
  match rt.newEvents state lines with
  | [] => some (state.expireEvents now)
  | event :: rest =>
    match scan.inventory with
    | some inventory =>
      (rt.addEvents now inventory scan.partitions (event :: rest) state).map fun state =>
        state.expireEvents now
    | none => none

end Platform

inductive Reason where
  | disabled | retentionExpired | warmBudgetLru | memoryPressureLru
  deriving DecidableEq

def Reason.text : Reason → String
  | disabled => "disabled"
  | retentionExpired => "retention-expired"
  | warmBudgetLru => "warm-budget-lru"
  | memoryPressureLru => "memory-pressure-lru"

structure Stop where
  service : String
  reason : Reason
  deriving DecidableEq

structure Warm where
  service : String
  (lastActivity idleSince : ℚ)

/-- What a tick reads of the world, and how its actions end; `none` raises. -/
structure Readings where
  paused : Bool
  now : ℚ
  inventory : Option Inventory
  scan : Scan
  counts : Option (String → Nat)
  /-- The `ok` of the action on a service. -/
  acts : String → Option Bool
  /-- The readings of the available memory, in order. -/
  memory : Nat → Int
  /-- Whether the state, if it changed, could be written. -/
  writes : Bool

structure Look where
  now : ℚ
  inventory : Inventory
  counts : String → Nat
  acts : String → Option Bool
  memory : Nat → Int

structure Sight where
  look : Look
  state : State

structure Progress where
  state : State
  issued : List Stop
  warm : List Warm
  stopped : List String

/-- A tick's actions; an error is what it did before it raised. -/
abbrev Doing : Type := Except Progress Progress

namespace State

variable (state : State) (service : String)

def started : State :=
  { state with
    idleSince := Function.update state.idleSince service none
    lastEvictionReason := Function.update state.lastEvictionReason service none }

def visited (now : ℚ) : State :=
  { state with
    demand := Function.update state.demand service none
    demandSource := Function.update state.demandSource service none
    idleSince := Function.update state.idleSince service none
    lastActivity := Function.update state.lastActivity service (some now)
    lastEvictionReason := Function.update state.lastEvictionReason service none }

def needed : State := { state with idleSince := Function.update state.idleSince service none }

/-- `idleSince.setdefault(service, now)` -/
def idleFrom (now : ℚ) : State :=
  { state with
    idleSince :=
      Function.update state.idleSince service (some ((state.idleSince service).getD now)) }

def evicted (reason : Reason) : State :=
  { state with
    lastEvictionReason := Function.update state.lastEvictionReason service (some reason.text) }

end State

namespace Look

variable (look : Look)

/-- A stop is issued, and recorded when the action returns. -/
def stop (reason : Reason) (service : String) (progress : Progress) : Doing :=
  let issued := progress.issued ++ [⟨service, reason⟩]
  match look.acts service with
  | some _ => .ok
      { progress with
        state := progress.state.evicted service reason
        issued := issued
        stopped := service :: progress.stopped }
  | none => .error { progress with issued := issued }

end Look

namespace Platform

variable (rt : Platform)

/-- A map that runs without players and without a need. -/
def idle (look : Look) (service : String) (progress : Progress) : Doing :=
  let since := (progress.state.idleSince service).getD look.now
  let state := progress.state.idleFrom service look.now
  let mode := state.mode service
  if mode = .disabled then look.stop .disabled service { progress with state := state }
  else if (rt.retentionSeconds state service : ℚ) ≤ look.now - since then
    look.stop .retentionExpired service { progress with state := state }
  else if mode = .dynamic then
    .ok { progress with
      state := state
      warm := progress.warm ++ [⟨service, orTime (state.lastActivity service) since, since⟩] }
  else .ok { progress with state := state }

def visit (look : Look) (progress : Progress) (service : String) : Doing :=
  match look.inventory service with
  | none => .ok progress
  | some running =>
    let state := progress.state
    let mode := state.mode service
    let demanded := state.demanded service look.now
    if mode = .disabled ∧ 0 < look.counts service then .ok progress
    else if running = false then
      if mode = .alwaysOn ∨ (mode = .dynamic ∧ demanded = true) then
        match look.acts service with
        | some _ => .ok { progress with state := state.started service }
        | none => .error progress
      else .ok progress
    else if 0 < look.counts service then .ok { progress with state := state.visited service look.now }
    else if mode = .alwaysOn ∨ demanded = true then .ok { progress with state := state.needed service }
    else rt.idle look service progress

def older (first second : Warm) : Prop :=
  toLex (first.lastActivity, toLex (first.idleSince, first.service)) ≤
    toLex (second.lastActivity, toLex (second.idleSince, second.service))

instance : DecidableRel older := fun _ _ => inferInstanceAs (Decidable (_ ≤ _))

def excess (state : State) (warm : List Warm) : Nat :=
  if 0 < state.maxWarmDynamicMaps then (warm.length - state.maxWarmDynamicMaps).toNat else 0

def relieve (look : Look) (minimum : Int) : Nat → List Warm → Progress → Doing
  | _, [], progress => .ok progress
  | reading, candidate :: rest, progress =>
    if minimum ≤ look.memory reading then .ok progress
    else if candidate.service ∈ progress.stopped then relieve look minimum reading rest progress
    else do
      let progress ← look.stop .memoryPressureLru candidate.service progress
      relieve look minimum (reading + 1) rest progress

def evict (look : Look) (progress : Progress) : Doing := do
  let warm := progress.warm.insertionSort older
  let progress ← (warm.take (excess progress.state warm)).foldlM
    (fun progress candidate => look.stop .warmBudgetLru candidate.service progress) progress
  let minimum := progress.state.minAvailableMemoryBytes
  let progress ←
    if 0 < minimum ∧ 0 < look.memory 0 then relieve look minimum 0 warm progress else .ok progress
  .ok { progress with state := progress.state.expireDemand look.now }

def reconcile (look : Look) (state : State) : Doing := do
  let progress ← rt.GAME_MAP_SERVICES.foldlM (rt.visit look) ⟨state, [], [], []⟩
  evict look progress

end Platform

/-- The state file, and the time of the last scan, which a restart forgets. -/
structure World where
  stored : Option State
  scanAt : ℚ

structure Done where
  world : World
  /-- It returned without an error. -/
  finished : Bool
  /-- The lines of its scan. -/
  lines : Option (List Line)
  looked : Option Sight
  issued : List Stop

def unchanged (world : World) (finished : Bool) : Done := ⟨world, finished, none, none, []⟩

namespace Platform

variable (rt : Platform)

def scanned (scan : Scan) (now : ℚ) (world : World) (state : State) : Option (List Line) × Option State × World :=
  match scan.log with
  | some log =>
    let lines := fetched log (since world.scanAt now)
    (some lines, rt.collect state now lines scan, { world with scanAt := now })
  | none => (none, some state, world)

def saved (writes : Bool) (state : State) (world : World) : World :=
  if writes then { world with stored := some state } else world

/-- The part of `autoscaler_tick` after the scan. -/
def reconciled (readings : Readings) (inventory : Inventory) (lines : Option (List Line))
    (state : State) (world : World) : Done :=
  match readings.counts with
  | none => { unchanged world false with lines := lines }
  | some counts =>
    let look : Look := ⟨readings.now, inventory, counts, readings.acts, readings.memory⟩
    match rt.reconcile look state with
    | .ok progress => ⟨saved readings.writes progress.state world, readings.writes, lines,
        some ⟨look, state⟩, progress.issued⟩
    | .error progress => ⟨world, false, lines, some ⟨look, state⟩, progress.issued⟩

/-- `autoscaler_tick`; what it reads comes with the inventory of the scan. -/
def autoscalerTick (force collectDemand : Bool) (readings : Readings) (world : World) : Done :=
  let state := rt.read world.stored
  if readings.paused = true ∨ (state.enabled = false ∧ force = false) then unchanged world true
  else
    match readings.inventory with
    | none => unchanged world false
    | some inventory =>
      if collectDemand then
        match rt.scanned { readings.scan with inventory := some inventory } readings.now world state with
        | (lines, some state, world) => rt.reconciled readings inventory lines state world
        | (lines, none, world) => { unchanged world false with lines := lines }
      else rt.reconciled readings inventory none state world

def autoscalerDemandTick (paused : Bool) (now : ℚ) (scan : Scan) (writes : Bool) (world : World) : Done :=
  let state := rt.read world.stored
  if paused = true ∨ state.enabled = false then unchanged world true
  else
    match rt.scanned scan now world state with
    | (lines, some state, world) => { unchanged (saved writes state world) writes with lines := lines }
    | (lines, none, world) => { unchanged world false with lines := lines }

end Platform

inductive Control where
  | start
  | restart
  | stop
  | setMode (service : String) (mode : Mode)
  | demand (service : String) (source : String)
  | settings (retention maxWarm minAvailableMemoryBytes demandTtl : Int)
  | setRetention (service : String) (seconds : Option Int)
  | profile (profile : Profile)
  | tick
  | reconcile

/-- Whether the tick after a change is forced; `none` runs none. -/
def Control.tick? : Control → Option Bool
  | .restart | .profile _ | .reconcile => some true
  | .setMode .. | .demand .. | .settings .. | .setRetention .. | .tick => some false
  | .start | .stop => none

namespace Platform

variable (rt : Platform)

/-- The change of `autoscaler_control`; `none` raises. -/
def change (now : ℚ) (state : State) : Control → Option State
  | .start | .restart => some { state with enabled := true }
  | .stop => some { state with enabled := false }
  | .setMode service mode =>
    if service ∈ rt.GAME_MAP_SERVICES then
      some { state with
        modes := Function.update state.modes service (some mode)
        profile := .custom
        idleSince := Function.update state.idleSince service none
        demand := Function.update state.demand service none
        demandSource := Function.update state.demandSource service none }
    else none
  | .demand service source =>
    if service ∈ rt.GAME_MAP_SERVICES then
      some { state with
        demand := Function.update state.demand service (some now)
        demandSource := Function.update state.demandSource service
          (some (if source = "scheduled-prewarm" then source else "operator"))
        lastActivity := Function.update state.lastActivity service (some now)
        demandCount := Function.update state.demandCount service (state.demandCount service + 1) }
    else none
  | .settings retention maxWarm minAvailableMemoryBytes demandTtl =>
    some { state with
      retentionSeconds := clamp 60 86400 retention
      maxWarmDynamicMaps := clamp 0 rt.GAME_MAP_SERVICES.length maxWarm
      minAvailableMemoryBytes := clamp 0 (1024 ^ 4) minAvailableMemoryBytes
      demandTtlSeconds := clamp 60 86400 demandTtl
      profile := .custom }
  | .setRetention service seconds =>
    if service ∈ rt.GAME_MAP_SERVICES then
      some { state with
        retentionByService :=
          Function.update state.retentionByService service (seconds.map (clamp 60 86400))
        profile := .custom }
    else none
  | .profile profile => some (rt.applyProfile profile state)
  | .tick | .reconcile => some state

/-- The part of `autoscaler_control` under the lock; `none` raises. -/
def changed (control : Control) (now : ℚ) (writes : Bool) (world : World) : Option World :=
  match rt.change now (rt.read world.stored) control with
  | some state => if writes then some (saved true state world) else none
  | none => none

/-- `autoscaler_control`: the change, and the tick that follows it. -/
def autoscalerControl (control : Control) (now : ℚ) (writes : Bool) (readings : Readings) (world : World) : Done :=
  match rt.changed control now writes world with
  | some world =>
    match control.tick? with
    | some force => rt.autoscalerTick force true readings world
    | none => unchanged world true
  | none => unchanged world false

end Platform

inductive Call where
  | tick (force collectDemand : Bool) (readings : Readings)
  | demandTick (paused : Bool) (now : ℚ) (scan : Scan) (writes : Bool)
  | control (control : Control) (now : ℚ) (writes : Bool) (readings : Readings)
  | restart

def Platform.perform (rt : Platform) (world : World) : Call → Done
  | .tick force collectDemand readings => rt.autoscalerTick force collectDemand readings world
  | .demandTick paused now scan writes => rt.autoscalerDemandTick paused now scan writes world
  | .control control now writes readings => rt.autoscalerControl control now writes readings world
  | .restart => unchanged { world with scanAt := 0 } true

end Dash.Autoscaler
