import Dash.Foundation.Table
import Mathlib.Data.List.Sort

/-! The memory balancer: it moves one GiB at a time between running maps, and remembers the limits
it has to give back.

A limit is the one the container's statistics show. The float arithmetic of the thresholds is a
parameter. An update of a container that fails changes nothing.
-/

set_option autoImplicit false

namespace Dash.Balancer

def MIB : Int := 1024 * 1024

def GIB : Int := 1024 * MIB

structure Platform (P : Type) where
  /-- `round(usage / limit * 100, 1)` -/
  percent : Int → Int → P
  atLeast90 : P → Bool
  atMost70 : P → Bool
  le : P → P → Bool
  /-- `used / limit * 100 <= 80` -/
  atMost80 : Int → Int → Bool
  /-- `int(used * 1.25)` -/
  scaled : Int → Int
  /-- What the statistics show after a limit of 0 was asked for, from the limit before. -/
  unset : Int → Int

structure Running where
  (service containerId : String)
  usage : Option Int

/-- What Docker answers for the running maps of one call. -/
structure Reading where
  maps : List Running
  distinct : (maps.map Running.containerId).Nodup

/-- `memory-balancer.json` -/
structure State where
  enabled : Bool
  baselineLimits : List (String × Int)

structure Machine where
  limits : String → Int
  state : State

/-- A row of `map_memory_rows` with statistics. -/
structure Row where
  (service containerId : String)
  (memoryUsageBytes memoryLimitBytes : Int)

inductive MemoryText where
  | unset
  | bytes (amount : Int)
  | malformed

inductive Report where
  | skipped
  | monitoring
  | noDonor (target : Row)
  | moved (donor target : Row)
  | failed

structure Faults where
  (target donor undo : Bool)

def State.baseline? (state : State) (containerId : String) : Option Int :=
  (state.baselineLimits.find? fun entry => entry.1 = containerId).map Prod.snd

/-- `baseline.setdefault(containerId, limit)` -/
def setDefault (entries : List (String × Int)) (containerId : String) (limit : Int) : List (String × Int) :=
  if entries.any fun entry => entry.1 = containerId then entries else entries ++ [(containerId, limit)]

/-- `baseline[containerId] = limit` -/
def assign (entries : List (String × Int)) (containerId : String) (limit : Int) : List (String × Int) :=
  Foundation.upsert Prod.fst (containerId, limit) entries

def Machine.rows (machine : Machine) (reading : Reading) : List Row :=
  reading.maps.filterMap fun running => running.usage.map fun usage =>
    ⟨running.service, running.containerId, usage, machine.limits running.containerId⟩

namespace Platform

variable {P : Type} (rt : Platform P)

/-- `update_container_memory`: `none` where it raises. -/
def updateContainerMemory (fails : Bool) (machine : Machine) (containerId : String) (limit : Int) :
    Option Machine :=
  if limit ≠ 0 ∧ limit < 256 * MIB then none
  else if fails then none
  else some { machine with
    limits := Function.update machine.limits containerId
      (if limit = 0 then rt.unset (machine.limits containerId) else limit) }

def rowPercent (row : Row) : P := rt.percent row.memoryUsageBytes row.memoryLimitBytes

def target? (rows : List Row) : Option Row :=
  ((rows.filter fun row => rt.atLeast90 (rt.rowPercent row)).insertionSort fun first second =>
    rt.le (rt.rowPercent second) (rt.rowPercent first) = true).head?

def donates (row : Row) : Bool :=
  let next := row.memoryLimitBytes - GIB
  decide (max (max (row.memoryUsageBytes + GIB) (rt.scaled row.memoryUsageBytes)) GIB ≤ next) &&
    (decide (0 < next) && rt.atMost80 row.memoryUsageBytes next) && rt.atMost70 (rt.rowPercent row)

def donor? (target : Row) (rows : List Row) : Option Row :=
  ((rows.filter fun row => row.containerId ≠ target.containerId && rt.donates row).insertionSort fun first second =>
      (rt.le (rt.rowPercent first) (rt.rowPercent second) = true ∧
        rt.le (rt.rowPercent second) (rt.rowPercent first) = false) ∨
      (rt.le (rt.rowPercent first) (rt.rowPercent second) = true ∧
        second.memoryLimitBytes ≤ first.memoryLimitBytes)).head?

def move (faults : Faults) (donor target : Row) (machine : Machine) : Bool × Machine :=
  match rt.updateContainerMemory faults.target machine target.containerId
      (target.memoryLimitBytes + GIB) with
  | none => (false, machine)
  | some raised =>
    match rt.updateContainerMemory faults.donor raised donor.containerId
        (donor.memoryLimitBytes - GIB) with
    | some moved => (true, moved)
    | none =>
      match rt.updateContainerMemory faults.undo raised target.containerId
          target.memoryLimitBytes with
      | some undone => (false, undone)
      | none => (false, raised)

def memoryBalancerTick (reading : Reading) (faults : Faults) (machine : Machine) : Report × Machine :=
  if machine.state.enabled = false then (.skipped, machine)
  else
    let rows := (machine.rows reading).filter fun row =>
      decide (0 < row.memoryUsageBytes) && decide (0 < row.memoryLimitBytes)
    let baseline := rows.foldl (fun entries row =>
      setDefault entries row.containerId row.memoryLimitBytes) machine.state.baselineLimits
    let written (machine : Machine) : Machine :=
      { machine with state := ⟨true, baseline⟩ }
    match rt.target? rows with
    | none => (.monitoring, written machine)
    | some target =>
      match rt.donor? target rows with
      | none => (.noDonor target, written machine)
      | some donor =>
        match rt.move faults donor target machine with
        | (true, moved) => (.moved donor target, written moved)
        | (false, left) => (.failed, left)

/-- `set_memory_balancer_enabled(True)` -/
def enable (reading : Reading) (machine : Machine) : Machine :=
  { machine with
    state := ⟨true, ((machine.rows reading).filter fun row => 0 < row.memoryLimitBytes).map fun row =>
      (row.containerId, row.memoryLimitBytes)⟩ }

/-- The loop over the baselines: whether all were restored, and the machine. -/
def restore (refuses : String → Bool) (rows : List Row) : List (String × Int) → Machine → Bool × Machine
  | [], machine => (true, machine)
  | (containerId, limit) :: rest, machine =>
    if rows.any (fun row => row.containerId = containerId) && decide (0 < limit) then
      match rt.updateContainerMemory (refuses containerId) machine containerId limit with
      | some restored => restore refuses rows rest restored
      | none =>
        let (_, others) := restore refuses rows rest machine
        (false, others)
    else restore refuses rows rest machine

/-- `set_memory_balancer_enabled(False)`: whether it returns, and the machine. It raises at a map
whose statistics timed out, for its row names no container. -/
def disable (refuses : String → Bool) (reading : Reading) (machine : Machine) : Bool × Machine :=
  if reading.maps.any fun running => running.usage.isNone then (false, machine)
  else
    match rt.restore refuses (machine.rows reading) machine.state.baselineLimits machine with
    | (true, restored) => (true, { restored with state := ⟨false, []⟩ })
    | (false, left) => (false, left)

/-- The limit `set_map_memory` asks for. -/
def requested : MemoryText → Option Int
  | .unset => some 0
  | .bytes amount => if amount < 256 * MIB ∨ 1024 * GIB < amount then none else some amount
  | .malformed => none

/-- `set_map_memory`: whether it returns, and the machine. The row of a service is the last one. -/
def setMapMemory (service : String) (memory : MemoryText) (fails : Bool) (reading : Reading)
    (machine : Machine) : Option (String × Machine) :=
  match (reading.maps.filter fun running => running.service = service).getLast?, requested memory with
  | some running, some limit =>
    if running.usage.isNone then none
    else
      match rt.updateContainerMemory fails machine running.containerId limit with
      | none => none
      | some updated =>
        some (running.containerId,
          if updated.state.enabled = false then updated
          else if limit ≠ 0 then
            { updated with state := ⟨true, assign updated.state.baselineLimits running.containerId limit⟩ }
          else
            { updated with state := ⟨true, updated.state.baselineLimits.filter fun entry =>
              entry.1 ≠ running.containerId⟩ })
  | _, _ => none

end Platform

inductive Operation where
  | enable
  | disable (refuses : String → Bool)
  | tick (faults : Faults)
  | setMemory (service : String) (memory : MemoryText) (fails : Bool)

structure Call where
  operation : Operation
  reading : Reading

namespace Platform

variable {P : Type} (rt : Platform P)

def perform (machine : Machine) (call : Call) : Machine :=
  match call.operation with
  | .enable => enable call.reading machine
  | .disable refuses => (rt.disable refuses call.reading machine).2
  | .tick faults => (rt.memoryBalancerTick call.reading faults machine).2
  | .setMemory service memory fails =>
    ((rt.setMapMemory service memory fails call.reading machine).map Prod.snd).getD machine

def sight (seen : List Row) (references : String → Option Int) : String → Option Int :=
  fun containerId => (references containerId).or
    ((seen.find? fun row => row.containerId = containerId).map Row.memoryLimitBytes)

/-- The limit each map is to have in the end: what it had when the balancer first saw it since it
was switched on, or what an operator has set after that. -/
def reference (machine : Machine) (references : String → Option Int) (call : Call) : String → Option Int :=
  match call.operation with
  | .enable => sight ((machine.rows call.reading).filter fun row => 0 < row.memoryLimitBytes)
      (if machine.state.enabled then references else fun _ => none)
  | .disable _ => references
  | .tick _ =>
    if machine.state.enabled then
      sight ((machine.rows call.reading).filter fun row =>
        decide (0 < row.memoryUsageBytes) && decide (0 < row.memoryLimitBytes)) references
    else references
  | .setMemory service memory fails =>
    match rt.setMapMemory service memory fails call.reading machine with
    | some (containerId, after) =>
      Function.update references containerId (some (after.limits containerId))
    | none => references

def run (start : Machine) (calls : List Call) : Machine × (String → Option Int) :=
  calls.foldl (fun world call =>
    (rt.perform world.1 call, rt.reference world.1 world.2 call)) (start, fun _ => none)

end Platform

end Dash.Balancer
