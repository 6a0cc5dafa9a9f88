import Dash.Balancer.Memory

/-! What the balancer conserves, and what it gives back.

A tick that does not fail moves one GiB. A map that was seen has its reference among the baselines,
or has not been moved: this is what a run keeps, as long as nobody enables the balancer again while
memory is moved and no failed tick leaves a map moved that has no baseline on file.
-/

set_option autoImplicit false

namespace Dash.Balancer

open List
open Option (none_or some_or)
open Function (update_of_ne update_self)

variable {P : Type}

/-- A change of one value changes the sum by the difference. -/
theorem sum_update {ids : List String} (distinct : ids.Nodup) {id : String} (member : id ∈ ids)
    (limits : String → Int) (limit : Int) :
    (ids.map (Function.update limits id limit)).sum = (ids.map limits).sum + (limit - limits id) := by
  induction ids with
  | nil => cases member
  | cons head rest ih =>
    obtain ⟨absent, distinct⟩ := nodup_cons.mp distinct
    rw [map_cons, map_cons, sum_cons, sum_cons]
    rcases mem_cons.mp member with rfl | later
    · have others : rest.map (Function.update limits id limit) = rest.map limits := by
        refine map_congr_left fun other present => ?_
        refine update_of_ne (fun same => absent ?_) limit limits
        rwa [← same]
      rw [others, update_self]
      omega
    · have apart : head ≠ id := by
        rintro rfl
        exact absent later
      rw [ih distinct later, update_of_ne apart]
      omega

theorem mem_rows {machine : Machine} {reading : Reading} {row : Row} (member : row ∈ machine.rows reading) :
    row.containerId ∈ reading.maps.map Running.containerId ∧ row.memoryLimitBytes = machine.limits row.containerId := by
  obtain ⟨running, listed, shown⟩ := mem_filterMap.mp member
  obtain ⟨usage, _, rfl⟩ := Option.map_eq_some_iff.mp shown
  exact ⟨mem_map_of_mem listed, rfl⟩

theorem rows_sublist (machine : Machine) (maps : List Running) :
    ((maps.filterMap fun running => running.usage.map fun usage =>
      Row.mk running.service running.containerId usage (machine.limits running.containerId)).map
        Row.containerId).Sublist (maps.map Running.containerId) := by
  induction maps with
  | nil => exact .slnil
  | cons running rest ih =>
    cases usage : running.usage with
    | none => simpa [filterMap_cons, usage] using ih.cons running.containerId
    | some used => simpa [filterMap_cons, usage] using ih.cons_cons running.containerId

namespace Platform

variable {rt : Platform P}

theorem target_mem {rows : List Row} {target : Row} (chosen : rt.target? rows = some target) : target ∈ rows := by
  have sorted := List.mem_of_head? chosen
  exact mem_of_mem_filter ((mem_insertionSort _).mp sorted)

theorem donor_mem {rows : List Row} {target donor : Row} (chosen : rt.donor? target rows = some donor) :
    donor ∈ rows ∧ donor.containerId ≠ target.containerId ∧
      donor.memoryUsageBytes + GIB ≤ donor.memoryLimitBytes - GIB ∧
      GIB ≤ donor.memoryLimitBytes - GIB := by
  have sorted := List.mem_of_head? chosen
  obtain ⟨member, fits⟩ := mem_filter.mp ((mem_insertionSort _).mp sorted)
  simp only [donates, Bool.and_eq_true, decide_eq_true_eq, ne_eq] at fits
  obtain ⟨other, ⟨bounded, -⟩, -⟩ := fits
  exact ⟨member, other, by omega, by omega⟩

variable {machine after : Machine} {containerId : String}

theorem updateContainerMemory_some {fails : Bool}
    {limit : Int} (updated : rt.updateContainerMemory fails machine containerId limit = some after) :
    after = { machine with
      limits := Function.update machine.limits containerId
        (if limit = 0 then rt.unset (machine.limits containerId) else limit) } := by
  unfold updateContainerMemory at updated
  split at updated
  · cases updated
  · split at updated
    · cases updated
    · exact (Option.some.inj updated).symm

variable {donor target : Row} {faults : Faults}

theorem move_done (moved : rt.move faults donor target machine = (true, after))
    (positive : 0 < target.memoryLimitBytes) (enough : GIB ≤ donor.memoryLimitBytes - GIB) :
    after = { machine with
      limits := Function.update (Function.update machine.limits target.containerId
        (target.memoryLimitBytes + GIB)) donor.containerId (donor.memoryLimitBytes - GIB) } := by
  have more : target.memoryLimitBytes + GIB ≠ 0 := by
    unfold GIB MIB
    omega
  have less : donor.memoryLimitBytes - GIB ≠ 0 := by
    unfold GIB MIB at *
    omega
  unfold move at moved
  split at moved
  · cases moved
  next raised first =>
    rw [updateContainerMemory_some first] at moved
    split at moved
    · next done second =>
      rw [updateContainerMemory_some second, if_neg less, if_neg more] at moved
      exact (Prod.mk.inj moved).2.symm
    · split at moved <;> cases moved

def measured (reading : Reading) (machine : Machine) : List Row :=
  (machine.rows reading).filter fun row =>
    decide (0 < row.memoryUsageBytes) && decide (0 < row.memoryLimitBytes)

def Leaks (rt : Platform P) (reading : Reading) (faults : Faults) (machine : Machine) (target : Row) : Prop :=
  rt.target? (measured reading machine) = some target ∧
    (∃ donor, rt.donor? target (measured reading machine) = some donor) ∧
    faults.target = false ∧ faults.donor = true ∧
    (faults.undo = true ∨ target.memoryLimitBytes < 256 * MIB)

/-- What a tick can do. -/
inductive Ticked (rt : Platform P) (reading : Reading) (faults : Faults) (machine : Machine) :
    Report × Machine → Prop where
  | skipped (disabled : machine.state.enabled = false) : Ticked rt reading faults machine (.skipped, machine)
  | kept (report : Report) (enabled : machine.state.enabled = true) (baseline : List (String × Int))
      (written : baseline = (measured reading machine).foldl (fun entries row =>
        setDefault entries row.containerId row.memoryLimitBytes) machine.state.baselineLimits)
      (still : ∀ donor target, report ≠ .moved donor target) :
      Ticked rt reading faults machine (report, { machine with state := ⟨true, baseline⟩ })
  | moved (donor target : Row) (enabled : machine.state.enabled = true) (baseline : List (String × Int))
      (written : baseline = (measured reading machine).foldl (fun entries row =>
        setDefault entries row.containerId row.memoryLimitBytes) machine.state.baselineLimits)
      (gives : donor ∈ measured reading machine) (takes : target ∈ measured reading machine)
      (apart : donor.containerId ≠ target.containerId)
      (room : donor.memoryUsageBytes + GIB ≤ donor.memoryLimitBytes - GIB) :
      Ticked rt reading faults machine (.moved donor target, {
        limits := Function.update (Function.update machine.limits target.containerId
          (target.memoryLimitBytes + GIB)) donor.containerId (donor.memoryLimitBytes - GIB)
        state := ⟨true, baseline⟩ })
  | failed (after : Machine) (enabled : machine.state.enabled = true)
      (state : after.state = machine.state)
      (moved : ∀ containerId, after.limits containerId ≠ machine.limits containerId →
        ∃ target, Leaks rt reading faults machine target ∧ containerId = target.containerId) :
      Ticked rt reading faults machine (.failed, after)

theorem updateContainerMemory_none {fails : Bool} {machine : Machine}
    {limit : Int} (refused : rt.updateContainerMemory fails machine containerId limit = none) :
    fails = true ∨ limit < 256 * MIB := by
  unfold updateContainerMemory at refused
  split at refused
  next small => exact .inr small.2
  · split at refused
    next failing => exact .inl failing
    · cases refused

/-- A move that fails changes the target, if the donor's update and then the target's fail. -/
theorem move_failed (failed : rt.move faults donor target machine = (false, after))
    (positive : 0 < target.memoryLimitBytes) (enough : GIB ≤ donor.memoryLimitBytes - GIB)
    (shown : target.memoryLimitBytes = machine.limits target.containerId)
    (moved : after.limits containerId ≠ machine.limits containerId) :
    containerId = target.containerId ∧ faults.target = false ∧ faults.donor = true ∧
      (faults.undo = true ∨ target.memoryLimitBytes < 256 * MIB) := by
  unfold move at failed
  split at failed
  · cases failed
    exact absurd rfl moved
  next raised first =>
    have accepted : faults.target = false := by
      unfold updateContainerMemory at first
      split at first
      · cases first
      · split at first
        · cases first
        next fine => exact Bool.eq_false_of_not_eq_true fine
    have same := updateContainerMemory_some first
    split at failed
    · cases failed
    next second =>
      have refused : faults.donor = true := by
        rcases updateContainerMemory_none second with failing | small
        · exact failing
        · unfold GIB MIB at *
          omega
      split at failed
      next undone third =>
        -- the undo gives the target the limit it had
        cases failed
        rw [updateContainerMemory_some third, if_neg (by omega), same, shown] at moved
        simp at moved
      next third =>
        cases failed
        refine ⟨?_, accepted, refused, updateContainerMemory_none third⟩
        by_contra other
        rw [same] at moved
        exact moved (update_of_ne other _ _)

theorem move_state {machine : Machine} : (rt.move faults donor target machine).2.state = machine.state := by
  unfold move
  split
  · rfl
  next raised first =>
    have same := updateContainerMemory_some first
    split
    · next done second =>
      rw [updateContainerMemory_some second, same]
    · split
      · next undone third =>
        rw [updateContainerMemory_some third, same]
      · rw [same]

theorem tick_cases (reading : Reading) (faults : Faults) (machine : Machine) :
    Ticked rt reading faults machine (rt.memoryBalancerTick reading faults machine) := by
  unfold memoryBalancerTick
  split
  next disabled => exact .skipped disabled
  next running =>
    have enabled := Bool.eq_true_of_not_eq_false running
    simp only
    split
    · exact .kept _ enabled _ rfl (by simp)
    next target chosen =>
      split
      · exact .kept _ enabled _ rfl (by simp)
      next donor given =>
        have takes := target_mem chosen
        obtain ⟨gives, apart, room, enough⟩ := donor_mem given
        have positive : 0 < target.memoryLimitBytes := by
          have fits := (mem_filter.mp takes).2
          simp only [Bool.and_eq_true, decide_eq_true_eq] at fits
          exact fits.2
        cases outcome : rt.move faults donor target machine with
        | mk done after =>
          cases done with
          | true =>
            have same := move_done outcome positive enough
            simp only
            rw [same]
            exact .moved donor target enabled _ rfl gives takes apart room
          | false =>
            have state : (rt.move faults donor target machine).2.state = machine.state := move_state
            rw [outcome] at state
            refine .failed after enabled state fun containerId moved => ?_
            have shown := (mem_rows (mem_of_mem_filter takes)).2
            obtain ⟨same, faulty⟩ := move_failed outcome positive enough shown moved
            exact ⟨target, ⟨chosen, ⟨donor, given⟩, faulty⟩, same⟩

/-- A tick that does not fail keeps the sum of the limits of the running maps, and leaves a donor
one GiB above what it uses. -/
theorem tick_conserves (reading : Reading) (faults : Faults) (machine : Machine)
    (success : (rt.memoryBalancerTick reading faults machine).1 ≠ .failed) :
    ((reading.maps.map Running.containerId).map (rt.memoryBalancerTick reading faults machine).2.limits).sum =
      ((reading.maps.map Running.containerId).map machine.limits).sum ∧
    ∀ donor target, (rt.memoryBalancerTick reading faults machine).1 = .moved donor target →
      donor ∈ machine.rows reading ∧ donor.memoryUsageBytes + GIB ≤
        (rt.memoryBalancerTick reading faults machine).2.limits donor.containerId := by
  have ticked := (tick_cases reading faults machine : Ticked rt reading faults machine _)
  generalize rt.memoryBalancerTick reading faults machine = result at ticked success ⊢
  cases ticked with
  | skipped => exact ⟨rfl, fun _ _ moved => nomatch moved⟩
  | kept report _ _ _ still => exact ⟨rfl, fun donor target moved => absurd moved (still donor target)⟩
  | failed => exact absurd rfl success
  | moved donor target _ _ _ gives takes apart room =>
    obtain ⟨fromListed, fromLimit⟩ := mem_rows (mem_of_mem_filter gives)
    obtain ⟨toListed, toLimit⟩ := mem_rows (mem_of_mem_filter takes)
    constructor
    · -- the target gains what the donor loses
      simp only
      rw [sum_update reading.distinct fromListed, sum_update reading.distinct toListed,
        update_of_ne apart, ← fromLimit, ← toLimit]
      omega
    · intro other receiver moved
      cases moved
      refine ⟨mem_of_mem_filter gives, ?_⟩
      simp only [update_self]
      exact room

end Platform

def lookup (entries : List (String × Int)) (containerId : String) : Option Int :=
  (entries.find? fun entry => entry.1 = containerId).map Prod.snd

def seen (rows : List Row) (containerId : String) : Option Int :=
  (rows.find? fun row => row.containerId = containerId).map Row.memoryLimitBytes

variable {entries : List (String × Int)} {containerId : String}

theorem lookup_none : lookup entries containerId = none ↔ containerId ∉ entries.map Prod.fst :=
  Option.map_eq_none_iff.trans Foundation.Table.find_none

theorem any_named : (entries.any fun entry => entry.1 = containerId) = true ↔
      (lookup entries containerId).isSome = true := by
  simp [lookup, List.find?_isSome]

theorem lookup_setDefault (entries : List (String × Int)) (row other : String) (limit : Int) :
    lookup (setDefault entries row limit) other =
      (lookup entries other).or (if row = other then some limit else none) := by
  rw [setDefault]
  split
  next known =>
    by_cases same : row = other
    · subst same
      obtain ⟨value, found⟩ := Option.isSome_iff_exists.mp (any_named.mp known)
      rw [found, some_or]
    · rw [if_neg same, Option.or_none]
  next =>
    rw [lookup, lookup, List.find?_append, Option.map_or]
    by_cases same : row = other <;> simp [same]

theorem lookup_setDefaults (rows : List Row) (entries : List (String × Int)) (containerId : String) :
    lookup (rows.foldl (fun entries row =>
        setDefault entries row.containerId row.memoryLimitBytes) entries) containerId =
      (lookup entries containerId).or (seen rows containerId) := by
  induction rows generalizing entries with
  | nil => simp [seen]
  | cons row rest ih =>
    rw [foldl_cons, ih, lookup_setDefault, Option.or_assoc, seen, seen, List.find?_cons]
    by_cases same : row.containerId = containerId <;> simp [same]

theorem lookup_assign (entries : List (String × Int)) (target other : String) (limit : Int) :
    lookup (assign entries target limit) other =
      if target = other then some limit else lookup entries other := by
  rw [lookup, assign, Foundation.Table.find_upsert]
  by_cases same : other = target
  · rw [if_pos same, if_pos same.symm]
    rfl
  · rw [if_neg same, if_neg (Ne.symm same)]
    rfl

variable {rows : List Row}

theorem seen_limit {machine : Machine} (live : ∀ row ∈ rows, row.memoryLimitBytes = machine.limits row.containerId)
    {limit : Int} (found : seen rows containerId = some limit) :
    limit = machine.limits containerId := by
  obtain ⟨row, first, rfl⟩ := Option.map_eq_some_iff.mp found
  have named : row.containerId = containerId := by simpa using List.find?_some first
  rw [live row (List.mem_of_find?_eq_some first), named]

structure Tracked (machine : Machine) (references : String → Option Int) : Prop where
  distinct : (machine.state.baselineLimits.map Prod.fst).Nodup
  positive : ∀ entry ∈ machine.state.baselineLimits, 0 < entry.2
  known : ∀ containerId limit, references containerId = some limit →
    lookup machine.state.baselineLimits containerId = some limit ∨
      (lookup machine.state.baselineLimits containerId = none ∧ machine.limits containerId = limit)
  unknown : ∀ containerId, references containerId = none → lookup machine.state.baselineLimits containerId = none

def Kept (machine : Machine) (references : String → Option Int) : Prop :=
  machine.state.enabled = true → Tracked machine references

variable {machine after : Machine} {references : String → Option Int}

theorem setDefault_distinct (distinct : (entries.map Prod.fst).Nodup) (containerId : String) (limit : Int) :
    ((setDefault entries containerId limit).map Prod.fst).Nodup := by
  rw [setDefault]
  split
  · exact distinct
  next fresh =>
    refine Foundation.Table.insert_keys distinct fun member => fresh ?_
    obtain ⟨entry, listed, named⟩ := mem_map.mp member
    exact any_eq_true.mpr ⟨entry, listed, decide_eq_true named⟩

theorem setDefaults_kept (distinct : (entries.map Prod.fst).Nodup) (positive : ∀ entry ∈ entries, 0 < entry.2)
    (limits : ∀ row ∈ rows, 0 < row.memoryLimitBytes) :
    ((rows.foldl (fun entries row =>
      setDefault entries row.containerId row.memoryLimitBytes) entries).map Prod.fst).Nodup ∧
    ∀ entry ∈ rows.foldl (fun entries row =>
      setDefault entries row.containerId row.memoryLimitBytes) entries, 0 < entry.2 := by
  induction rows generalizing entries with
  | nil => exact ⟨distinct, positive⟩
  | cons row rest ih =>
    refine ih (setDefault_distinct distinct _ _) (fun entry member => ?_)
      fun other later => limits other (mem_cons_of_mem _ later)
    simp only [setDefault] at member
    split at member
    · exact positive entry member
    · rcases mem_append.mp member with before | last
      · exact positive entry before
      · rw [mem_singleton.mp last]
        exact limits row mem_cons_self

/-- Maps that are seen get their limit as reference and as baseline, unless they have one. -/
theorem Tracked.sight (tracked : Tracked machine references)
    (live : ∀ row ∈ rows, row.memoryLimitBytes = machine.limits row.containerId)
    (limits : ∀ row ∈ rows, 0 < row.memoryLimitBytes)
    (state : after.state.baselineLimits = rows.foldl (fun entries row =>
      setDefault entries row.containerId row.memoryLimitBytes) machine.state.baselineLimits)
    (still : ∀ containerId, seen rows containerId = none → after.limits containerId = machine.limits containerId) :
    Tracked after (Platform.sight rows references) := by
  obtain ⟨distinct, positive⟩ := setDefaults_kept tracked.distinct tracked.positive limits
  refine ⟨state ▸ distinct, state ▸ positive, fun containerId limit referred => ?_, fun containerId unseen => ?_⟩
  · rw [state, lookup_setDefaults]
    cases old : references containerId with
    | some earlier =>
      rw [Platform.sight, old] at referred
      cases referred
      rcases tracked.known containerId limit old with filed | ⟨absent, unmoved⟩
      · exact .inl (by rw [filed, some_or])
      · cases now : seen rows containerId with
        | some limit =>
          rw [absent, none_or, seen_limit live now, unmoved]
          exact .inl rfl
        | none => exact .inr ⟨by rw [absent, none_or], (still containerId now).trans unmoved⟩
    | none =>
      rw [Platform.sight, old, none_or] at referred
      exact .inl (by rw [tracked.unknown containerId old, none_or]; exact referred)
  · rw [state, lookup_setDefaults]
    obtain ⟨old, now⟩ := Option.or_eq_none_iff.mp unseen
    exact Option.or_eq_none_iff.mpr ⟨tracked.unknown containerId old, now⟩

/-- A call that writes no state and moves only maps with a baseline on file. -/
theorem Tracked.unwritten (tracked : Tracked machine references)
    (live : ∀ row ∈ rows, row.memoryLimitBytes = machine.limits row.containerId)
    (state : after.state = machine.state)
    (filed : ∀ containerId, lookup machine.state.baselineLimits containerId = none →
      after.limits containerId = machine.limits containerId) :
    Tracked after (Platform.sight rows references) := by
  refine ⟨state ▸ tracked.distinct, state ▸ tracked.positive, fun containerId limit referred => ?_,
    fun containerId unseen => ?_⟩
  · rw [state]
    cases old : references containerId with
    | some earlier =>
      rw [Platform.sight, old] at referred
      cases referred
      rcases tracked.known containerId limit old with present | ⟨absent, unmoved⟩
      · exact .inl present
      · exact .inr ⟨absent, (filed containerId absent).trans unmoved⟩
    | none =>
      rw [Platform.sight, old, none_or] at referred
      have absent := tracked.unknown containerId old
      exact .inr ⟨absent, (filed containerId absent).trans (seen_limit live referred).symm⟩
  · rw [state]
    exact tracked.unknown containerId (Option.or_eq_none_iff.mp unseen).1

theorem lookup_rows (rows : List Row) (containerId : String) :
    lookup (rows.map fun row => (row.containerId, row.memoryLimitBytes)) containerId =
      seen rows containerId := by
  rw [lookup, seen, List.find?_map, Option.map_map]
  rfl

/-- The operator's limit is the reference, and the baseline if there is one. -/
theorem Tracked.set {limit unset : Int} (tracked : Tracked machine references) (amount : limit = 0 ∨ 0 < limit)
    (limits : after.limits = Function.update machine.limits containerId
      (if limit = 0 then unset else limit)) (state : after.state.baselineLimits =
      if limit = 0 then machine.state.baselineLimits.filter fun entry => entry.1 ≠ containerId
      else assign machine.state.baselineLimits containerId limit) :
    Tracked after (Function.update references containerId (some (after.limits containerId))) := by
  have others (other : String) (apart : other ≠ containerId) :
      lookup after.state.baselineLimits other = lookup machine.state.baselineLimits other := by
    rw [state]
    split
    · rw [lookup, lookup, List.find?_filter]
      congr 2
      funext entry
      by_cases this : entry.1 = other <;> simp [this, apart]
    · rw [lookup_assign, if_neg (Ne.symm apart)]
  have own : lookup after.state.baselineLimits containerId =
      if limit = 0 then none else some limit := by
    rw [state]
    split
    · rw [lookup_none, mem_map]
      rintro ⟨entry, member, named⟩
      exact of_decide_eq_true (mem_filter.mp member).2 named
    · rw [lookup_assign, if_pos rfl]
  refine ⟨?_, ?_, fun other value referred => ?_, fun other missing => ?_⟩
  · rw [state]
    split
    · exact tracked.distinct.sublist (filter_sublist.map _)
    · exact Foundation.Table.upsert_keys tracked.distinct
  · rw [state]
    split
    · exact fun entry member => tracked.positive entry (mem_of_mem_filter member)
    next some =>
      intro entry member
      rcases Foundation.Table.mem_upsert member with rfl | before
      · exact amount.resolve_left some
      · exact tracked.positive entry before
  · by_cases this : other = containerId
    · subst this
      rw [update_self] at referred
      cases referred
      rw [own, limits, update_self]
      split
      · exact .inr ⟨rfl, rfl⟩
      · exact .inl rfl
    · rw [update_of_ne this] at referred
      rw [others other this, limits, update_of_ne this]
      exact tracked.known other value referred
  · by_cases this : other = containerId
    · subst this
      rw [update_self] at missing
      cases missing
    · rw [update_of_ne this] at missing
      rw [others other this]
      exact tracked.unknown other missing

/-- Enabling files the limits of the maps that run. Where it was enabled, they are to be the
references. -/
theorem enable_tracked (reading : Reading) {earlier : String → Option Int}
    (unmoved : ∀ containerId limit, earlier containerId = some limit → machine.limits containerId = limit) :
    Tracked (Platform.enable reading machine) (Platform.sight
      ((machine.rows reading).filter fun row => 0 < row.memoryLimitBytes) earlier) := by
  have live : ∀ row ∈ (machine.rows reading).filter (fun row => 0 < row.memoryLimitBytes),
      row.memoryLimitBytes = machine.limits row.containerId :=
    fun row member => (mem_rows (mem_of_mem_filter member)).2
  refine ⟨?_, fun entry member => ?_, fun containerId limit referred => ?_, fun containerId unseen => ?_⟩
  · change (List.map Prod.fst (List.map _ _)).Nodup
    rw [map_map]
    exact reading.distinct.sublist ((filter_sublist.map _).trans (rows_sublist machine _))
  · obtain ⟨row, listed, rfl⟩ := mem_map.mp member
    exact of_decide_eq_true (mem_filter.mp listed).2
  · change lookup (List.map _ _) containerId = _ ∨ lookup (List.map _ _) containerId = _ ∧ _
    rw [lookup_rows]
    cases now : seen ((machine.rows reading).filter fun row => 0 < row.memoryLimitBytes) containerId with
    | none =>
      have old : earlier containerId = some limit :=
        (Option.or_eq_some_iff.mp referred).resolve_right fun other => by
          rw [seen] at now
          rw [now] at other
          cases other.2
      exact .inr ⟨rfl, unmoved containerId limit old⟩
    | some shown =>
      have limits := seen_limit live now
      rcases Option.or_eq_some_iff.mp referred with old | ⟨-, same⟩
      · exact .inl (by rw [limits, unmoved containerId limit old])
      · exact .inl (now.symm.trans same)
  · change lookup (List.map _ _) containerId = _
    rw [lookup_rows]
    exact (Option.or_eq_none_iff.mp unseen).2

namespace Platform

variable {rt : Platform P}

theorem restore_ok (refuses : String → Bool) (rows : List Row) {entries : List (String × Int)}
    (distinct : (entries.map Prod.fst).Nodup) (positive : ∀ entry ∈ entries, 0 < entry.2)
    (machine : Machine) :
    (rt.restore refuses rows entries machine).2.state = machine.state ∧
    (∀ containerId, lookup entries containerId = none →
      (rt.restore refuses rows entries machine).2.limits containerId = machine.limits containerId) ∧
    ((rt.restore refuses rows entries machine).1 = true → ∀ containerId limit,
      lookup entries containerId = some limit → containerId ∈ rows.map Row.containerId →
      (rt.restore refuses rows entries machine).2.limits containerId = limit) := by
  induction entries generalizing machine with
  | nil => exact ⟨rfl, fun _ _ => rfl, fun _ _ _ found => nomatch found⟩
  | cons entry rest ih =>
    obtain ⟨own, limit⟩ := entry
    obtain ⟨absent, distinct⟩ := nodup_cons.mp distinct
    have above : 0 < limit := positive _ mem_cons_self
    have later := ih distinct fun entry member => positive entry (mem_cons_of_mem _ member)
    have head (containerId : String) : lookup ((own, limit) :: rest) containerId =
        if own = containerId then some limit else lookup rest containerId := by
      rw [lookup, lookup, List.find?_cons]
      by_cases same : own = containerId <;> simp [same]
    have apart {containerId : String} (missing : lookup ((own, limit) :: rest) containerId = none) :
        own ≠ containerId ∧ lookup rest containerId = none := by
      rw [head] at missing
      split at missing
      · cases missing
      next other => exact ⟨other, missing⟩
    rw [restore]
    split
    next runs =>
      split
      next restored updated =>
        have same := updateContainerMemory_some updated
        rw [if_neg (by omega)] at same
        obtain ⟨state, others, given⟩ := later restored
        refine ⟨by rw [state, same], fun containerId missing => ?_, fun success containerId wanted found runs => ?_⟩
        · obtain ⟨other, missing⟩ := apart missing
          rw [others containerId missing, same]
          exact update_of_ne (Ne.symm other) _ _
        · rw [head] at found
          split at found
          next this =>
            cases found
            subst this
            rw [others own (lookup_none.mpr absent), same]
            exact update_self ..
          next => exact given success containerId wanted found runs
      next =>
        obtain ⟨state, others, -⟩ := later machine
        exact ⟨state, fun containerId missing => others containerId (apart missing).2,
          fun impossible => nomatch impossible⟩
    next stopped =>
      obtain ⟨state, others, given⟩ := later machine
      refine ⟨state, fun containerId missing => others containerId (apart missing).2,
        fun success containerId wanted found runs => ?_⟩
      rw [head] at found
      split at found
      next this =>
        subst this
        obtain ⟨row, listed, named⟩ := mem_map.mp runs
        have shown : (rows.any fun row => row.containerId = own) = true :=
          any_eq_true.mpr ⟨row, listed, decide_eq_true named⟩
        rw [shown, decide_eq_true above] at stopped
        exact absurd rfl stopped
      next => exact given success containerId wanted found runs

theorem restore_state (rt : Platform P) (refuses : String → Bool) (rows : List Row) (entries : List (String × Int))
    (machine : Machine) :
    (rt.restore refuses rows entries machine).2.state = machine.state := by
  induction entries generalizing machine with
  | nil => rfl
  | cons entry rest ih =>
    rw [restore]
    split
    · split
      next restored updated => rw [ih, updateContainerMemory_some updated]
      next => exact ih machine
    · exact ih machine

theorem disable_state (rt : Platform P) (refuses : String → Bool) (reading : Reading) (machine : Machine) :
    (rt.disable refuses reading machine).2.state = machine.state ∨
      (rt.disable refuses reading machine).2.state = ⟨false, []⟩ := by
  rw [disable]
  split
  · exact .inl rfl
  · have state := restore_state rt refuses (machine.rows reading) machine.state.baselineLimits machine
    split
    · exact .inr rfl
    next left outcome =>
      rw [outcome] at state
      exact .inl state

/-- What a disable does, when it raises and when it returns. -/
theorem disable_cases (rt : Platform P) (tracked : Tracked machine references) (refuses : String → Bool)
    (reading : Reading) :
    ((rt.disable refuses reading machine).1 = false ∧ (rt.disable refuses reading machine).2.state = machine.state ∧
      ∀ containerId, lookup machine.state.baselineLimits containerId = none →
        (rt.disable refuses reading machine).2.limits containerId = machine.limits containerId) ∨
    ((rt.disable refuses reading machine).1 = true ∧ (rt.disable refuses reading machine).2.state = ⟨false, []⟩ ∧
      (∀ containerId, lookup machine.state.baselineLimits containerId = none →
        (rt.disable refuses reading machine).2.limits containerId = machine.limits containerId) ∧
      ∀ containerId limit, lookup machine.state.baselineLimits containerId = some limit →
        containerId ∈ reading.maps.map Running.containerId →
        (rt.disable refuses reading machine).2.limits containerId = limit) := by
  obtain ⟨state, others, given⟩ := rt.restore_ok refuses (machine.rows reading) tracked.distinct
    tracked.positive machine
  rw [disable]
  split
  · exact .inl ⟨rfl, rfl, fun _ _ => rfl⟩
  next answered =>
    cases outcome : rt.restore refuses (machine.rows reading) machine.state.baselineLimits machine with
    | mk done after =>
      rw [outcome] at state others given
      cases done with
      | false => exact .inl ⟨rfl, state, others⟩
      | true =>
        refine .inr ⟨rfl, rfl, others, fun containerId limit found runs => ?_⟩
        refine given rfl containerId limit found ?_
        obtain ⟨running, listed, rfl⟩ := mem_map.mp runs
        cases usage : running.usage with
        | none => exact absurd (any_eq_true.mpr ⟨running, listed, by simp [usage]⟩) answered
        | some used =>
          exact mem_map.mpr ⟨⟨running.service, running.containerId, used, _⟩,
            mem_filterMap.mpr ⟨running, listed, by rw [usage]; rfl⟩, rfl⟩

/-- Nobody enables the balancer again while a map is not at its reference, and a tick that fails
leaves no map moved that has no baseline on file. -/
def Careful (rt : Platform P) (machine : Machine) (references : String → Option Int) (call : Call) : Prop :=
  match call.operation with
  | .enable => machine.state.enabled = true → ∀ containerId limit,
      references containerId = some limit → machine.limits containerId = limit
  | .tick faults => ∀ target, Leaks rt call.reading faults machine target →
      lookup machine.state.baselineLimits target.containerId ≠ none
  | _ => True

theorem sight_nothing (references : String → Option Int) : sight [] references = references := by
  funext containerId
  simp [sight]

theorem setMapMemory_some {service : String} {memory : MemoryText} {fails : Bool}
    {reading : Reading} {containerId : String}
    (done : rt.setMapMemory service memory fails reading machine = some (containerId, after)) :
    ∃ limit, (limit = 0 ∨ 0 < limit) ∧ after.limits = Function.update machine.limits containerId
        (if limit = 0 then rt.unset (machine.limits containerId) else limit) ∧
      (machine.state.enabled = true → after.state = ⟨true,
        if limit = 0 then machine.state.baselineLimits.filter fun entry => entry.1 ≠ containerId
        else assign machine.state.baselineLimits containerId limit⟩) ∧
      (machine.state.enabled = false → after.state = machine.state) := by
  unfold setMapMemory at done
  split at done
  next running limit last asked =>
    have amount : limit = 0 ∨ 0 < limit := by
      cases memory with
      | unset => exact .inl (Option.some.inj asked).symm
      | bytes amount =>
        simp only [requested] at asked
        split at asked
        · cases asked
        next bounded =>
          cases asked
          unfold MIB at bounded
          omega
      | malformed => cases asked
    split at done
    · cases done
    · split at done
      · cases done
      next updated changed =>
        have same := updateContainerMemory_some changed
        obtain ⟨rfl, rfl⟩ := Prod.mk.inj (Option.some.inj done)
        subst same
        refine ⟨limit, amount, ?_, fun enabled => ?_, fun disabled => ?_⟩
        · by_cases disabled : machine.state.enabled = false <;> by_cases zero : limit = 0 <;>
            simp [disabled, zero]
        · simp only [enabled, Bool.true_eq_false, if_false]
          by_cases zero : limit = 0 <;> simp [zero]
        · simp [disabled]
  next => cases done

theorem perform_kept (kept : Kept machine references) (call : Call) (careful : Careful rt machine references call) :
    Kept (rt.perform machine call) (rt.reference machine references call) := by
  obtain ⟨operation, reading⟩ := call
  cases operation with
  | enable =>
    intro _
    change Tracked (enable reading machine) (sight _ _)
    by_cases enabled : machine.state.enabled = true
    · rw [if_pos enabled]
      exact enable_tracked reading (careful enabled)
    · rw [if_neg enabled]
      exact enable_tracked reading fun _ _ impossible => by cases impossible
  | disable refuses =>
    -- it is still enabled after the call only if the call raised
    intro enabled
    change Tracked (rt.disable refuses reading machine).2 references
    have before : machine.state.enabled = true := by
      rcases disable_state rt refuses reading machine with same | off
      · change (rt.disable refuses reading machine).2.state.enabled = true at enabled
        rwa [same] at enabled
      · change (rt.disable refuses reading machine).2.state.enabled = true at enabled
        rw [off] at enabled
        cases enabled
    rcases disable_cases rt (kept before) refuses reading with ⟨-, state, others⟩ | ⟨-, off, -, -⟩
    · have tracked : Tracked (rt.disable refuses reading machine).2 (sight [] references) :=
        (kept before).unwritten (fun row member => by cases member) state others
      rwa [sight_nothing] at tracked
    · change (rt.disable refuses reading machine).2.state.enabled = true at enabled
      rw [off] at enabled
      cases enabled
  | tick faults =>
    have ticked : Ticked rt reading faults machine (rt.memoryBalancerTick reading faults machine) :=
      tick_cases reading faults machine
    change Kept (rt.memoryBalancerTick reading faults machine).2 _
    have live : ∀ row ∈ measured reading machine, row.memoryLimitBytes = machine.limits row.containerId :=
      fun row member => (mem_rows (mem_of_mem_filter member)).2
    have limits : ∀ row ∈ measured reading machine, 0 < row.memoryLimitBytes := by
      intro row member
      have fits := (mem_filter.mp member).2
      simp only [Bool.and_eq_true, decide_eq_true_eq] at fits
      exact fits.2
    have references_ : machine.state.enabled = true → rt.reference machine references
        ⟨.tick faults, reading⟩ = sight (measured reading machine) references :=
      fun enabled => if_pos enabled
    generalize rt.memoryBalancerTick reading faults machine = result at ticked
    cases ticked with
    | skipped disabled =>
      intro enabled
      rw [disabled] at enabled
      cases enabled
    | kept report enabled baseline written =>
      intro _
      rw [references_ enabled]
      exact (kept enabled).sight live limits written fun _ _ => rfl
    | moved donor target enabled baseline written gives takes apart =>
      intro _
      rw [references_ enabled]
      refine (kept enabled).sight live limits written fun containerId unseen => ?_
      have other {row : Row} (member : row ∈ measured reading machine) : containerId ≠ row.containerId := by
        rintro rfl
        rw [seen, Option.map_eq_none_iff, List.find?_eq_none] at unseen
        exact unseen row member (decide_eq_true rfl)
      simp only
      rw [update_of_ne (other gives), update_of_ne (other takes)]
    | failed after enabled state moved =>
      -- a limit that was changed and not written back is a leak, which the hypothesis rules out
      intro _
      rw [references_ enabled]
      refine (kept enabled).unwritten live state fun containerId absent => ?_
      by_contra changed
      obtain ⟨target, leaks, rfl⟩ := moved containerId changed
      exact careful target leaks absent
  | setMemory service memory fails =>
    dsimp only [Platform.perform, Platform.reference]
    cases done : rt.setMapMemory service memory fails reading machine with
    | none => exact kept
    | some result =>
      obtain ⟨containerId, after⟩ := result
      obtain ⟨limit, amount, limits, filed, unfiled⟩ := setMapMemory_some done
      intro enabled
      change after.state.enabled = true at enabled
      have before : machine.state.enabled = true := by
        by_contra disabled
        rw [unfiled (Bool.eq_false_of_not_eq_true disabled)] at enabled
        exact disabled enabled
      exact (kept before).set amount limits (congrArg State.baselineLimits (filed before))

theorem run_concat (start : Machine) (calls : List Call) (call : Call) : rt.run start (calls ++ [call]) =
      (rt.perform (rt.run start calls).1 call, rt.reference (rt.run start calls).1 (rt.run start calls).2 call) := by
  rw [run, foldl_append]
  rfl

theorem run_kept {start : Machine} (disabled : start.state.enabled = false) {calls : List Call}
    (careful : ∀ before call, before ++ [call] <+: calls →
      Careful rt (rt.run start before).1 (rt.run start before).2 call) :
    Kept (rt.run start calls).1 (rt.run start calls).2 := by
  induction calls using List.reverseRecOn with
  | nil =>
    intro enabled
    change start.state.enabled = true at enabled
    rw [disabled] at enabled
    cases enabled
  | append_singleton calls call ih =>
    have earlier := ih fun before other inside =>
      careful before other (inside.trans (prefix_append _ _))
    rw [run_concat]
    exact perform_kept earlier call (careful calls call (prefix_refl _))

def Restores (rt : Platform P) (start : Machine) (calls : List Call) : Prop :=
  ∀ before refuses reading, before ++ [⟨.disable refuses, reading⟩] <+: calls →
    (rt.disable refuses reading (rt.run start before).1).1 = true → ∀ containerId limit,
      (rt.run start before).2 containerId = some limit →
      (rt.run start (before ++ [⟨.disable refuses, reading⟩])).1.limits containerId = limit

end Platform

def plain : Platform Int where
  percent usage limit := usage * 1000 / limit
  atLeast90 percent := 900 ≤ percent
  atMost70 percent := percent ≤ 700
  le first second := first ≤ second
  atMost80 used limit := used * 100 ≤ 80 * limit
  scaled used := used * 5 / 4
  unset limit := limit

def tenEach : Machine := ⟨fun _ => 10 * GIB, ⟨false, []⟩⟩

def survival : Running := ⟨"survival", "a", some (9 * GIB + 512 * MIB)⟩

def deepDesert : Running := ⟨"deep-desert", "b", some (2 * GIB)⟩

def both : Reading := ⟨[survival, deepDesert], by decide⟩

def survivalAlone : Reading := ⟨[survival], by decide⟩

def desertAlone : Reading := ⟨[deepDesert], by decide⟩

def quiet : Operation := .tick ⟨false, false, false⟩

def switchOff : Operation := .disable fun _ => false

end Dash.Balancer
