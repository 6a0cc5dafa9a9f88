import Dash.Autoscaler.Stops

/-! The adaptive profile: how far an application of recommendations moves a retention.

A call reads the state file, moves each eligible dynamic map towards its recommendation and
writes the file once. What a map's retention is afterwards is what the next reading gives.
-/

set_option autoImplicit false

namespace Dash.Autoscaler

/-- The bounds of an application, as `load_policy` accepts them. -/
structure Policy where
  (minimumRetentionSeconds maximumRetentionSeconds : Int)
  maximumApplyFraction : ℚ
  minimum : 0 ≤ minimumRetentionSeconds ∧ minimumRetentionSeconds ≤ 86400
  maximum : 60 ≤ maximumRetentionSeconds ∧ maximumRetentionSeconds ≤ 86400
  fraction : 1 / 20 ≤ maximumApplyFraction ∧ maximumApplyFraction ≤ 1
  ordered : minimumRetentionSeconds ≤ maximumRetentionSeconds

structure Recommendation where
  eligible : Bool
  recommendedRetentionSeconds : Int

/-- What `status` says: the policy, and a recommendation for each service that has one. -/
structure Status where
  policy : Policy
  recommendations : List (String × Recommendation)
  nodup : (recommendations.map Prod.fst).Nodup

def Status.sorted (status : Status) : List (String × Recommendation) :=
  status.recommendations.mergeSort fun first second => decide (first.1 ≤ second.1)

/-- A row of the answer and of the receipt. -/
structure Change where
  service : String
  (beforeSeconds recommendedSeconds appliedSeconds : Int)

namespace Policy

variable (policy : Policy)

def applied (current target : Int) : Int :=
  let lower := max policy.minimumRetentionSeconds ⌊(current : ℚ) * (1 - policy.maximumApplyFraction)⌋
  let upper := min policy.maximumRetentionSeconds ⌈(current : ℚ) * (1 + policy.maximumApplyFraction)⌉
  max lower (min target upper)

/-- How far one application may move a retention. -/
def reach (current : Int) : Int := ⌈(current : ℚ) * policy.maximumApplyFraction⌉

/-- How far a retention is outside the policy's range; not positive inside it. -/
def outside (seconds : Int) : Int :=
  max (policy.minimumRetentionSeconds - seconds) (seconds - policy.maximumRetentionSeconds)

end Policy

/-- What repeated calls make of a retention, for a target that stays. -/
structure Gradual (policy : Policy) (target : Int) (retention : Nat → Int) (changes : Nat → Prop) :
    Prop where
  bounded : ∀ calls, |retention (calls + 1) - retention calls| ≤ policy.reach (retention calls)
  towards : ∀ calls, retention calls ≤ retention (calls + 1) ∧ retention (calls + 1) ≤ target ∨
    target ≤ retention (calls + 1) ∧ retention (calls + 1) ≤ retention calls
  settles : ∃ calls, retention calls = target ∧ ∀ later ≥ calls, ¬ changes later
  nearer : ∀ calls, changes calls → policy.outside (retention (calls + 1)) ≤ 0 ∨
    policy.outside (retention (calls + 1)) < policy.outside (retention calls)

namespace Platform

variable (rt : Platform)

def acts (state : State) (service : String) (recommendation : Recommendation) : Bool :=
  recommendation.eligible && decide (state.modes service = some .dynamic) &&
    decide (service ∉ rt.SIMULATION_REQUIRED_SERVICES)

/-- One round of the loop in `capacity_apply_recommendations`. -/
def round (policy : Policy) (done : State × List Change) (row : String × Recommendation) : State × List Change :=
  let (state, changes) := done
  let (service, recommendation) := row
  if rt.acts state service recommendation then
    let current := rt.retentionSeconds state service
    let target := recommendation.recommendedRetentionSeconds
    let applied := policy.applied current target
    if applied = current then done
    else
      ({ state with retentionByService := Function.update state.retentionByService service applied },
        changes ++ [⟨service, current, target, applied⟩])
  else done

/-- `capacity_apply_recommendations`: the file, and the changes. -/
def applyRecommendations (status : Status) (stored : Option State) : Option State × List Change :=
  let (state, changes) := status.sorted.foldl (rt.round status.policy) (rt.read stored, [])
  (if changes = [] then stored else some { state with profile := .adaptive }, changes)

/-- A service's retention, as the next reading of the file gives it. -/
def retention (stored : Option State) (service : String) : Int :=
  rt.retentionSeconds (rt.read stored) service

/-- The file after so many calls. -/
def file (status : Status) (stored : Option State) (calls : Nat) : Option State :=
  (fun stored => (rt.applyRecommendations status stored).1)^[calls] stored

/-- Whether the next call changes the service. -/
def changes (status : Status) (stored : Option State) (service : String) : Prop :=
  ∃ change ∈ (rt.applyRecommendations status stored).2, change.service = service

end Platform

section Arithmetic

variable (policy : Policy) {current target : Int}

theorem applied_eq (current target : Int) : policy.applied current target =
    max (max policy.minimumRetentionSeconds (current - policy.reach current))
      (min target (min policy.maximumRetentionSeconds (current + policy.reach current))) := by
  have down : (current : ℚ) * (1 - policy.maximumApplyFraction) =
      current + -(current * policy.maximumApplyFraction) := by ring
  have up : (current : ℚ) * (1 + policy.maximumApplyFraction) =
      current + current * policy.maximumApplyFraction := by ring
  rw [Policy.applied, down, up, Int.floor_intCast_add, Int.floor_neg, Int.ceil_intCast_add,
    ← Policy.reach, ← sub_eq_add_neg]

theorem reach_pos (known : 60 ≤ current) : 0 < policy.reach current := by
  have positive : (0 : ℚ) < current := by
    have cast : (60 : ℚ) ≤ current := by exact_mod_cast known
    linarith
  have share : 0 < policy.maximumApplyFraction := by linarith [policy.fraction.1]
  exact Int.ceil_pos.mpr (mul_pos positive share)

/-- Towards the target, never past it, no further than the reach, and not staying before it. -/
theorem applied_towards (low : policy.minimumRetentionSeconds ≤ target)
    (high : target ≤ policy.maximumRetentionSeconds) (known : 60 ≤ current)
    (near : policy.minimumRetentionSeconds ≤ current + policy.reach current) :
    current < target ∧ policy.applied current target = min target (current + policy.reach current) ∨
      target ≤ current ∧ policy.applied current target = max target (current - policy.reach current) := by
  have positive := reach_pos policy known
  rw [applied_eq]
  omega

theorem applied_bounds (target : Int) (known : 60 ≤ current) (day : current ≤ 86400) :
    policy.minimumRetentionSeconds ≤ policy.applied current target ∧ policy.applied current target ≤ 86400 := by
  have positive := reach_pos policy known
  have lower := policy.minimum
  have upper := policy.maximum
  rw [applied_eq]
  omega

end Arithmetic

section Reading

variable (rt : Platform) {stored : Option State} {service : String}

theorem clamp_bounds (value : Int) : 60 ≤ clamp 60 86400 value ∧ clamp 60 86400 value ≤ 86400 := by
  unfold clamp
  omega

theorem clamp_again (value other : Int) :
    clamp 60 86400 (orInt (clamp 60 86400 value) other) = clamp 60 86400 value := by
  have present : clamp 60 86400 value ≠ 0 := by unfold clamp; omega
  rw [orInt, if_neg present]
  unfold clamp
  omega

theorem own_bounds {value : Int} (found : (rt.read stored).retentionByService service = some value) :
    service ∈ rt.GAME_MAP_SERVICES ∧ 60 ≤ value ∧ value ≤ 86400 := by
  unfold Platform.read at found
  simp only at found
  split at found
  · obtain ⟨seconds, -, rfl⟩ := Option.map_eq_some_iff.mp found
    exact ⟨‹_›, clamp_bounds seconds⟩
  · cases found

theorem retention_bounds (stored : Option State) (service : String) :
    60 ≤ rt.retention stored service ∧ rt.retention stored service ≤ 86400 := by
  have general : 60 ≤ (rt.read stored).retentionSeconds ∧ (rt.read stored).retentionSeconds ≤ 86400 := clamp_bounds _
  unfold Platform.retention Platform.retentionSeconds orInt
  cases found : (rt.read stored).retentionByService service with
  | none => simpa [show (rt.read stored).retentionSeconds ≠ 0 by omega] using general
  | some value =>
    have bounds := (own_bounds rt found).2
    simpa [show value ≠ 0 by omega] using bounds

end Reading

section Rounds

variable (rt : Platform) (policy : Policy)

/-- What a round of the service writes for it. -/
def Platform.written (state : State) (service : String) (recommendation : Recommendation) : Option Int :=
  let current := rt.retentionSeconds state service
  let applied := policy.applied current recommendation.recommendedRetentionSeconds
  if rt.acts state service recommendation ∧ applied ≠ current then some applied else none

/-- The loop went on, and wrote this for the service, if anything. -/
structure Passed (service : String) (written : Option Int) (before after : State × List Change) :
    Prop where
  modes : after.1.modes = before.1.modes
  general : after.1.retentionSeconds = before.1.retentionSeconds
  own : after.1.retentionByService service = written.or (before.1.retentionByService service)
  named : (∃ change ∈ after.2, change.service = service) ↔
    (∃ change ∈ before.2, change.service = service) ∨ written.isSome

variable {service : String}

theorem Passed.trans {first second : Option Int}
    {before middle after : State × List Change} (early : Passed service first before middle)
    (late : Passed service second middle after) : Passed service (second.or first) before after where
  modes := late.modes.trans early.modes
  general := late.general.trans early.general
  own := by rw [late.own, early.own, Option.or_assoc]
  named := by
    rw [late.named, early.named, Option.isSome_or, Bool.or_eq_true, or_assoc]
    exact or_congr_right or_comm

theorem round_other {service name : String} (distinct : service ≠ name)
    (done : State × List Change) (recommendation : Recommendation) :
    Passed service none done (rt.round policy done (name, recommendation)) := by
  unfold Platform.round
  simp only
  split
  · split
    · constructor <;> simp
    · constructor <;> simp [distinct, distinct.symm]
  · constructor <;> simp

theorem round_own (service : String) (done : State × List Change) (recommendation : Recommendation) :
    Passed service (rt.written policy done.1 service recommendation) done
      (rt.round policy done (service, recommendation)) := by
  unfold Platform.round
  simp only
  split
  case isTrue acting =>
    split
    case isTrue same => constructor <;> simp [Platform.written, same]
    case isFalse moves => constructor <;> simp [Platform.written, acting, moves]
  case isFalse idle => constructor <;> simp [Platform.written, idle]

variable {rows : List (String × Recommendation)}

theorem rounds_other (absent : service ∉ rows.map Prod.fst) (done : State × List Change) :
    Passed service none done (rows.foldl (rt.round policy) done) := by
  induction rows generalizing done with
  | nil => constructor <;> simp
  | cons row rest ih =>
    obtain ⟨distinct, absent⟩ := not_or.mp (mt List.mem_cons.mpr absent)
    exact (round_other rt policy distinct done row.2).trans (ih absent _)

/-- The other services' rounds change nothing that the service's own round reads. -/
theorem written_congr {before after : State × List Change}
    (passed : Passed service none before after) (recommendation : Recommendation) :
    rt.written policy after.1 service recommendation = rt.written policy before.1 service recommendation := by
  have acting : rt.acts after.1 service recommendation = rt.acts before.1 service recommendation := by
    rw [Platform.acts, Platform.acts, passed.modes]
  have current : rt.retentionSeconds after.1 service = rt.retentionSeconds before.1 service := by
    rw [Platform.retentionSeconds, Platform.retentionSeconds, passed.own, passed.general, Option.none_or]
  unfold Platform.written
  rw [acting, current]

theorem rounds_own {recommendation : Recommendation} (nodup : (rows.map Prod.fst).Nodup)
    (member : (service, recommendation) ∈ rows) (done : State × List Change) :
    Passed service (rt.written policy done.1 service recommendation) done (rows.foldl (rt.round policy) done) := by
  obtain ⟨earlier, later, rfl⟩ := List.append_of_mem member
  rw [List.map_append, List.map_cons] at nodup
  have before : service ∉ earlier.map Prod.fst := fun early =>
    List.disjoint_of_nodup_append nodup early List.mem_cons_self
  have after : service ∉ later.map Prod.fst := (List.nodup_cons.mp (List.Nodup.of_append_right nodup)).1
  rw [List.foldl_append, List.foldl_cons]
  have first := rounds_other rt policy before done
  have turn := round_own rt policy service (earlier.foldl (rt.round policy) done) recommendation
  rw [written_congr rt policy first] at turn
  have whole := (first.trans turn).trans (rounds_other rt policy after _)
  rwa [Option.none_or, Option.or_none] at whole

end Rounds

section Calls

variable (rt : Platform) {status : Status} {service : String} {recommendation : Recommendation}
variable {stored : Option State}

theorem written_nonneg {value : Int}
    (wrote : rt.written status.policy (rt.read stored) service recommendation = some value) :
    0 ≤ value := by
  have bounds := retention_bounds rt stored service
  have least := (applied_bounds status.policy recommendation.recommendedRetentionSeconds bounds.1 bounds.2).1
  unfold Platform.written at wrote
  simp only [Option.ite_none_right_eq_some] at wrote
  rw [← Option.some.inj wrote.2]
  exact status.policy.minimum.1.trans least

variable (member : (service, recommendation) ∈ status.recommendations)
include member

/-- The file and the changes of one call, against the state that was read. -/
theorem apply_passed (stored : Option State) : ∃ done : State × List Change,
    Passed service (rt.written status.policy (rt.read stored) service recommendation) (rt.read stored, []) done ∧
    rt.applyRecommendations status stored =
      (if done.2 = [] then stored else some { done.1 with profile := .adaptive }, done.2) := by
  have order := List.mergeSort_perm status.recommendations fun first second =>
    decide (first.1 ≤ second.1)
  refine ⟨_, rounds_own rt status.policy ?_ (order.mem_iff.mpr member) (rt.read stored, []), rfl⟩
  exact (order.map Prod.fst).nodup_iff.mpr status.nodup

theorem changes_iff : rt.changes status stored service ↔
    (rt.written status.policy (rt.read stored) service recommendation).isSome := by
  obtain ⟨done, passed, file⟩ := apply_passed rt member stored
  rw [Platform.changes, file, passed.named]
  simp

theorem apply_modes : (rt.read (rt.applyRecommendations status stored).1).modes = (rt.read stored).modes := by
  obtain ⟨done, passed, file⟩ := apply_passed rt member stored
  rw [file]
  simp only
  split
  · rfl
  · exact (congrArg rt.readMode passed.modes).trans (readMode_read _)

theorem apply_retention : rt.retention (rt.applyRecommendations status stored).1 service =
    if service ∈ rt.GAME_MAP_SERVICES then
      (rt.written status.policy (rt.read stored) service recommendation).elim
        (rt.retention stored service) (clamp 60 86400)
    else rt.retention stored service := by
  obtain ⟨done, passed, file⟩ := apply_passed rt member stored
  rw [file]
  by_cases idle : done.2 = []
  · have unwritten : rt.written status.policy (rt.read stored) service recommendation = none := by
      simpa [idle] using passed.named
    simp [idle, unwritten]
  · have general : clamp 60 86400 (orInt done.1.retentionSeconds rt.IDLE_SECONDS_DEFAULT) =
        (rt.read stored).retentionSeconds := by
      rw [passed.general]
      exact clamp_again _ _
    have reads : (rt.read (some { done.1 with profile := .adaptive })).retentionByService service =
        if service ∈ rt.GAME_MAP_SERVICES then
          ((done.1.retentionByService service).filter fun seconds => 0 ≤ seconds).map (clamp 60 86400)
        else none := rfl
    rw [if_neg idle]
    simp only [Platform.retention, Platform.retentionSeconds]
    rw [show (rt.read (some { done.1 with profile := .adaptive })).retentionSeconds =
      (rt.read stored).retentionSeconds from general, reads, passed.own]
    split
    case isTrue mapped =>
      cases wrote : rt.written status.policy (rt.read stored) service recommendation with
      | some value =>
        have present := written_nonneg rt wrote
        have bounds := clamp_bounds value
        simp [Option.filter, present, orInt, show clamp 60 86400 value ≠ 0 by omega]
      | none =>
        cases found : (rt.read stored).retentionByService service with
        | none => rfl
        | some value =>
          have bounds := (own_bounds rt found).2
          have same : clamp 60 86400 value = value := by unfold clamp; omega
          simp [Option.filter, show 0 ≤ value by omega, same]
    case isFalse unmapped =>
      cases found : (rt.read stored).retentionByService service with
      | none => rfl
      | some value => exact absurd (own_bounds rt found).1 unmapped

variable (acting : rt.acts (rt.read stored) service recommendation)
include acting

theorem acts_after (calls : Nat) : rt.acts (rt.read (rt.file status stored calls)) service recommendation := by
  induction calls with
  | zero => exact acting
  | succ calls ih =>
    unfold Platform.acts at ih ⊢
    rwa [Platform.file, Function.iterate_succ_apply', apply_modes rt member]

theorem changes_after (calls : Nat) : rt.changes status (rt.file status stored calls) service ↔
    status.policy.applied (rt.retention (rt.file status stored calls) service)
      recommendation.recommendedRetentionSeconds ≠ rt.retention (rt.file status stored calls) service := by
  rw [changes_iff rt member, Platform.written]
  simp [acts_after rt member acting calls, Platform.retention]

theorem retention_after (calls : Nat) : rt.retention (rt.file status stored (calls + 1)) service =
      if service ∈ rt.GAME_MAP_SERVICES then
        clamp 60 86400 (status.policy.applied (rt.retention (rt.file status stored calls) service)
          recommendation.recommendedRetentionSeconds)
      else rt.retention (rt.file status stored calls) service := by
  have bounds := retention_bounds rt (rt.file status stored calls) service
  rw [Platform.file, Function.iterate_succ_apply', apply_retention rt member]
  refine if_congr .rfl ?_ rfl
  rw [← Platform.file]
  by_cases same : status.policy.applied (rt.retention (rt.file status stored calls) service)
      recommendation.recommendedRetentionSeconds = rt.retention (rt.file status stored calls) service
  · rw [same]
    rw [Platform.retention] at same
    simp only [Platform.written, same, ne_eq, not_true_eq_false, and_false, if_false, Option.elim_none]
    unfold clamp
    omega
  · rw [Platform.retention] at same
    simp [Platform.written, acts_after rt member acting calls, same, Platform.retention]

end Calls

section Runs

variable {policy : Policy} {target : Int} {retention : Nat → Int} {changes : Nat → Prop}

theorem gradual_of_steps (known : ∀ calls, 60 ≤ retention calls ∧ retention calls ≤ 86400)
    (next : ∀ calls, retention (calls + 1) = clamp 60 86400 (policy.applied (retention calls) target))
    (lists : ∀ calls, changes calls ↔ policy.applied (retention calls) target ≠ retention calls)
    (low : policy.minimumRetentionSeconds ≤ target) (high : target ≤ policy.maximumRetentionSeconds)
    (least : 60 ≤ target)
    (near : policy.minimumRetentionSeconds ≤ retention 0 + policy.reach (retention 0)) :
    Gradual policy target retention changes := by
  have day := policy.maximum
  have above (calls : Nat) : policy.minimumRetentionSeconds ≤ retention calls + policy.reach (retention calls) := by
    cases calls with
    | zero => exact near
    | succ before =>
      have bounds := applied_bounds policy target (known before).1 (known before).2
      have positive := reach_pos policy (known (before + 1)).1
      have stepped := next before
      unfold clamp at stepped
      omega
  have step (calls : Nat) : policy.applied (retention calls) target = retention (calls + 1) ∧
      (retention calls < target ∧
          retention (calls + 1) = min target (retention calls + policy.reach (retention calls)) ∨
        target ≤ retention calls ∧
          retention (calls + 1) = max target (retention calls - policy.reach (retention calls))) := by
    have moved := applied_towards policy low high (known calls).1 (above calls)
    have positive := reach_pos policy (known calls).1
    have bounds := known calls
    have same : clamp 60 86400 (policy.applied (retention calls) target) = policy.applied (retention calls) target := by
      unfold clamp
      omega
    rw [next, same]
    exact ⟨rfl, moved⟩
  have positive (calls : Nat) := reach_pos policy (known calls).1
  -- The distance to the target is what the search for the last call descends on.
  have arrives (distance : Nat) : ∀ calls, (target - retention calls).natAbs ≤ distance →
      ∃ last, retention last = target := by
    induction distance with
    | zero => exact fun calls none => ⟨calls, by omega⟩
    | succ distance ih =>
      intro calls within
      by_cases there : retention calls = target
      · exact ⟨calls, there⟩
      · have one := (step calls).2
        have far := positive calls
        exact ih (calls + 1) (by omega)
  obtain ⟨last, there⟩ := arrives _ 0 le_rfl
  have stays (later : Nat) (after : last ≤ later) : retention later = target := by
    induction later, after using Nat.le_induction with
    | base => exact there
    | succ later after ih =>
      have one := (step later).2
      have far := positive later
      omega
  refine ⟨fun calls => ?_, fun calls => ?_, ⟨last, there, fun later after => ?_⟩, fun calls moved => ?_⟩
  · have one := (step calls).2
    have far := positive calls
    rw [abs_le]
    omega
  · have one := (step calls).2
    have far := positive calls
    omega
  · rw [lists, not_not, (step later).1, stays later after, stays (later + 1) (by omega)]
  · have one := step calls
    have far := positive calls
    have different := (lists calls).mp moved
    unfold Policy.outside
    omega

/-- When repeated calls move a service's retention as they should. -/
def Platform.Fitting (rt : Platform) (policy : Policy) (stored : Option State) (service : String)
    (target : Int) : Prop :=
  if service ∈ rt.GAME_MAP_SERVICES then
    60 ≤ target ∧ policy.minimumRetentionSeconds ≤
      rt.retention stored service + policy.reach (rt.retention stored service)
  else target = rt.retention stored service

theorem Platform.gradual_iff (rt : Platform) {status : Status} {service : String}
    {recommendation : Recommendation} {stored : Option State}
    (member : (service, recommendation) ∈ status.recommendations)
    (acting : rt.acts (rt.read stored) service recommendation)
    (low : status.policy.minimumRetentionSeconds ≤ recommendation.recommendedRetentionSeconds)
    (high : recommendation.recommendedRetentionSeconds ≤ status.policy.maximumRetentionSeconds) :
    Gradual status.policy recommendation.recommendedRetentionSeconds
        (fun calls => rt.retention (rt.file status stored calls) service)
        (fun calls => rt.changes status (rt.file status stored calls) service) ↔
      rt.Fitting status.policy stored service recommendation.recommendedRetentionSeconds := by
  have known (calls : Nat) := retention_bounds rt (rt.file status stored calls) service
  have next := retention_after rt member acting
  have lists := changes_after rt member acting
  unfold Platform.Fitting
  split
  case isTrue mapped =>
    simp only [if_pos mapped] at next
    constructor
    · intro gradual
      obtain ⟨last, there, -⟩ := gradual.settles
      have first := abs_le.mp (gradual.bounded 0)
      have bounds := applied_bounds status.policy recommendation.recommendedRetentionSeconds (known 0).1 (known 0).2
      have stepped := next 0
      unfold clamp at stepped
      refine ⟨there ▸ (known last).1, ?_⟩
      change _ ≤ rt.retention (rt.file status stored 0) service +
        status.policy.reach (rt.retention (rt.file status stored 0) service)
      omega
    · rintro ⟨least, near⟩
      exact gradual_of_steps known next lists low high least near
  case isFalse unmapped =>
    simp only [if_neg unmapped] at next
    -- The reading drops what was written, so the same call comes again.
    have still (calls : Nat) : rt.retention (rt.file status stored calls) service = rt.retention stored service := by
      induction calls with
      | zero => rfl
      | succ calls ih => rw [next, ih]
    constructor
    · intro gradual
      obtain ⟨last, there, -⟩ := gradual.settles
      rw [← there, still]
    · intro same
      have positive := reach_pos status.policy (known 0).1
      have unmoved (calls : Nat) : ¬ rt.changes status (rt.file status stored calls) service := by
        rw [lists, not_not, still, applied_eq, ← same]
        rw [still, ← same] at positive
        omega
      refine ⟨fun calls => ?_, fun calls => ?_, ⟨0, same.symm, fun later _ => unmoved later⟩,
        fun calls moved => absurd moved (unmoved calls)⟩
      · rw [still, still, sub_self, abs_zero, ← still 0]
        exact positive.le
      · rw [still, still, same]
        exact .inl ⟨le_rfl, le_rfl⟩

end Runs

/-- One recommendation, for a retention of five minutes so far. -/
def advice (minimum target : Int) (range : 0 ≤ minimum ∧ minimum ≤ 3600) : Status where
  policy := ⟨minimum, 3600, 1 / 2, by omega, by decide, by norm_num, range.2⟩
  recommendations := [("deep-desert", ⟨true, target⟩)]
  nodup := List.nodup_singleton _

def usual : Status := advice 60 600 (by decide)

theorem usual_gradual : Gradual usual.policy 600
    (fun calls => oneMap.retention (oneMap.file usual none calls) "deep-desert")
    (fun calls => oneMap.changes usual (oneMap.file usual none calls) "deep-desert") :=
  (@Platform.gradual_iff oneMap usual "deep-desert" ⟨true, 600⟩ none (List.mem_singleton.mpr rfl)
    (by decide) (by decide) (by decide)).mpr (by
      rw [Platform.Fitting, if_pos (by decide)]
      exact ⟨by decide, by decide +kernel⟩)

/-- A minimum of ten minutes is jumped to, though half of five minutes is the bound. -/
def steep : Status := advice 600 900 (by decide)

theorem steep_jumps : ¬ Gradual steep.policy 900
    (fun calls => oneMap.retention (oneMap.file steep none calls) "deep-desert")
    (fun calls => oneMap.changes steep (oneMap.file steep none calls) "deep-desert") := by
  intro gradual
  exact absurd (gradual.bounded 0) (by decide +kernel)

end Dash.Autoscaler
