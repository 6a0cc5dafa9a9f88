import Dash.Community.Effects
import Mathlib.Tactic.Ring

/-! Playtime credits against the time that was observed.

Each accepted observation adds what passed since the stored checkpoint, so the sum
telescopes to the time between the first observation and the checkpoint. This holds
while the checkpoint does not move back; the code moves it to any timestamp it is
given, and the time between is counted again.
-/

set_option autoImplicit false

namespace Dash.Community

open Dash.Python Dash.Foundation List
open Foundation.Transaction (bind_ok commit_error commit_ok lift_bind pure_ok)

variable {F : Type}

structure Rates (F : Type) where
  (intervalSeconds creditsPerInterval maxGapSeconds : Value F)

/-- One call of `observe_playtime` under fixed rates. -/
structure Sighting (F : Type) where
  (duneAccountId online observedEpoch : Value F)
  supply : Supply

namespace Platform

variable (rt : Platform F) (rates : Rates F)

def sight (sighting : Sighting F) : Action F PlaytimeResult :=
  rt.observePlaytime sighting.duneAccountId sighting.online sighting.observedEpoch
    rates.intervalSeconds rates.creditsPerInterval rates.maxGapSeconds

def sighted (db : Db F) (sighting : Sighting F) : Db F :=
  ((rt.sight rates sighting).commit ⟨db, sighting.supply⟩).db

/-- The intervals a call credits; none if it raises. -/
def granted (db : Db F) (sighting : Sighting F) : Int :=
  match rt.sight rates sighting ⟨db, sighting.supply⟩ with
  | .ok (result, _) => result.intervals
  | .error _ => 0

def watch (db : Db F) (sightings : List (Sighting F)) : Db F := sightings.foldl (rt.sighted rates) db

def grantedTo (account : Int) (db : Db F) (sighting : Sighting F) : Int :=
  if rt.accountId sighting.duneAccountId = .ok account then rt.granted rates db sighting else 0

def grants (account : Int) : Db F → List (Sighting F) → List Int
  | _, [] => []
  | db, sighting :: rest =>
    rt.grantedTo rates account db sighting :: grants account (rt.sighted rates db sighting) rest

def totalIntervals (account : Int) (db : Db F) (sightings : List (Sighting F)) : Int :=
  (rt.grants rates account db sightings).sum

variable {session after : Session F}

theorem accruePlaytime_ok {account observed interval credits maxGap : Int}
    {row : PlaytimeCheckpoint} {online : Bool} {result : PlaytimeResult}
    (success : rt.accruePlaytime account row online observed interval credits maxGap session = .ok (result, after)) :
    result.intervals = (row.remainderSeconds + row.elapsed observed maxGap) / interval ∧
      ∃ change : PlaytimeCheckpoint → PlaytimeCheckpoint,
        (∀ other, (change other).duneAccountId = other.duneAccountId ∧ (change other).observedAt = observed ∧
          (change other).remainderSeconds = (row.remainderSeconds + row.elapsed observed maxGap) % interval) ∧
        after.db.playtimeCheckpoints =
          update PlaytimeCheckpoint.duneAccountId account change session.db.playtimeCheckpoints := by
  simp only [accruePlaytime, Action.bind_bind, Action.execute_bind] at success
  obtain ⟨-, success⟩ := success
  split at success
  · cases pure_ok.mp success
    refine ⟨rfl, _, ?_, rfl⟩
    exact fun _ => ⟨rfl, rfl, rfl⟩
  · obtain ⟨entry, middle, appended, same⟩ := bind_ok.mp success
    obtain ⟨row, -, -, changed⟩ := rt.appendLedger_ok appended
    have kept := congrArg Db.playtimeCheckpoints changed
    cases pure_ok.mp same
    refine ⟨rfl, _, ?_, kept⟩
    exact fun _ => ⟨rfl, rfl, rfl⟩

theorem sight_ok {sighting : Sighting F} {result : PlaytimeResult}
    (success : rt.sight rates sighting session = .ok (result, after)) :
    ∃ account observed interval maxGap, rt.accountId sighting.duneAccountId = .ok account ∧
      rt.int sighting.observedEpoch = .ok observed ∧
      rt.positiveInt rates.intervalSeconds "intervalSeconds" 86400 = .ok interval ∧
      ((session.db.playtime? account = none ∧ result.intervals = 0 ∧
          after.db.playtimeCheckpoints = session.db.playtimeCheckpoints ++
            [⟨account, observed, rt.truthy sighting.online, 0, 0⟩]) ∨
        ∃ row change, session.db.playtime? account = some row ∧
          result.intervals = (row.remainderSeconds + row.elapsed observed maxGap) / interval ∧
          (∀ other, (change other).duneAccountId = other.duneAccountId ∧ (change other).observedAt = observed ∧
            (change other).remainderSeconds = (row.remainderSeconds + row.elapsed observed maxGap) % interval) ∧
          after.db.playtimeCheckpoints = update PlaytimeCheckpoint.duneAccountId account change
            session.db.playtimeCheckpoints) := by
  simp only [sight, observePlaytime, lift_bind] at success
  obtain ⟨observed, read, interval, positive, credits, -, gap, -, rest⟩ := success
  obtain ⟨account, middle, ensured, rest⟩ := bind_ok.mp rest
  obtain ⟨parsed, now, opened⟩ := rt.ensureAccount_ok ensured
  refine ⟨account, observed, interval, max interval (min gap 86400), parsed, read, positive, ?_⟩
  have same : middle.db.playtime? account = session.db.playtime? account := by rw [opened]; rfl
  rw [Action.select_bind] at rest
  cases found : session.db.playtime? account with
  | none =>
    rw [same, found] at rest
    simp only [Action.bind_bind, Action.execute_bind, pure_ok] at rest
    obtain ⟨-, done⟩ := rest
    cases done
    refine .inl ⟨rfl, rfl, ?_⟩
    rw [opened]
    rfl
  | some row =>
    rw [same, found] at rest
    obtain ⟨intervals, change, changed, written⟩ := rt.accruePlaytime_ok rest
    refine .inr ⟨row, change, rfl, intervals, changed, ?_⟩
    rw [written, opened]
    rfl

theorem playtime_append {db other : Db F} {row : PlaytimeCheckpoint}
    (written : other.playtimeCheckpoints = db.playtimeCheckpoints ++ [row]) (account : Int)
    (absent : db.playtime? row.duneAccountId = none) :
    other.playtime? account =
      if account = row.duneAccountId then some row else db.playtime? account := by
  rw [Db.playtime?, written]
  exact Table.find_append absent account

theorem playtime_update {db other : Db F} {change : PlaytimeCheckpoint → PlaytimeCheckpoint}
    {target : Int} (kept : ∀ row, (change row).duneAccountId = row.duneAccountId)
    (written : other.playtimeCheckpoints =
      update PlaytimeCheckpoint.duneAccountId target change db.playtimeCheckpoints) (account : Int) :
    other.playtime? account =
      if account = target then (db.playtime? account).map change else db.playtime? account := by
  rw [Db.playtime?, written, Table.find_update fun row same => (kept row).trans same]
  rfl

end Platform

inductive CheckpointStep (interval : Int) (accepted : Int → Prop) :
    Option PlaytimeCheckpoint → Int → Option PlaytimeCheckpoint → Prop where
  | kept (checkpoint : Option PlaytimeCheckpoint) :
      CheckpointStep interval accepted checkpoint 0 checkpoint
  | first (row : PlaytimeCheckpoint) (seen : accepted row.observedAt)
      (empty : row.remainderSeconds = 0) : CheckpointStep interval accepted none 0 (some row)
  | accrue (row next : PlaytimeCheckpoint) (maxGap : Int) (seen : accepted next.observedAt)
      (rest : next.remainderSeconds = (row.remainderSeconds + row.elapsed next.observedAt maxGap) % interval) :
      CheckpointStep interval accepted (some row)
        ((row.remainderSeconds + row.elapsed next.observedAt maxGap) / interval) (some next)

def Platform.Accepted (rt : Platform F) (account : Int) (sighting : Sighting F) (observed : Int) : Prop :=
  rt.accountId sighting.duneAccountId = .ok account ∧ rt.int sighting.observedEpoch = .ok observed

namespace Platform

variable (rt : Platform F) (rates : Rates F)

theorem sighted_step (db : Db F) (sighting : Sighting F) (account : Int) {interval : Int}
    (rate : rt.positiveInt rates.intervalSeconds "intervalSeconds" 86400 = .ok interval) :
    CheckpointStep interval (rt.Accepted account sighting) (db.playtime? account)
      (rt.grantedTo rates account db sighting)
      ((rt.sighted rates db sighting).playtime? account) := by
  unfold grantedTo granted sighted
  cases outcome : rt.sight rates sighting ⟨db, sighting.supply⟩ with
  | error why =>
    rw [commit_error outcome, ite_self]
    exact .kept _
  | ok pair =>
    obtain ⟨result, after⟩ := pair
    rw [commit_ok outcome]
    change CheckpointStep interval _ _ (if _ then result.intervals else 0) _
    obtain ⟨other, observed, found, maxGap, parsed, read, rate', either⟩ := rt.sight_ok rates outcome
    have sameRate : found = interval := Except.ok.inj (rate'.symm.trans rate)
    subst sameRate
    by_cases same : account = other
    · subst same
      rw [if_pos parsed]
      rcases either with ⟨absent, none, written⟩ | ⟨row, change, present, intervals, changed, written⟩
      · rw [playtime_append written account absent, if_pos rfl, absent, none]
        exact .first _ ⟨parsed, read⟩ rfl
      · obtain ⟨-, sameTime, rest⟩ := changed row
        rw [playtime_update (fun row => (changed row).1) written account, if_pos rfl, present,
          intervals, Option.map_some]
        rw [← sameTime] at read rest ⊢
        exact .accrue row (change row) maxGap ⟨parsed, read⟩ rest
    · rw [if_neg fun own => same (Except.ok.inj (own.symm.trans parsed))]
      rcases either with ⟨absent, -, written⟩ | ⟨row, change, -, -, changed, written⟩
      · rw [playtime_append written account absent, if_neg same]
        exact .kept _
      · rw [playtime_update (fun row => (changed row).1) written account, if_neg same]
        exact .kept _

end Platform

def Ahead (accepted : Int → Prop) (checkpoint : Option PlaytimeCheckpoint) : Prop :=
  ∀ observed, accepted observed → ∀ row ∈ checkpoint, row.observedAt ≤ observed

def BelowInterval (interval : Int) (checkpoint : Option PlaytimeCheckpoint) : Prop :=
  ∀ row ∈ checkpoint, 0 ≤ row.remainderSeconds ∧ row.remainderSeconds < interval

/-- The credited intervals and the remainder fit in the time from `low` to the checkpoint. -/
def Accrued (interval low total : Int) (checkpoint : Option PlaytimeCheckpoint) : Prop :=
  match checkpoint with
  | none => total = 0
  | some row => total * interval + row.remainderSeconds ≤ row.observedAt - low

def Reached (observed : Int) (checkpoint : Option PlaytimeCheckpoint) : Prop :=
  ∃ row ∈ checkpoint, observed ≤ row.observedAt

section Steps

variable {interval granted : Int} {accepted : Int → Prop} {before after : Option PlaytimeCheckpoint}

theorem belowInterval_none : BelowInterval interval none := by
  rintro row ⟨⟩

theorem elapsed_le {row : PlaytimeCheckpoint} {observed : Int} (maxGap : Int) (ahead : row.observedAt ≤ observed) :
    0 ≤ row.elapsed observed maxGap ∧ row.elapsed observed maxGap ≤ observed - row.observedAt := by
  unfold PlaytimeCheckpoint.elapsed
  split <;> omega

section

variable (step : CheckpointStep interval accepted before granted after)
include step

theorem CheckpointStep.belowInterval
    (positive : 0 < interval) (held : BelowInterval interval before) : BelowInterval interval after := by
  cases step with
  | kept => exact held
  | first row seen empty =>
    intro next member
    cases member
    rw [empty]
    exact ⟨le_refl 0, positive⟩
  | accrue row next maxGap seen rest =>
    intro other member
    cases member
    rw [rest]
    exact ⟨Int.emod_nonneg _ positive.ne', Int.emod_lt_of_pos _ positive⟩

theorem CheckpointStep.accrued {low total : Int}
    (ahead : Ahead accepted before) (late : ∀ observed, accepted observed → low ≤ observed)
    (held : Accrued interval low total before) : Accrued interval low (total + granted) after := by
  cases step with
  | kept => rwa [Int.add_zero]
  | first row seen empty =>
    have after := late row.observedAt seen
    have nothing : total = 0 := held
    simp only [Accrued, nothing, empty]
    omega
  | accrue row next maxGap seen rest =>
    have bound := (elapsed_le maxGap (ahead next.observedAt seen row rfl)).2
    have split := Int.mul_ediv_add_emod (row.remainderSeconds + row.elapsed next.observedAt maxGap) interval
    simp only [Accrued, rest, Int.add_mul] at held ⊢
    rw [Int.mul_comm interval] at split
    omega

theorem CheckpointStep.reached {observed : Int}
    (ahead : Ahead accepted before) (held : Reached observed before) : Reached observed after := by
  obtain ⟨row, present, upTo⟩ := held
  cases step with
  | kept => exact ⟨row, present, upTo⟩
  | first => cases present
  | accrue _ next maxGap seen rest =>
    exact ⟨next, rfl, upTo.trans (ahead next.observedAt seen row present)⟩

theorem CheckpointStep.notAfter {high : Int} (early : ∀ observed, accepted observed → observed ≤ high)
    (held : ∀ row ∈ before, row.observedAt ≤ high) : ∀ row ∈ after, row.observedAt ≤ high := by
  cases step with
  | kept => exact held
  | first row seen empty =>
    intro next member
    cases member
    exact early _ seen
  | accrue row next maxGap seen rest =>
    intro other member
    cases member
    exact early _ seen

theorem CheckpointStep.replay (held : BelowInterval interval before)
    (again : ∀ observed, accepted observed → Reached observed before) : granted = 0 := by
  cases step with
  | kept => rfl
  | first => rfl
  | accrue row next maxGap seen rest =>
    obtain ⟨same, present, upTo⟩ := again _ seen
    cases present
    have nothing : row.elapsed next.observedAt maxGap = 0 := by
      rw [PlaytimeCheckpoint.elapsed]
      split <;> omega
    obtain ⟨nonneg, small⟩ := held row rfl
    rw [nothing, Int.add_zero]
    exact Int.ediv_eq_zero_of_lt nonneg small

end

end Steps

namespace Platform

variable (rt : Platform F) (rates : Rates F)

def Seen (account : Int) (db : Db F) (sighting : Sighting F) (observed : Int) : Prop :=
  rt.Accepted account sighting observed ∧ ∃ pair, rt.sight rates sighting ⟨db, sighting.supply⟩ = .ok pair

/-- No call for the account observes a time before the checkpoint it meets. -/
def Forward (account : Int) : Db F → List (Sighting F) → Prop
  | _, [] => True
  | db, sighting :: rest =>
    Ahead (rt.Accepted account sighting) (db.playtime? account) ∧
      Forward account (rt.sighted rates db sighting) rest

variable {account interval : Int} {db : Db F}

theorem seen_reached {sighting : Sighting F} {observed : Int} (seen : rt.Seen rates account db sighting observed) :
    Reached observed ((rt.sighted rates db sighting).playtime? account) := by
  obtain ⟨⟨own, time⟩, ⟨result, after⟩, outcome⟩ := seen
  rw [sighted, commit_ok outcome]
  obtain ⟨other, found, interval, maxGap, parsed, read, -, either⟩ := rt.sight_ok rates outcome
  cases Except.ok.inj (own.symm.trans parsed)
  cases Except.ok.inj (time.symm.trans read)
  rcases either with ⟨absent, -, written⟩ | ⟨row, change, present, -, changed, written⟩
  · rw [playtime_append written account absent, if_pos rfl]
    exact ⟨_, rfl, le_refl _⟩
  · rw [playtime_update (fun row => (changed row).1) written account, if_pos rfl, present]
    exact ⟨change row, rfl, (changed row).2.1.ge⟩

theorem forward_append {first second : List (Sighting F)} (forward : rt.Forward rates account db (first ++ second)) :
    rt.Forward rates account db first ∧ rt.Forward rates account (rt.watch rates db first) second := by
  induction first generalizing db with
  | nil => exact ⟨trivial, forward⟩
  | cons sighting rest ih =>
    obtain ⟨ahead, forward⟩ := forward
    obtain ⟨front, back⟩ := ih forward
    exact ⟨⟨ahead, front⟩, back⟩

section Run

variable (rate : rt.positiveInt rates.intervalSeconds "intervalSeconds" 86400 = .ok interval)

include rate

theorem watch_belowInterval (sightings : List (Sighting F)) (held : BelowInterval interval (db.playtime? account)) :
    BelowInterval interval ((rt.watch rates db sightings).playtime? account) := by
  have positive : 0 < interval := (rt.positiveInt_ok rate).1
  induction sightings generalizing db with
  | nil => exact held
  | cons sighting rest ih =>
    exact ih ((rt.sighted_step rates db sighting account rate).belowInterval positive held)

variable {sightings : List (Sighting F)}

theorem watch_reached {observed : Int} (forward : rt.Forward rates account db sightings)
    (held : Reached observed (db.playtime? account)) :
    Reached observed ((rt.watch rates db sightings).playtime? account) := by
  induction sightings generalizing db with
  | nil => exact held
  | cons sighting rest ih =>
    exact ih forward.2 ((rt.sighted_step rates db sighting account rate).reached forward.1 held)

theorem watch_accrued {low total : Int} (forward : rt.Forward rates account db sightings)
    (late : ∀ sighting ∈ sightings, ∀ observed, rt.Accepted account sighting observed → low ≤ observed)
    (held : Accrued interval low total (db.playtime? account)) :
    Accrued interval low (total + rt.totalIntervals rates account db sightings)
      ((rt.watch rates db sightings).playtime? account) := by
  induction sightings generalizing db total with
  | nil => exact (Int.add_zero total).symm ▸ held
  | cons sighting rest ih =>
    obtain ⟨lateHere, lateRest⟩ := forall_mem_cons.mp late
    have step := (rt.sighted_step rates db sighting account rate).accrued forward.1 lateHere held
    rw [totalIntervals, grants, sum_cons, ← Int.add_assoc]
    exact ih forward.2 lateRest step

theorem watch_notAfter {high : Int}
    (early : ∀ sighting ∈ sightings, ∀ observed, rt.Accepted account sighting observed → observed ≤ high)
    (held : ∀ row ∈ db.playtime? account, row.observedAt ≤ high) :
    ∀ row ∈ (rt.watch rates db sightings).playtime? account, row.observedAt ≤ high := by
  induction sightings generalizing db with
  | nil => exact held
  | cons sighting rest ih =>
    obtain ⟨earlyHere, earlyRest⟩ := forall_mem_cons.mp early
    exact ih earlyRest ((rt.sighted_step rates db sighting account rate).notAfter earlyHere held)

theorem replay_grants_nothing {before between : List (Sighting F)} {seen again : Sighting F}
    {observed : Int} (fresh : db.playtime? account = none)
    (forward : rt.Forward rates account db (before ++ seen :: between))
    (first : rt.Seen rates account (rt.watch rates db before) seen observed)
    (second : rt.Accepted account again observed) :
    rt.grantedTo rates account (rt.watch rates db (before ++ seen :: between)) again = 0 := by
  have held : BelowInterval interval (db.playtime? account) := by
    rw [fresh]
    exact belowInterval_none
  have step := rt.sighted_step rates (rt.watch rates db (before ++ seen :: between)) again account rate
  refine step.replay (rt.watch_belowInterval rates rate _ held) fun found read => ?_
  cases Except.ok.inj (second.2.symm.trans read.2)
  have ahead := (rt.forward_append rates forward).2.2
  have reached := rt.watch_reached rates rate ahead (rt.seen_reached rates first)
  rw [watch, foldl_append]
  exact reached

end Run

/-- While no observation is before the checkpoint it meets, the credited intervals and the
stored remainder fit in the observed time and a replayed timestamp grants nothing. -/
theorem playtime_never_over_credits (db : Db F) (sightings : List (Sighting F)) {account interval : Int}
    (rate : rt.positiveInt rates.intervalSeconds "intervalSeconds" 86400 = .ok interval)
    (fresh : db.playtime? account = none) (forward : rt.Forward rates account db sightings) :
    (∀ low high, low ≤ high → (∀ sighting ∈ sightings, ∀ observed, rt.Accepted account sighting observed →
        low ≤ observed ∧ observed ≤ high) →
      rt.totalIntervals rates account db sightings * interval + (((rt.watch rates db sightings).playtime? account).map
            PlaytimeCheckpoint.remainderSeconds).getD 0 ≤ high - low) ∧
    ∀ before seen between again after observed, sightings = before ++ seen :: between ++ again :: after →
      rt.Seen rates account (rt.watch rates db before) seen observed →
      rt.Accepted account again observed →
      rt.grantedTo rates account (rt.watch rates db (before ++ seen :: between)) again = 0 := by
  constructor
  · intro low high ordered within
    have accrued : Accrued interval low (0 + rt.totalIntervals rates account db sightings)
        ((rt.watch rates db sightings).playtime? account) := by
      refine rt.watch_accrued rates rate forward (fun sighting member observed seen =>
        (within sighting member observed seen).1) ?_
      rw [fresh]
      rfl
    have notAfter : ∀ row ∈ (rt.watch rates db sightings).playtime? account, row.observedAt ≤ high := by
      refine rt.watch_notAfter rates rate (fun sighting member observed seen =>
        (within sighting member observed seen).2) ?_
      rw [fresh]
      rintro row ⟨⟩
    rw [Int.zero_add] at accrued
    cases found : (rt.watch rates db sightings).playtime? account with
    | none =>
      rw [found] at accrued
      have nothing : rt.totalIntervals rates account db sightings = 0 := accrued
      simp only [nothing, Int.zero_mul, Option.map_none, Option.getD_none]
      omega
    | some row =>
      rw [found] at accrued notAfter
      exact Int.le_trans accrued (Int.sub_le_sub_right (notAfter row rfl) low)
  · intro before seen between again after observed parts first second
    rw [parts] at forward
    exact rt.replay_grants_nothing rates rate fresh (rt.forward_append rates forward).1 first second

end Platform

def fiftySeconds : Rates FloatText := ⟨.int 50, .int 1, .int 100⟩

def onlineAt (observed : Int) (ledgerId : Uuid) : Sighting FloatText :=
  ⟨.int 7, .bool true, .int observed, supplyOf "2024-01-01T00:00:00Z" [ledgerId]⟩

def ascending : List (Sighting FloatText) :=
  [onlineAt 0 (.repeated 'a' (.refl true)), onlineAt 70 (.repeated 'b' (.refl true)),
    onlineAt 70 (.repeated 'c' (.refl true))]

theorem onlineAt_ahead {checkpoint : Option PlaytimeCheckpoint} {observed : Int} {ledgerId : Uuid}
    (notBefore : ∀ row ∈ checkpoint, row.observedAt ≤ observed) :
    Ahead (plain.Accepted 7 (onlineAt observed ledgerId)) checkpoint := by
  rintro found ⟨-, read⟩
  cases Except.ok.inj read
  exact notBefore

theorem ascending_forward : plain.Forward fiftySeconds 7 (.empty FloatText) ascending := by
  refine ⟨onlineAt_ahead ?_, onlineAt_ahead ?_, onlineAt_ahead ?_, trivial⟩ <;> decide +kernel

theorem playtime_never_over_credits_ascending : plain.totalIntervals fiftySeconds 7 (.empty FloatText) ascending * 50 +
        (((plain.watch fiftySeconds (.empty FloatText) ascending).playtime? 7).map
          PlaytimeCheckpoint.remainderSeconds).getD 0 ≤ 70 - 0 := by
  refine (plain.playtime_never_over_credits fiftySeconds (.empty FloatText) ascending (by rfl) rfl
    ascending_forward).1 0 70 (by decide) ?_
  intro sighting member observed seen
  simp only [ascending, mem_cons, not_mem_nil, or_false] at member
  rcases member with rfl | rfl | rfl <;> cases Except.ok.inj seen.2 <;> decide

def backAndForth : List (Sighting FloatText) :=
  [onlineAt 0 (.repeated 'a' (.refl true)), onlineAt 100 (.repeated 'b' (.refl true)),
    onlineAt 0 (.repeated 'c' (.refl true)), onlineAt 100 (.repeated 'd' (.refl true))]

/-- The time from 0 to 100 is credited twice, the second time to a replayed timestamp. -/
theorem backward_observation_over_credits : plain.grants fiftySeconds 7 (.empty FloatText) backAndForth = [0, 2, 0, 2] ∧
      ¬ plain.totalIntervals fiftySeconds 7 (.empty FloatText) backAndForth * 50 +
        (((plain.watch fiftySeconds (.empty FloatText) backAndForth).playtime? 7).map
          PlaytimeCheckpoint.remainderSeconds).getD 0 ≤ 100 - 0 := by
  have granted : plain.grants fiftySeconds 7 (.empty FloatText) backAndForth = [0, 2, 0, 2] := by
    decide +kernel
  have held : BelowInterval 50 ((plain.watch fiftySeconds (.empty FloatText) backAndForth).playtime? 7) := by
    refine plain.watch_belowInterval fiftySeconds (by rfl) backAndForth ?_
    exact belowInterval_none
  refine ⟨granted, ?_⟩
  have total : plain.totalIntervals fiftySeconds 7 (.empty FloatText) backAndForth = 4 := by
    rw [Platform.totalIntervals, granted]
    rfl
  rw [total]
  cases found : (plain.watch fiftySeconds (.empty FloatText) backAndForth).playtime? 7 with
  | none => decide
  | some row =>
    have rest := (held row found).1
    simp only [Option.map_some, Option.getD_some]
    omega

end Dash.Community
