import Dash.Foundation.Transaction
import Mathlib.Data.List.Induction
import Mathlib.Data.List.Nodup

/-! Calls that read a shared state and later replace it by what they made of it.

A call takes two steps: it reads the state and computes, and then it replaces the state, whatever
has become of it since. Where each replacement finds the state its call has read, any schedule does
what the calls do one after another, in the order in which they end.
-/

set_option autoImplicit false

namespace Dash.Foundation.Replacing

open List
open Function (update_of_ne update_self)

variable {ι σ ε α : Type}

inductive Phase (σ ε α : Type) where
  | waiting
  | read (seen : σ) (value : α) (next : σ)
  | returned (value : α)
  | raised (why : ε)

/-- The call has ended. -/
def Phase.Ended : Phase σ ε α → Prop
  | .returned _ => True
  | .raised _ => True
  | _ => False

/-- What the call has returned. -/
def Phase.value? : Phase σ ε α → Option α
  | .returned value => some value
  | _ => none

theorem Phase.value?_eq_some {phase : Phase σ ε α} {value : α} :
    phase.value? = some value ↔ phase = .returned value := by
  cases phase <;> simp [value?]

/-- The shared state, how far each call is, and which have ended, in their order. -/
structure World (ι σ ε α : Type) where
  state : σ
  phase : ι → Phase σ ε α
  ended : List ι

def World.start (state : σ) : World ι σ ε α := ⟨state, fun _ => .waiting, []⟩

variable [DecidableEq ι] (body : ι → Transaction σ ε α)

/-- The call takes its next step. One that raises has not replaced anything. -/
def advance (world : World ι σ ε α) (call : ι) : World ι σ ε α :=
  match world.phase call with
  | .waiting =>
    match body call world.state with
    | .ok (value, next) =>
      { world with phase := Function.update world.phase call (.read world.state value next) }
    | .error why =>
      { world with
        phase := Function.update world.phase call (.raised why)
        ended := world.ended ++ [call] }
  | .read _ value next =>
    { state := next
      phase := Function.update world.phase call (.returned value)
      ended := world.ended ++ [call] }
  | _ => world

/-- The schedule says which call takes the next step. -/
def run (start : σ) (schedule : List ι) : World ι σ ε α :=
  schedule.foldl (advance body) (.start start)

/-- The calls one after another. -/
def replay (start : σ) (calls : List ι) : σ :=
  calls.foldl (fun state call => (body call).commit state) start

/-- A step that replaces the state finds the one its call has read. -/
def Finds (world : World ι σ ε α) (call : ι) : Prop :=
  ∀ seen value next, world.phase call = .read seen value next → world.state = seen

/-- Each replacement of the schedule finds what was read. -/
def Undisturbed (start : σ) (schedule : List ι) : Prop :=
  ∀ before call, before ++ [call] <+: schedule → Finds (run body start before) call

variable {body} {start : σ} {schedule : List ι}

variable {call : ι}

theorem run_snoc : run body start (schedule ++ [call]) = advance body (run body start schedule) call := by
  rw [run, foldl_append]
  rfl

omit [DecidableEq ι] in
theorem replay_snoc {calls : List ι} :
    replay body start (calls ++ [call]) = (body call).commit (replay body start calls) := by
  rw [replay, foldl_append]
  rfl

/-- The four things a step can be. -/
theorem advance_cases (body : ι → Transaction σ ε α) (world : World ι σ ε α) (call : ι) :
    (∃ value next, world.phase call = .waiting ∧ body call world.state = .ok (value, next) ∧ advance body world call =
        { world with phase := Function.update world.phase call (.read world.state value next) }) ∨
    (∃ why, world.phase call = .waiting ∧ body call world.state = .error why ∧ advance body world call =
        { world with
          phase := Function.update world.phase call (.raised why)
          ended := world.ended ++ [call] }) ∨
    (∃ seen value next, world.phase call = .read seen value next ∧ advance body world call =
        { state := next
          phase := Function.update world.phase call (.returned value)
          ended := world.ended ++ [call] }) ∨
    ((world.phase call).Ended ∧ advance body world call = world) := by
  unfold advance
  cases at_ : world.phase call with
  | waiting =>
    cases outcome : body call world.state with
    | error why => exact .inr (.inl ⟨why, rfl, rfl, rfl⟩)
    | ok success => exact .inl ⟨success.1, success.2, rfl, rfl, rfl⟩
  | read seen value next => exact .inr (.inr (.inl ⟨seen, value, next, rfl, rfl⟩))
  | returned value => exact .inr (.inr (.inr ⟨trivial, rfl⟩))
  | raised why => exact .inr (.inr (.inr ⟨trivial, rfl⟩))

/-- What every schedule keeps. -/
structure Tracked (body : ι → Transaction σ ε α) (world : World ι σ ε α) : Prop where
  once : world.ended.Nodup
  ended : ∀ call, call ∈ world.ended ↔ (world.phase call).Ended
  computed : ∀ call seen value next, world.phase call = .read seen value next → body call seen = .ok (value, next)

variable {world : World ι σ ε α}

theorem advance_tracked (tracked : Tracked body world) (call : ι) : Tracked body (advance body world call) := by
  -- a call that ends was not among those that had ended
  have ends {state : σ} {phase : Phase σ ε α} (done : phase.Ended) (going : ¬ (world.phase call).Ended) :
      Tracked body ⟨state, Function.update world.phase call phase, world.ended ++ [call]⟩ := by
    have absent : call ∉ world.ended := fun member => going ((tracked.ended call).mp member)
    refine ⟨?_, ?_, ?_⟩
    · exact tracked.once.append (nodup_singleton call) (disjoint_singleton.mpr absent)
    · intro other
      by_cases same : other = call
      · subst same
        simp [done]
      · simp [same, tracked.ended other]
    · intro other seen value next reading
      by_cases same : other = call
      · subst same
        simp only [update_self] at reading
        rw [reading] at done
        exact done.elim
      · simp only [update_of_ne same] at reading
        exact tracked.computed other seen value next reading
  rcases advance_cases body world call with
    ⟨value, next, waiting, outcome, same⟩ | ⟨why, waiting, outcome, same⟩ |
    ⟨seen, value, next, reading, same⟩ | ⟨-, same⟩ <;> rw [same]
  · refine ⟨tracked.once, ?_, ?_⟩
    · intro other
      by_cases this : other = call
      · subst this
        simp [tracked.ended other, waiting, Phase.Ended]
      · simp [this, tracked.ended other]
    · intro other seen result after reading
      by_cases this : other = call
      · subst this
        simp only [update_self, Phase.read.injEq] at reading
        obtain ⟨rfl, rfl, rfl⟩ := reading
        exact outcome
      · simp only [update_of_ne this] at reading
        exact tracked.computed other seen result after reading
  · exact ends trivial (by simp [waiting, Phase.Ended])
  · exact ends trivial (by simp [reading, Phase.Ended])
  · exact tracked

theorem run_tracked (schedule : List ι) : Tracked body (run body start schedule) := by
  induction schedule using List.reverseRecOn with
  | nil =>
    refine ⟨.nil, fun call => ⟨fun member => ?_, fun done => ?_⟩, fun call seen value next read => ?_⟩
    · cases member
    · cases done
    · cases read
  | append_singleton before call ih =>
    rw [run_snoc]
    exact advance_tracked ih call

theorem advance_ended (world : World ι σ ε α) (call : ι) : world.ended <+: (advance body world call).ended := by
  rcases advance_cases body world call with
    ⟨_, _, _, _, same⟩ | ⟨_, _, _, same⟩ | ⟨_, _, _, _, same⟩ | ⟨_, same⟩ <;> simp only [same]
  · exact prefix_refl _
  · exact prefix_append _ _
  · exact prefix_append _ _
  · exact prefix_refl _

variable {before : List ι}

/-- The calls that had ended come first. -/
theorem run_ended (earlier : before <+: schedule) :
    (run body start before).ended <+: (run body start schedule).ended := by
  obtain ⟨rest, rfl⟩ := earlier
  induction rest using List.reverseRecOn with
  | nil => simp
  | append_singleton rest call ih =>
    rw [← append_assoc, run_snoc]
    exact ih.trans (advance_ended _ call)

/-- The order of the ends respects real time: a call that had ended before another one read
comes before it. -/
theorem ended_before (earlier : before <+: schedule) {first second : ι} (done : first ∈ (run body start before).ended)
    (waiting : (run body start before).phase second = .waiting)
    (ends : second ∈ (run body start schedule).ended) :
    [first, second].Sublist (run body start schedule).ended := by
  have first_ended : (run body start before).ended <+: (run body start schedule).ended := run_ended earlier
  obtain ⟨rest, whole⟩ := first_ended
  have absent : second ∉ (run body start before).ended := by
    intro member
    have finished := ((run_tracked before).ended second).mp member
    rw [waiting] at finished
    exact finished
  have later : second ∈ rest := by
    rw [← whole] at ends
    exact (mem_append.mp ends).resolve_left absent
  rw [← whole]
  exact (singleton_sublist.mpr done).append (singleton_sublist.mpr later)

theorem Undisturbed.take (undisturbed : Undisturbed body start schedule)
    (earlier : before <+: schedule) : Undisturbed body start before :=
  fun first call inside => undisturbed first call (inside.trans earlier)

/-- The world is the one that the ended calls leave behind one after another, and each returned what
it returns there. -/
structure Serial (body : ι → Transaction σ ε α) (start : σ) (world : World ι σ ε α) : Prop where
  state : world.state = replay body start world.ended
  returned : ∀ call value, world.phase call = .returned value → ∃ before rest next,
    world.ended = before ++ call :: rest ∧ body call (replay body start before) = .ok (value, next)
  raised : ∀ call why, world.phase call = .raised why → ∃ before rest,
    world.ended = before ++ call :: rest ∧ body call (replay body start before) = .error why

theorem advance_serial (tracked : Tracked body world) (serial : Serial body start world) (finds : Finds world call) :
    Serial body start (advance body world call) := by
  rcases advance_cases body world call with
    ⟨value, next, waiting, outcome, same⟩ | ⟨why, waiting, outcome, same⟩ |
    ⟨seen, value, next, reading, same⟩ | ⟨-, same⟩ <;> rw [same]
  · refine ⟨serial.state, fun other result done => ?_, fun other why done => ?_⟩ <;>
      by_cases this : other = call
    · simp [this] at done
    · simp only [update_of_ne this] at done
      exact serial.returned other result done
    · simp [this] at done
    · simp only [update_of_ne this] at done
      exact serial.raised other why done
  · refine ⟨?_, fun other result done => ?_, fun other reason done => ?_⟩
    · rw [replay_snoc, ← serial.state, Transaction.commit_error outcome]
    · by_cases this : other = call
      · simp [this] at done
      · simp only [update_of_ne this] at done
        obtain ⟨before, rest, after, split, result⟩ := serial.returned other result done
        exact ⟨before, rest ++ [call], after, by simp [split], result⟩
    · by_cases this : other = call
      · subst this
        simp only [update_self, Phase.raised.injEq] at done
        subst done
        exact ⟨world.ended, [], rfl, serial.state ▸ outcome⟩
      · simp only [update_of_ne this] at done
        obtain ⟨before, rest, split, result⟩ := serial.raised other reason done
        exact ⟨before, rest ++ [call], by simp [split], result⟩
  · -- the state is still the one the call has computed from
    have outcome : body call (replay body start world.ended) = .ok (value, next) := by
      rw [← serial.state, finds seen value next reading]
      exact tracked.computed call seen value next reading
    refine ⟨?_, fun other result done => ?_, fun other reason done => ?_⟩
    · rw [replay_snoc, Transaction.commit_ok outcome]
    · by_cases this : other = call
      · subst this
        simp only [update_self, Phase.returned.injEq] at done
        subst done
        exact ⟨world.ended, [], next, rfl, outcome⟩
      · simp only [update_of_ne this] at done
        obtain ⟨before, rest, after, split, result⟩ := serial.returned other result done
        exact ⟨before, rest ++ [call], after, by simp [split], result⟩
    · by_cases this : other = call
      · simp [this] at done
      · simp only [update_of_ne this] at done
        obtain ⟨before, rest, split, result⟩ := serial.raised other reason done
        exact ⟨before, rest ++ [call], by simp [split], result⟩
  · exact serial

theorem run_serial (undisturbed : Undisturbed body start schedule) : Serial body start (run body start schedule) := by
  induction schedule using List.reverseRecOn with
  | nil => exact ⟨rfl, fun _ _ done => (nomatch done), fun _ _ done => (nomatch done)⟩
  | append_singleton before call ih =>
    have earlier := ih (undisturbed.take (prefix_append _ _))
    rw [run_snoc]
    exact advance_serial (run_tracked before) earlier (undisturbed before call (prefix_refl _))

/-- No call is between its two steps. -/
def Idle (world : World ι σ ε α) : Prop :=
  ∀ call seen value next, world.phase call ≠ .read seen value next

theorem Undisturbed.snoc (undisturbed : Undisturbed body start schedule)
    (finds : Finds (run body start schedule) call) :
    Undisturbed body start (schedule ++ [call]) := by
  intro before other inside
  rcases prefix_concat_iff.mp inside with same | earlier
  · obtain ⟨rfl, last⟩ := append_inj' same rfl
    cases last
    exact finds
  · exact undisturbed before other earlier

/-- A call that takes both steps at once finds what it has read, and leaves none in between. -/
theorem turn_idle (body : ι → Transaction σ ε α) (idle : Idle world) (call : ι) :
    Finds (advance body world call) call ∧ Idle (advance body (advance body world call) call) := by
  have others (phase : Phase σ ε α) (calm : ∀ seen value next, phase ≠ .read seen value next)
      (state : σ) (ended : List ι) :
      Idle ⟨state, Function.update world.phase call phase, ended⟩ := by
    intro other seen value next reading
    by_cases same : other = call
    · subst same
      simp only [update_self] at reading
      exact calm seen value next reading
    · simp only [update_of_ne same] at reading
      exact idle other seen value next reading
  rcases advance_cases body world call with
    ⟨value, next, waiting, outcome, same⟩ | ⟨why, waiting, outcome, same⟩ |
    ⟨seen, value, next, reading, -⟩ | ⟨done, same⟩
  · rw [same]
    refine ⟨fun seen result after reading => ?_, ?_⟩
    · simp only [update_self, Phase.read.injEq] at reading
      exact reading.1
    · simp only [advance, update_self, Function.update_idem]
      exact others (.returned value) (fun _ _ _ reading => nomatch reading) next _
  · rw [same]
    refine ⟨fun seen result after reading => ?_, ?_⟩
    · simp at reading
    · simp only [advance, update_self]
      exact others (.raised why) (fun _ _ _ reading => nomatch reading) world.state _
  · exact (idle call seen value next reading).elim
  · rw [same, same]
    exact ⟨fun seen value next reading => (idle call seen value next reading).elim, idle⟩

/-- Calls that take turns do not disturb each other. -/
theorem turns_undisturbed (calls : List ι) : Undisturbed body start (calls.flatMap fun call => [call, call]) := by
  have both : Undisturbed body start (calls.flatMap fun call => [call, call]) ∧
      Idle (run body start (calls.flatMap fun call => [call, call])) := by
    induction calls using List.reverseRecOn with
    | nil =>
      refine ⟨fun before call inside => ?_, fun call seen value next reading => ?_⟩
      · simp at inside
      · cases reading
    | append_singleton calls call ih =>
      obtain ⟨undisturbed, idle⟩ := ih
      obtain ⟨finds, after⟩ := turn_idle body idle call
      have two : (calls ++ [call]).flatMap (fun call => [call, call]) =
          calls.flatMap (fun call => [call, call]) ++ [call] ++ [call] := by
        simp
      have first := undisturbed.snoc fun seen value next reading =>
        (idle call seen value next reading).elim
      rw [two]
      refine ⟨first.snoc ?_, ?_⟩
      · rw [run_snoc]
        exact finds
      · rw [run_snoc, run_snoc]
        exact after
  exact both.1

end Dash.Foundation.Replacing
