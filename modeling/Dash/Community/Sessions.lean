import Dash.Community.Accounting

/-! Whether the active time of a session rests on movement inside it.

A checkpoint keeps the time of the last movement, which the grace window reads. It is kept
past a gap that ends a session, and the observation that opens a session is compared with
where the last one before it was. Where neither reaches into the new session, its active
time is its own.
-/

set_option autoImplicit false

namespace Dash.Community

open Dash.Python Dash.Foundation List

variable {F : Type}

namespace Platform

variable (rt : Platform F) (policy : EngagementPolicy F)

def moved (before after : Location F) : Bool :=
  (rt.movementProven before after policy.minimumMovementDistance).toOption.any Prod.fst

def continuous (before after : Answer F) : Bool :=
  before.online && after.online && decide (after.observed - before.observed ≤ policy.maxObservationGapSeconds)

def extend (session : List (Answer F)) (next : Answer F) : List (Answer F) :=
  if session.getLast?.any fun last => continuous policy last next then session ++ [next] else [next]

def session (seen : List (Answer F)) : List (Answer F) := seen.foldl (extend policy) []

def Proven (session : List (Answer F)) : Prop :=
  ∃ before first second after, session = before ++ first :: second :: after ∧
    rt.moved policy first.location second.location = true

def Isolated (seen : List (Answer F)) : Prop :=
  ∀ before answer after, seen = before ++ answer :: after → answer.seconds ≠ 0 →
    rt.Proven policy (session policy (before ++ [answer]))

def Opens (before : List (Answer F)) (answer : Answer F) : Prop :=
  answer.online = true ∧ before.getLast?.any (fun last => continuous policy last answer) = false

structure Mark (F : Type) where
  observedAt : Int
  wasOnline : Bool
  location : Location F
  lastMovementAt : Option Int

def markOf (row : EngagementCheckpoint F) : Mark F :=
  ⟨row.observedAt, row.wasOnline, row.location, row.lastMovementAt⟩

namespace Mark

variable (mark : Mark F) (answer : Answer F)

def movedAt : Option Int :=
  if rt.moved policy mark.location answer.location then some answer.observed else mark.lastMovementAt

def after : Mark F where
  observedAt := answer.observed
  wasOnline := answer.online
  location := answer.location
  lastMovementAt := if answer.online then mark.movedAt rt policy answer else none

def continues : Bool :=
  answer.online && mark.wasOnline && decide (answer.observed - mark.observedAt ≤ policy.maxObservationGapSeconds)

def seconds : Int :=
  if mark.continues policy answer && (mark.movedAt rt policy answer).any (fun at_ =>
      decide (at_ ≠ 0) && decide (answer.observed - at_ ≤ policy.movementGraceSeconds)) then
    max 0 (min (answer.observed - mark.observedAt) policy.maxObservationGapSeconds)
  else 0

def Spent : Prop :=
  ∀ at_, mark.lastMovementAt = some at_ → at_ = 0 ∨ at_ + policy.movementGraceSeconds ≤ mark.observedAt

/-- What an observation that opens a session needs: it shows no movement since the mark, and
the grace of an earlier movement is over. -/
def Fresh : Prop :=
  if rt.moved policy mark.location answer.location then
    policy.movementGraceSeconds = 0 ∨ answer.observed = 0
  else ∀ at_, mark.lastMovementAt = some at_ → at_ = 0 ∨ at_ + policy.movementGraceSeconds ≤ answer.observed

end Mark

def markOfFirst (answer : Answer F) : Mark F :=
  ⟨answer.observed, answer.online, answer.location, none⟩

def markAfter (mark : Option (Mark F)) (seen : List (Answer F)) : Option (Mark F) :=
  seen.foldl (fun mark answer => some (match mark with
    | some mark => mark.after rt policy answer
    | none => markOfFirst answer)) mark

def credits : Option (Mark F) → List (Answer F) → List Int
  | _, [] => []
  | none, answer :: rest => 0 :: credits (some (markOfFirst answer)) rest
  | some mark, answer :: rest =>
    mark.seconds rt policy answer :: credits (some (mark.after rt policy answer)) rest

variable {rt policy} {mark other : Mark F} {answer : Answer F} {seen : List (Answer F)}

theorem markAfter_append (mark : Option (Mark F)) (seen rest : List (Answer F)) :
    rt.markAfter policy mark (seen ++ rest) = rt.markAfter policy (rt.markAfter policy mark seen) rest :=
  foldl_append

theorem credits_append (mark : Option (Mark F)) (seen rest : List (Answer F)) : rt.credits policy mark (seen ++ rest) =
      rt.credits policy mark seen ++ rt.credits policy (rt.markAfter policy mark seen) rest := by
  induction seen generalizing mark with
  | nil => rfl
  | cons answer seen ih =>
    cases mark with
    | none => exact congrArg (0 :: ·) (ih _)
    | some mark => exact congrArg (mark.seconds rt policy answer :: ·) (ih _)

theorem credits_length (mark : Option (Mark F)) (seen : List (Answer F)) :
    (rt.credits policy mark seen).length = seen.length := by
  induction seen generalizing mark with
  | nil => cases mark <;> rfl
  | cons answer seen ih => cases mark <;> exact congrArg (· + 1) (ih _)

theorem session_append (seen : List (Answer F)) (answer : Answer F) :
    session policy (seen ++ [answer]) = extend policy (session policy seen) answer :=
  foldl_append

theorem session_last (seen : List (Answer F)) : (session policy seen).getLast? = seen.getLast? := by
  induction seen using List.reverseRecOn with
  | nil => rfl
  | append_singleton seen answer ih =>
    rw [session_append, extend, List.getLast?_concat]
    split
    · rw [List.getLast?_concat]
    · rfl

theorem markAfter_last (answer : Answer F) (seen : List (Answer F)) :
    ∃ mark, rt.markAfter policy none (seen ++ [answer]) = some mark ∧
      mark.observedAt = answer.observed ∧ mark.wasOnline = answer.online ∧ mark.location = answer.location := by
  rw [markAfter_append]
  cases rt.markAfter policy none seen with
  | none => exact ⟨_, rfl, rfl, rfl, rfl⟩
  | some mark => exact ⟨_, rfl, rfl, rfl, rfl⟩

theorem continues_last {before : List (Answer F)} (after_ : rt.markAfter policy none before = some mark)
    (answer : Answer F) :
    mark.continues policy answer = before.getLast?.any fun last => continuous policy last answer := by
  rcases eq_nil_or_concat before with rfl | ⟨earlier, last, rfl⟩
  · cases after_
  · rw [concat_eq_append] at after_ ⊢
    obtain ⟨same, found, observed, online, -⟩ := @markAfter_last F rt policy last earlier
    cases after_.symm.trans found
    rw [List.getLast?_concat, Option.any_some, Mark.continues, continuous, observed, online,
      Bool.and_comm answer.online]

theorem Proven.append {session : List (Answer F)} (proven : rt.Proven policy session)
    (answer : Answer F) : rt.Proven policy (session ++ [answer]) := by
  obtain ⟨before, first, second, after, rfl, moved_⟩ := proven
  exact ⟨before, first, second, after ++ [answer], by simp, moved_⟩

def Backed (rt : Platform F) (policy : EngagementPolicy F) (seen : List (Answer F)) : Prop :=
  ∀ mark ∈ rt.markAfter policy none seen, ∀ at_, mark.lastMovementAt = some at_ → at_ ≠ 0 →
    mark.observedAt < at_ + policy.movementGraceSeconds → rt.Proven policy (session policy seen)

def FreshStarts (rt : Platform F) (policy : EngagementPolicy F) (seen : List (Answer F)) : Prop :=
  ∀ before answer after, seen = before ++ answer :: after → Opens policy before answer →
    ∀ mark ∈ rt.markAfter policy none before, mark.Fresh rt policy answer

/-- Movement that reaches past an observation that goes on with the session is in the session. -/
theorem movedAt_proven (backed : rt.Backed policy seen)
    (marked : rt.markAfter policy none seen = some mark) (newer : mark.observedAt < answer.observed)
    (going : mark.continues policy answer = true) {at_ : Int}
    (found : mark.movedAt rt policy answer = some at_) (some_ : at_ ≠ 0)
    (recent : answer.observed ≤ at_ + policy.movementGraceSeconds) :
    rt.Proven policy (session policy (seen ++ [answer])) := by
  rcases eq_nil_or_concat seen with rfl | ⟨earlier, last, rfl⟩
  · cases marked
  rw [concat_eq_append] at backed marked ⊢
  obtain ⟨same, known, -, -, location⟩ := @markAfter_last F rt policy last earlier
  cases marked.symm.trans known
  have ends : (session policy (earlier ++ [last])).getLast? = some last := by
    rw [session_last, List.getLast?_concat]
  have goes : continuous policy last answer = true := by
    have same := continues_last marked answer
    rw [List.getLast?_concat, Option.any_some] at same
    exact same.symm.trans going
  have grows : session policy (earlier ++ [last] ++ [answer]) = session policy (earlier ++ [last]) ++ [answer] := by
    rw [session_append, extend, ends]
    exact if_pos goes
  rw [grows]
  unfold Mark.movedAt at found
  split at found
  · next moved_ =>
    obtain ⟨before, same⟩ := List.getLast?_eq_some_iff.mp ends
    rw [location] at moved_
    exact ⟨before, last, answer, [], by rw [same, append_assoc]; rfl, moved_⟩
  · exact (backed mark marked at_ found some_ (by omega)).append answer

theorem backed_append (backed : rt.Backed policy seen)
    (newer : ∀ mark ∈ rt.markAfter policy none seen, mark.observedAt < answer.observed)
    (fresh : Opens policy seen answer → ∀ mark ∈ rt.markAfter policy none seen, mark.Fresh rt policy answer) :
    rt.Backed policy (seen ++ [answer]) := by
  intro next marked at_ found some_ recent
  rw [markAfter_append] at marked
  cases earlier : rt.markAfter policy none seen with
  | none =>
    rw [earlier] at marked
    cases marked
    cases found
  | some mark =>
    rw [earlier] at marked
    cases marked
    change (if answer.online then mark.movedAt rt policy answer else none) = some at_ at found
    change answer.observed < at_ + policy.movementGraceSeconds at recent
    cases on : answer.online with
    | false =>
      rw [on] at found
      cases found
    | true =>
      rw [on, if_pos rfl] at found
      cases going : mark.continues policy answer with
      | true => exact movedAt_proven backed earlier (newer mark earlier) going found some_ recent.le
      | false =>
        have opens : Opens policy seen answer := ⟨on, (continues_last earlier answer).symm.trans going⟩
        have spent := fresh opens mark earlier
        unfold Mark.Fresh at spent
        unfold Mark.movedAt at found
        split at found
        · next moved_ =>
          rw [if_pos moved_] at spent
          cases found
          omega
        · next still =>
          rw [if_neg still] at spent
          have lapsed := spent at_ found
          omega

/-- Where the starts are fresh, active time rests on movement in its session. -/
theorem isolated_backed (rising : seen.Pairwise fun first second => first.observed < second.observed)
    (credited : seen.map Answer.seconds = rt.credits policy none seen)
    (fresh : rt.FreshStarts policy seen) : rt.Isolated policy seen ∧ rt.Backed policy seen := by
  induction seen using List.reverseRecOn with
  | nil =>
    refine ⟨fun before answer after same => absurd same (by simp), fun mark marked => ?_⟩
    cases marked
  | append_singleton seen answer ih =>
    obtain ⟨rising, -, later⟩ := pairwise_append.mp rising
    rw [map_append, credits_append] at credited
    obtain ⟨credited, last⟩ := append_inj credited (by rw [length_map, credits_length])
    have fresh_ : rt.FreshStarts policy seen := fun before other after same =>
      fresh before other (after ++ [answer]) (by rw [same]; simp)
    obtain ⟨isolated, backed⟩ := ih rising credited fresh_
    have newer : ∀ mark ∈ rt.markAfter policy none seen, mark.observedAt < answer.observed := by
      intro mark marked
      rcases eq_nil_or_concat seen with rfl | ⟨earlier, final, rfl⟩
      · cases marked
      · rw [concat_eq_append] at marked later
        obtain ⟨same, known, observed, -, -⟩ := @markAfter_last F rt policy final earlier
        cases (Option.mem_def.mp marked).symm.trans known
        rw [observed]
        exact later final (by simp) answer (by simp)
    refine ⟨fun before other after same active => ?_, backed_append backed newer (fresh seen answer [] rfl)⟩
    rcases eq_nil_or_concat after with rfl | ⟨rest, final, rfl⟩
    · obtain ⟨earlier, final⟩ := append_inj' same rfl
      rw [← singleton_inj.mp final] at active
      rw [← earlier, ← singleton_inj.mp final]
      cases marked : rt.markAfter policy none seen with
      | none =>
        rw [marked] at last
        exact absurd (singleton_inj.mp last) active
      | some mark =>
        rw [marked] at last
        have worth : answer.seconds = mark.seconds rt policy answer := singleton_inj.mp last
        rw [worth, Mark.seconds] at active
        split at active
        · next earns =>
          obtain ⟨going, recent⟩ := Bool.and_eq_true_iff.mp earns
          obtain ⟨at_, found, holds⟩ := (Option.any_eq_true ..).mp recent
          simp only [Bool.and_eq_true, decide_eq_true_eq] at holds
          exact movedAt_proven backed marked (newer mark marked) going found holds.1 (by omega)
        · exact absurd rfl active
    · rw [concat_eq_append, ← cons_append, ← append_assoc] at same
      exact isolated before other rest (append_inj' same rfl).1 active

structure Alike (policy : EngagementPolicy F) (mark other : Mark F) : Prop where
  observedAt : mark.observedAt = other.observedAt
  wasOnline : mark.wasOnline = other.wasOnline
  location : mark.location = other.location
  movement : mark.lastMovementAt = other.lastMovementAt ∨ mark.Spent policy ∧ other.Spent policy

theorem Spent.idle (spent : mark.Spent policy) (newer : mark.observedAt < answer.observed) :
    (mark.lastMovementAt.any fun at_ => decide (at_ ≠ 0) &&
      decide (answer.observed - at_ ≤ policy.movementGraceSeconds)) = false := by
  cases found : mark.lastMovementAt with
  | none => rfl
  | some at_ =>
    have lapsed := spent at_ found
    simp only [Option.any_some, Bool.and_eq_false_iff, decide_eq_false_iff_not]
    omega

theorem Spent.later (spent : mark.Spent policy) (newer : mark.observedAt < answer.observed)
    (still : rt.moved policy mark.location answer.location = false) :
    (mark.after rt policy answer).Spent policy := by
  intro at_ found
  change (if answer.online then mark.movedAt rt policy answer else none) = some at_ at found
  change at_ = 0 ∨ at_ + policy.movementGraceSeconds ≤ answer.observed
  split at found
  · rw [Mark.movedAt, still] at found
    have lapsed := spent at_ found
    omega
  · cases found

/-- An observation earns the same after either mark, and leaves marks that are alike. -/
theorem Alike.step (alike : Alike policy mark other) (newer : mark.observedAt < answer.observed) :
    mark.seconds rt policy answer = other.seconds rt policy answer ∧
      Alike policy (mark.after rt policy answer) (other.after rt policy answer) := by
  obtain ⟨observedAt, wasOnline, location, movement⟩ := alike
  have goes : mark.continues policy answer = other.continues policy answer := by
    rw [Mark.continues, Mark.continues, observedAt, wasOnline]
  cases moved_ : rt.moved policy mark.location answer.location with
  | true =>
    have also := location ▸ moved_
    have same : mark.movedAt rt policy answer = other.movedAt rt policy answer := by
      rw [Mark.movedAt, Mark.movedAt, moved_, also]
      rfl
    refine ⟨by rw [Mark.seconds, Mark.seconds, goes, same, observedAt], rfl, rfl, rfl, .inl ?_⟩
    rw [Mark.after, Mark.after, same]
  | false =>
    have also := location ▸ moved_
    have kept : mark.movedAt rt policy answer = mark.lastMovementAt := by
      rw [Mark.movedAt, moved_]
      rfl
    have keeps : other.movedAt rt policy answer = other.lastMovementAt := by
      rw [Mark.movedAt, also]
      rfl
    rcases movement with same | ⟨spent, lapsed⟩
    · refine ⟨?_, rfl, rfl, rfl, .inl ?_⟩
      · rw [Mark.seconds, Mark.seconds, goes, kept, keeps, same, observedAt]
      · rw [Mark.after, Mark.after, kept, keeps, same]
    · refine ⟨?_, rfl, rfl, rfl, .inr ⟨Spent.later spent newer moved_, Spent.later lapsed (observedAt ▸ newer) also⟩⟩
      rw [Mark.seconds, Mark.seconds, kept, keeps, Spent.idle spent newer,
        Spent.idle lapsed (observedAt ▸ newer), Bool.and_false, Bool.and_false,
        if_neg Bool.false_ne_true, if_neg Bool.false_ne_true]

theorem credits_alike (alike : Alike policy mark other) {rest : List (Answer F)}
    (rising : rest.Pairwise fun first second => first.observed < second.observed)
    (newer : ∀ answer ∈ rest, mark.observedAt < answer.observed) :
    rt.credits policy (some mark) rest = rt.credits policy (some other) rest := by
  induction rest generalizing mark other with
  | nil => rfl
  | cons answer rest ih =>
    obtain ⟨later, rising⟩ := pairwise_cons.mp rising
    obtain ⟨same, after⟩ := alike.step (newer answer mem_cons_self)
    exact congrArg₂ List.cons same (ih after rising later)

def unpaid (answer : Answer F) : Answer F := { answer with seconds := 0 }

theorem credits_unpaid (mark : Option (Mark F)) (seen : List (Answer F)) :
    rt.credits policy mark (seen.map unpaid) = rt.credits policy mark seen := by
  induction seen generalizing mark with
  | nil => cases mark <;> rfl
  | cons answer seen ih =>
    cases mark with
    | none => exact congrArg (0 :: ·) (ih _)
    | some mark => exact congrArg (mark.seconds rt policy answer :: ·) (ih _)

/-- A fresh observation that opens a session leaves nothing of the past. -/
theorem opened_spent {before : List (Answer F)} (opens : Opens policy before answer)
    (fresh : ∀ mark ∈ rt.markAfter policy none before, mark.Fresh rt policy answer) :
    ∃ next, next.observedAt = answer.observed ∧ next.wasOnline = answer.online ∧
      next.location = answer.location ∧ next.Spent policy ∧ ∀ rest : List (Answer F),
        rt.credits policy (rt.markAfter policy none before) (answer :: rest) =
          0 :: rt.credits policy (some next) rest := by
  cases marked : rt.markAfter policy none before with
  | none =>
    refine ⟨markOfFirst answer, rfl, rfl, rfl, fun at_ found => ?_, fun rest => rfl⟩
    cases found
  | some mark =>
    have starts : mark.continues policy answer = false := (continues_last marked answer).trans opens.2
    have nothing : mark.seconds rt policy answer = 0 := by
      rw [Mark.seconds, starts]
      rfl
    refine ⟨mark.after rt policy answer, rfl, rfl, rfl, fun at_ found => ?_, fun rest => ?_⟩
    · have spent := fresh mark marked
      change (if answer.online then mark.movedAt rt policy answer else none) = some at_ at found
      change at_ = 0 ∨ at_ + policy.movementGraceSeconds ≤ answer.observed
      rw [opens.1, if_pos rfl] at found
      unfold Mark.Fresh at spent
      unfold Mark.movedAt at found
      split at found
      · next moved_ =>
        rw [if_pos moved_] at spent
        cases found
        omega
      · next still =>
        rw [if_neg still] at spent
        exact spent at_ found
    · exact congrArg (· :: rt.credits policy (some (mark.after rt policy answer)) rest) nothing

theorem credits_opened {before other rest : List (Answer F)}
    (opens : Opens policy before answer) (also : Opens policy other answer)
    (fresh : ∀ mark ∈ rt.markAfter policy none before, mark.Fresh rt policy answer)
    (freshly : ∀ mark ∈ rt.markAfter policy none other, mark.Fresh rt policy answer)
    (rising : (answer :: rest).Pairwise fun first second => first.observed < second.observed) :
    rt.credits policy (rt.markAfter policy none before) (answer :: rest) =
      rt.credits policy (rt.markAfter policy none other) (answer :: rest) := by
  obtain ⟨first, observed, online, location, spent, credits_⟩ := opened_spent opens fresh
  obtain ⟨second, observed', online', location', spent', credits'⟩ := opened_spent also freshly
  obtain ⟨later, rising⟩ := pairwise_cons.mp rising
  rw [credits_, credits']
  refine congrArg (0 :: ·) (credits_alike ⟨observed.trans observed'.symm, online.trans online'.symm,
    location.trans location'.symm, .inr ⟨spent, spent'⟩⟩ rising fun answer member => ?_)
  rw [observed]
  exact later answer member

variable {config : Value F} {account : Int} {db after : Db F} {answers : List (Answer F)}

structure Replayed (rt : Platform F) (policy : EngagementPolicy F)
    (checkpoint : Option (EngagementCheckpoint F)) (seen : List (Answer F)) : Prop where
  mark : checkpoint.map markOf = rt.markAfter policy none seen
  last : checkpoint.map EngagementCheckpoint.observedAt = seen.getLast?.map Answer.observed
  seconds : seen.map Answer.seconds = rt.credits policy none seen
  rising : seen.Pairwise fun first second => first.observed < second.observed
  fresh : rt.FreshStarts policy seen

def FreshCall (rt : Platform F) (policy : EngagementPolicy F)
    (checkpoint : Option (EngagementCheckpoint F)) (answer : Answer F) : Prop :=
  ∀ row ∈ checkpoint, row.observedAt < answer.observed → answer.online = true →
    (row.wasOnline = false ∨ policy.maxObservationGapSeconds < answer.observed - row.observedAt) →
      (markOf row).Fresh rt policy answer

variable {row : EngagementCheckpoint F} {current : Location F}

theorem advance_mark {online : Bool} {observed : Int} {step : Advance F}
    (advanced : rt.advance policy row online observed current = .ok step)
    (account hours seconds : Int) :
    step.activeSeconds = (markOf row).seconds rt policy ⟨observed, online, current, seconds⟩ ∧
      markOf (nextCheckpoint account observed online current step hours) =
        (markOf row).after rt policy ⟨observed, online, current, seconds⟩ := by
  obtain ⟨⟨moved_, distance⟩, read, done⟩ := result_bind.mp advanced
  cases done
  have same : rt.moved policy row.location current = moved_ := by
    rw [moved, read]
    rfl
  have at_ : (markOf row).movedAt rt policy ⟨observed, online, current, seconds⟩ =
      if moved_ then some observed else row.lastMovementAt := by
    rw [Mark.movedAt, ← same]
    rfl
  refine ⟨?_, ?_⟩
  · rw [Mark.seconds, at_]
    rfl
  · rw [Mark.after, at_]
    rfl

theorem freshStarts_append (fresh : rt.FreshStarts policy seen)
    (marked : rt.markAfter policy none seen = some (markOf row))
    (newer : row.observedAt < answer.observed) (call : FreshCall rt policy (some row) answer) :
    rt.FreshStarts policy (seen ++ [answer]) := by
  intro before other after same opens mark found
  rcases eq_nil_or_concat after with rfl | ⟨rest, final, rfl⟩
  · obtain ⟨earlier, last⟩ := append_inj' same rfl
    rw [← earlier] at opens found
    rw [← singleton_inj.mp last] at opens ⊢
    cases found.symm.trans marked
    refine call row rfl newer opens.1 ?_
    have going : (markOf row).continues policy answer = false := (continues_last marked answer).trans opens.2
    rw [Mark.continues, opens.1] at going
    simp only [Bool.true_and, Bool.and_eq_false_iff, decide_eq_false_iff_not, not_le] at going
    exact going
  · rw [concat_eq_append, ← cons_append, ← append_assoc] at same
    exact fresh before other rest (append_inj' same rfl).1 opens mark found

theorem Replayed.answered (replayed : Replayed rt policy (db.engagement? account) (accepted answers))
    {online : Bool} {observed seconds : Int}
    (call : FreshCall rt policy (db.engagement? account) ⟨observed, online, current, seconds⟩)
    (step : rt.Answered policy account online observed current db seconds after) :
    Replayed rt policy (after.engagement? account) (accepted (answers ++ [⟨observed, online, current, seconds⟩])) := by
  obtain ⟨mark, last, credited, rising, fresh⟩ := replayed
  cases step with
  | first absent =>
    rw [absent, Option.map_none] at last
    have none_ : accepted answers = [] := List.getLast?_eq_none_iff.mp (Option.map_eq_none_iff.mp last.symm)
    have stored : (db.appendEngagement ⟨account, observed, online, current, none,
        if online then some observed else none, 0, 0⟩).engagement? account = some _ :=
      (Table.find_append (by exact absent) account).trans (if_pos rfl)
    have added : accepted (answers ++ [⟨observed, online, current, 0⟩]) = [⟨observed, online, current, 0⟩] := by
      rw [accepted_append, none_]
      rfl
    rw [stored, added]
    refine ⟨rfl, rfl, rfl, pairwise_singleton _ _, fun before other after same _ mark marked => ?_⟩
    cases before with
    | nil => cases marked
    | cons one rest =>
      cases rest <;> cases (List.cons.inj same).2
  | replay row present stale =>
    rw [present] at last
    obtain ⟨final, found, same⟩ := Option.map_eq_some_iff.mp last.symm
    have same : final.observed = row.observedAt := same
    rw [accepted_stale found (by rw [same]; exact stale)]
    exact ⟨mark, by rw [present]; exact last, credited, rising, fresh⟩
  | later row step hours recorded present newer advanced gains kept rest =>
    rw [present] at mark last call
    obtain ⟨final, found, same⟩ := Option.map_eq_some_iff.mp last.symm
    have same : final.observed = row.observedAt := same
    have added : accepted (answers ++ [⟨observed, online, current, step.activeSeconds⟩]) = _ :=
      accepted_later fun last known => by
        cases found.symm.trans known
        rw [same]
        exact newer
    have stored : (recorded.setEngagement (nextCheckpoint account observed online current step
        hours)).engagement? account = some (nextCheckpoint account observed online current step hours) :=
      congrArg Record.checkpoint (setEngagement_moves recorded
        (nextCheckpoint account observed online current step hours) kept).own
    obtain ⟨worth, marks⟩ := advance_mark advanced account hours step.activeSeconds
    rw [stored, added]
    refine ⟨?_, ?_, ?_, ?_, freshStarts_append fresh mark.symm newer call⟩
    · rw [Option.map_some, marks, markAfter_append, ← mark]
      rfl
    · rw [List.getLast?_concat]
      rfl
    · rw [map_append, credits_append, credited, ← mark]
      exact congrArg (_ ++ [·]) worth
    · refine pairwise_append.mpr ⟨rising, pairwise_singleton _ _, fun earlier member new there => ?_⟩
      rw [mem_singleton.mp there]
      change earlier.observed < observed
      obtain ⟨before, parts⟩ := List.getLast?_eq_some_iff.mp found
      rw [parts] at rising member
      rcases mem_append.mp member with old | ends
      · have below := (pairwise_append.mp rising).2.2 earlier old final (by simp)
        omega
      · rw [mem_singleton.mp ends, same]
        exact newer

theorem Answered.apart {own observed_ seconds_ : Int} {online_ : Bool} {current_ : Location F}
    (step : rt.Answered policy own online_ observed_ current_ db seconds_ after)
    (other : account ≠ own) : after.engagement? account = db.engagement? account := by
  cases step with
  | first absent =>
    exact congrArg Record.checkpoint ((appendEngagement_moves db ⟨own, observed_, online_, current_, none,
      if online_ then some observed_ else none, 0, 0⟩ absent).apart account other)
  | replay row present stale => rfl
  | later row step hours recorded present newer advanced gains kept rest =>
    have stored := setEngagement_moves recorded (nextCheckpoint own observed_ online_ current_ step hours) kept
    exact (congrArg Record.checkpoint (stored.apart account other)).trans (rest account other)

def FreshRun (rt : Platform F) (policy : EngagementPolicy F) (config : Value F) (account : Int)
    (db : Db F) (observations : List (Observation F)) : Prop :=
  ∀ before observation after, observations = before ++ observation :: after →
    ∀ answer ∈ rt.answer config account (rt.observeAll config db before) observation,
      FreshCall rt policy ((rt.observeAll config db before).engagement? account) answer

theorem Replayed.run (replayed : Replayed rt policy (db.engagement? account) (accepted answers))
    (read : rt.engagementConfig (.object [("engagementRewards", rt.orElse config (.dict []))]) =
      .ok policy) {observations : List (Observation F)}
    (fresh : FreshRun rt policy config account db observations) :
    Replayed rt policy ((rt.observeAll config db observations).engagement? account)
      (accepted (answers ++ rt.answers config account db observations)) := by
  induction observations generalizing db answers with
  | nil => exact (append_nil answers).symm ▸ replayed
  | cons observation rest ih =>
    have later : FreshRun rt policy config account (rt.observe config db observation) rest :=
      fun before other after same => fresh (observation :: before) other after (by rw [same]; rfl)
    have call := fresh [] observation rest rfl
    rw [Platform.answers, ← append_assoc]
    refine ih ?_ later
    rcases observe_answered read account observation with
      ⟨unchanged, unanswered⟩ | ⟨own, online, observed, current, seconds, opened, same, step, answered⟩
    · rw [unchanged, unanswered, Option.toList_none, append_nil]
      exact replayed
    · have kept : opened.engagement? account = db.engagement? account :=
        congrArg Record.checkpoint (same.record account)
      rw [answered]
      by_cases mine : own = account
      · subst mine
        rw [if_pos rfl]
        rw [if_pos rfl] at answered
        exact (kept.symm ▸ replayed).answered (kept.symm ▸ call _ answered) step
      · rw [if_neg mine, Option.toList_none, append_nil, step.apart (Ne.symm mine), kept]
        exact replayed

theorem replayed_run (unseen : db.engagement? account = none)
    (read : rt.engagementConfig (.object [("engagementRewards", rt.orElse config (.dict []))]) =
      .ok policy) {observations : List (Observation F)}
    (fresh : FreshRun rt policy config account db observations) :
    Replayed rt policy ((rt.observeAll config db observations).engagement? account)
      (accepted (rt.answers config account db observations)) := by
  have start : Replayed rt policy (db.engagement? account) (accepted []) := by
    rw [unseen]
    exact ⟨rfl, rfl, rfl, .nil, fun before answer after same => absurd same (by simp [accepted])⟩
  exact start.run read fresh

/-- An observation that opens a session without being fresh lets the next one earn where
nothing moved. -/
theorem stale_start_earns (positive : 0 < policy.maxObservationGapSeconds)
    (allowed : 0 ≤ policy.movementGraceSeconds) {observed : Int} {step : Advance F}
    (advanced : rt.advance policy row true observed current = .ok step) (account hours : Int)
    (stale : ¬ (markOf row).Fresh rt policy ⟨observed, true, current, step.activeSeconds⟩) :
    ∃ next, rt.advance policy (nextCheckpoint account observed true current step hours) true
      (observed + 1) unknownLocation = .ok next ∧ next.moved = false ∧ next.activeSeconds = 1 := by
  have marks := congrArg Mark.lastMovementAt (advance_mark advanced account hours step.activeSeconds).2
  have marks : step.lastMovementAt = (markOf row).movedAt rt policy
    ⟨observed, true, current, step.activeSeconds⟩ := marks
  have live : ∃ at_, step.lastMovementAt = some at_ ∧ at_ ≠ 0 ∧ observed < at_ + policy.movementGraceSeconds := by
    rw [marks, Mark.movedAt]
    unfold Mark.Fresh at stale
    split
    · next moved_ =>
      rw [if_pos moved_] at stale
      change ¬ (policy.movementGraceSeconds = 0 ∨ observed = 0) at stale
      exact ⟨observed, rfl, by omega⟩
    · next still =>
      rw [if_neg still] at stale
      push Not at stale
      obtain ⟨at_, found, some_, reaches⟩ := stale
      exact ⟨at_, found, some_, reaches⟩
  obtain ⟨at_, found, some_, reaches⟩ := live
  have still : rt.movementProven current unknownLocation policy.minimumMovementDistance = .ok (false, none) := by
    unfold movementProven
    cases current.map <;> rfl
  have ran : ∃ next, rt.advance policy (nextCheckpoint account observed true current step hours) true
      (observed + 1) unknownLocation = .ok next ∧ next.moved = false := by
    unfold advance
    rw [show rt.movementProven (nextCheckpoint account observed true current step hours).location
      unknownLocation policy.minimumMovementDistance = .ok (false, none) from still]
    exact ⟨_, rfl, rfl⟩
  obtain ⟨next, ran, unmoved⟩ := ran
  have kept : (markOf (nextCheckpoint account observed true current step hours)).movedAt rt policy
      ⟨observed + 1, true, unknownLocation, 0⟩ = some at_ := by
    rw [Mark.movedAt, moved]
    change (if (rt.movementProven current unknownLocation policy.minimumMovementDistance).toOption.any
      Prod.fst then _ else step.lastMovementAt) = _
    rw [still, found]
    rfl
  have goes : (markOf (nextCheckpoint account observed true current step hours)).continues policy
      ⟨observed + 1, true, unknownLocation, 0⟩ = true := by
    change (true && true && decide (observed + 1 - observed ≤ policy.maxObservationGapSeconds)) = true
    simp only [Bool.true_and, decide_eq_true_eq]
    omega
  refine ⟨next, ran, unmoved, ?_⟩
  rw [(advance_mark ran account 0 0).1, Mark.seconds, goes, kept]
  change (if (true && (decide (at_ ≠ 0) && decide (observed + 1 - at_ ≤ policy.movementGraceSeconds))) = true
    then max 0 (min (observed + 1 - observed) policy.maxObservationGapSeconds) else 0) = 1
  rw [if_pos (by simp only [Bool.true_and, Bool.and_eq_true, decide_eq_true_eq]; omega)]
  omega

theorem engagementConfig_grace {value : Value F} (read : rt.engagementConfig value = .ok policy) :
    0 ≤ policy.movementGraceSeconds :=
  (engagementConfig_ok read).1.2

structure SessionBound (rt : Platform F) (policy : EngagementPolicy F) (config : Value F)
    (account : Int) : Prop where
  isolated : ∀ (db : Db F) observations, db.engagement? account = none →
    FreshRun rt policy config account db observations →
      rt.Isolated policy (accepted (rt.answers config account db observations))
  same : ∀ (db other : Db F) observations others, db.engagement? account = none →
    other.engagement? account = none → FreshRun rt policy config account db observations →
      FreshRun rt policy config account other others → ∀ before start rest before' start' rest',
          accepted (rt.answers config account db observations) = before ++ start :: rest →
          accepted (rt.answers config account other others) = before' ++ start' :: rest' →
          Opens policy before start → Opens policy before' start' →
          (start :: rest).map unpaid = (start' :: rest').map unpaid →
            (start :: rest).map Answer.seconds = (start' :: rest').map Answer.seconds
  stale : ∀ row observed current step hours, rt.advance policy row true observed current = .ok step →
      ¬ (markOf row).Fresh rt policy ⟨observed, true, current, step.activeSeconds⟩ →
        ∃ next, rt.advance policy (nextCheckpoint account observed true current step hours) true
          (observed + 1) unknownLocation = .ok next ∧ next.moved = false ∧ next.activeSeconds = 1

theorem Replayed.rest {checkpoint : Option (EngagementCheckpoint F)}
    (replayed : Replayed rt policy checkpoint seen) {before rest : List (Answer F)}
    (parts : seen = before ++ rest) :
    rest.map Answer.seconds = rt.credits policy (rt.markAfter policy none before) rest := by
  have credited := replayed.seconds
  rw [parts, map_append, credits_append] at credited
  exact (append_inj credited (by rw [length_map, credits_length])).2

theorem movement_isolated (read : rt.engagementConfig (.object [("engagementRewards", rt.orElse config (.dict []))]) =
      .ok policy) (account : Int) : SessionBound rt policy config account where
  isolated db observations unseen fresh := by
    have replayed := replayed_run unseen read fresh
    exact (isolated_backed replayed.rising replayed.seconds replayed.fresh).1
  same db other observations others unseen also fresh freshly before start rest before' start' rest'
      parts parts' opens opens' agree := by
    have replayed := replayed_run unseen read fresh
    have replayed' := replayed_run also read freshly
    have rising : (start :: rest).Pairwise fun first second => first.observed < second.observed :=
      (pairwise_append.mp (parts ▸ replayed.rising)).2.1
    have heads : unpaid start = unpaid start' := (List.cons.inj agree).1
    have opens_ : Opens policy before' (unpaid start) := heads ▸ opens'
    have fresh_ : ∀ mark ∈ rt.markAfter policy none before', mark.Fresh rt policy (unpaid start) :=
      heads ▸ replayed'.fresh before' start' rest' parts' opens'
    rw [replayed.rest parts, replayed'.rest parts', credits_opened opens opens_
      (replayed.fresh before start rest parts opens) fresh_ rising, ← credits_unpaid _ (start :: rest),
      agree, credits_unpaid]
  stale row observed current step hours advanced stale :=
    stale_start_earns (rt.engagementConfig_gap policy read) (engagementConfig_grace read) advanced account hours stale

end Platform

deriving instance DecidableEq for Location

deriving instance DecidableEq for Answer

def unrewarded : Value FloatText :=
  .object [("enabled", .bool true)]

def transit : List (Observation FloatText) :=
  [⟨.int 7, .bool false, .int 1000, .object [("map", .str "Hagga Basin")], supplyOf "2024-01-01T00:00:00Z" []⟩,
    seenOn "Arrakeen" 1100 [], seenOn "Arrakeen" 1200 []]

namespace Platform

theorem proven_zip {rt : Platform F} {policy : EngagementPolicy F} {session : List (Answer F)}
    (proven : rt.Proven policy session) :
    (session.zip session.tail).any (fun pair => rt.moved policy pair.1.location pair.2.location) =
      true := by
  obtain ⟨before, first, second, after, rfl, moved_⟩ := proven
  induction before with
  | nil =>
    rw [nil_append, tail_cons, zip_cons_cons, any_cons, moved_, Bool.true_or]
  | cons head rest ih =>
    cases rest with
    | nil => simp_all
    | cons next rest => simp_all

end Platform

/-- Nothing moves in the session, and the change of map before it earns a hundred seconds. -/
theorem transit_earns : ∃ policy, plain.engagementConfig
        (.object [("engagementRewards", plain.orElse unrewarded (.dict []))]) = .ok policy ∧
      (¬ plain.Isolated policy (accepted (plain.answers unrewarded 7 (.empty FloatText) transit))) ∧
      ((accepted (plain.answers unrewarded 7 (.empty FloatText) transit)).drop 1).map Platform.unpaid =
        (accepted (plain.answers unrewarded 7 (.empty FloatText) (transit.drop 1))).map Platform.unpaid ∧
      ((accepted (plain.answers unrewarded 7 (.empty FloatText) transit)).drop 1).map Answer.seconds = [0, 100] ∧
      (accepted (plain.answers unrewarded 7 (.empty FloatText) (transit.drop 1))).map Answer.seconds = [0, 0] := by
  have evaluated : (plain.engagementConfig
      (.object [("engagementRewards", plain.orElse unrewarded (.dict []))])).toOption.map
        (fun policy => ((Platform.session policy
          (accepted (plain.answers unrewarded 7 (.empty FloatText) transit))).zip (Platform.session policy
          (accepted (plain.answers unrewarded 7 (.empty FloatText) transit))).tail).any
            fun pair => plain.moved policy pair.1.location pair.2.location) = some false := by
    decide +kernel
  have seconds : (accepted (plain.answers unrewarded 7 (.empty FloatText) transit)).map
      Answer.seconds = [0, 0, 100] := by
    decide +kernel
  cases read : plain.engagementConfig (.object [("engagementRewards", plain.orElse unrewarded (.dict []))]) with
  | error why =>
    rw [read] at evaluated
    cases evaluated
  | ok policy =>
    rw [read] at evaluated
    refine ⟨policy, rfl, fun isolated => ?_, by decide +kernel, by decide +kernel, by decide +kernel⟩
    generalize accepted (plain.answers unrewarded 7 (.empty FloatText) transit) = seen at *
    obtain ⟨first, rest, rfl, -, seconds⟩ := map_eq_cons_iff.mp seconds
    obtain ⟨second, rest, rfl, -, seconds⟩ := map_eq_cons_iff.mp seconds
    obtain ⟨third, rest, rfl, active, seconds⟩ := map_eq_cons_iff.mp seconds
    obtain rfl := map_eq_nil_iff.mp seconds
    have proven := isolated [first, second] third [] rfl (by rw [active]; decide)
    have found := Platform.proven_zip proven
    exact Bool.false_ne_true ((Option.some.inj evaluated).symm.trans found)

def walk : List (Observation FloatText) := [seenOn "Hagga Basin" 1000 [], seenOn "Arrakeen" 1100 []]

theorem walk_fresh {policy : EngagementPolicy FloatText} (allows : policy.maxObservationGapSeconds = 120) :
    Platform.FreshRun plain policy unrewarded 7 (.empty FloatText) walk := by
  have stored : ((plain.observeAll unrewarded (.empty FloatText)
      [seenOn "Hagga Basin" 1000 []]).engagement? 7).map (fun row => (row.observedAt, row.wasOnline)) =
        some (1000, true) := by
    decide
  have answered : (plain.answer unrewarded 7 (plain.observeAll unrewarded (.empty FloatText)
      [seenOn "Hagga Basin" 1000 []]) (seenOn "Arrakeen" 1100 [])).map Answer.observed = some 1100 := by
    decide
  intro before observation after parts answer found row there newer on opens
  match before, parts with
  | [], _ => cases there
  | [_], parts =>
    obtain ⟨head, parts⟩ := List.cons.inj parts
    obtain ⟨next, -⟩ := List.cons.inj parts
    subst head next
    rw [Option.mem_def.mp there] at stored
    rw [Option.mem_def.mp found] at answered
    have at_ : answer.observed = 1100 := Option.some.inj answered
    have seen : row.observedAt = 1000 := congrArg Prod.fst (Option.some.inj stored)
    have was : row.wasOnline = true := congrArg Prod.snd (Option.some.inj stored)
    rw [was, at_, seen, allows] at opens
    rcases opens with off | far
    · cases off
    · omega
  | _ :: _ :: _, parts =>
    have short := congrArg List.length parts
    simp [walk] at short

theorem movement_isolated_walk : ∃ policy, plain.engagementConfig
        (.object [("engagementRewards", plain.orElse unrewarded (.dict []))]) = .ok policy ∧
      plain.Isolated policy (accepted (plain.answers unrewarded 7 (.empty FloatText) walk)) ∧
      (accepted (plain.answers unrewarded 7 (.empty FloatText) walk)).map Answer.seconds = [0, 100] := by
  obtain ⟨policy, read, gap⟩ := @config_reads Int
    (.object [("engagementRewards", plain.orElse unrewarded (.dict []))]) 120
    EngagementPolicy.maxObservationGapSeconds (by decide)
  exact ⟨policy, read, (Platform.movement_isolated read 7).isolated (.empty FloatText) walk rfl
    (walk_fresh gap), by decide⟩

end Dash.Community
