import Mathlib.Algebra.Order.Ring.Rat
import Mathlib.Data.Rat.Cast.Order

/-! The scans for jobs that were cancelled or have failed: how often a poll reports each of them. -/

set_option autoImplicit false

namespace Dash.Presence.Scans

open List

inductive Status where
  | scheduled | executing | executed | cancelled | failed
  deriving DecidableEq

/-- A job of either file; a time that is missing or zero is none. -/
structure Job where
  id : String
  status : Status
  (createdAt executedAt cancelledAt : Option Rat)
  deriving DecidableEq

structure Files where
  (restarts announcements : List Job)

inductive Kind where
  | cancellation | failure

namespace Kind

def status : Kind → Status
  | cancellation => .cancelled
  | failure => .failed

def stamp (job : Job) : Kind → Rat
  | cancellation => job.cancelledAt.getD 0
  | failure => (job.executedAt.or job.createdAt).getD 0

def rows (files : Files) : Kind → List Job
  | cancellation => files.restarts ++ files.announcements
  | failure => files.restarts

def jobsSince (kind : Kind) (files : Files) (since : Rat) : List Job :=
  (kind.rows files).filter fun job => job.status = kind.status ∧ since < kind.stamp job

end Kind

def cancelledJobsSince : Files → Rat → List Job := Kind.cancellation.jobsSince

def failedRestartJobsSince : Files → Rat → List Job := Kind.failure.jobsSince

/-- A poll: the time it starts with, in whole seconds, and when each scan reads the files. -/
structure Poll where
  clock : Int
  scan : Kind → Rat

variable (files : Rat → Files)

/-- The two scans of `check_once`, for each poll: the jobs that its report is about, which is sent if there are
any. The time of the last scan is `lastMaintenanceCancelScanAt` or `lastRestartFailureScanAt`. -/
def reports (kind : Kind) : Option Int → List Poll → List (List Job)
  | _, [] => []
  | last, poll :: rest =>
    kind.jobsSince (files (poll.scan kind)) ((last.getD (poll.clock - 3600) : Int) : Rat) ::
      reports kind (some poll.clock) rest

structure Ordered (kind : Kind) (polls : List Poll) : Prop where
  clocks : polls.Pairwise fun earlier later => earlier.clock ≤ later.clock
  scans : polls.Pairwise fun earlier later => earlier.scan kind ≤ later.scan kind

/-- From the time on, the job is in the files as it is: it was written then. -/
def Written (kind : Kind) (job : Job) (time : Rat) : Prop :=
  job.status = kind.status ∧ ∀ other, job ∈ kind.rows (files other) ↔ time ≤ other

/-- Each job that is written after the first scan and seen by a later one is in one report. -/
def Once (kind : Kind) (first : Poll) (later : List Poll) : Prop :=
  ∀ job time, Written files kind job time → first.scan kind < time → (∃ poll ∈ later, time ≤ poll.scan kind) →
    (reports files kind none (first :: later)).countP (fun report => job ∈ report) = 1

/-- The first poll to see the job is the last one, or starts at or after the job's time, and the poll before it
starts before that time. -/
def Timely (kind : Kind) (stamp time : Rat) : Int → List Poll → Prop
  | _, [] => True
  | last, poll :: rest =>
    if time ≤ poll.scan kind then last < stamp ∧ (rest = [] ∨ stamp ≤ poll.clock)
    else Timely kind stamp time poll.clock rest

variable {files} {kind : Kind} {job : Job} {time : Rat} {polls : List Poll} {last : Int}

/-- How many reports the job is in. -/
def times (files : Rat → Files) (kind : Kind) (job : Job) (last : Option Int) (polls : List Poll) : Nat :=
  (reports files kind last polls).countP fun report => job ∈ report

section Written

variable (written : Written files kind job time)
include written

theorem times_cons (last : Option Int) (poll : Poll) (rest : List Poll) :
    times files kind job last (poll :: rest) = times files kind job (some poll.clock) rest +
      if time ≤ poll.scan kind ∧ (last.getD (poll.clock - 3600) : Int) < kind.stamp job then 1 else 0 := by
  rw [times, reports, countP_cons, times]
  congr 2
  simp [Kind.jobsSince, written.1, written.2]

theorem times_past (late : kind.stamp job ≤ last) (clocks : ∀ poll ∈ polls, last ≤ poll.clock)
    (ordered : Ordered kind polls) : times files kind job (some last) polls = 0 := by
  induction polls generalizing last with
  | nil => rfl
  | cons poll rest ih =>
    have later : kind.stamp job ≤ poll.clock := late.trans (by exact_mod_cast clocks poll mem_cons_self)
    obtain ⟨after, clocks⟩ := pairwise_cons.mp ordered.clocks
    rw [times_cons written, ih later after ⟨clocks, ordered.scans.of_cons⟩, if_neg fun both => both.2.not_ge late]

/-- After a poll that sees the job, the job is in no report if there is no poll, or the poll was not too early. -/
theorem times_seen (seen : ∀ poll ∈ polls, time ≤ poll.scan kind) (clocks : ∀ poll ∈ polls, last ≤ poll.clock)
    (ordered : Ordered kind polls) :
    times files kind job (some last) polls = 0 ↔ polls = [] ∨ kind.stamp job ≤ last := by
  constructor
  · intro none_
    cases polls with
    | nil => exact .inl rfl
    | cons poll rest =>
      rw [times_cons written, Nat.add_eq_zero_iff, ite_eq_right_iff] at none_
      refine .inr (not_lt.mp fun early => ?_)
      exact absurd (none_.2 ⟨seen poll mem_cons_self, early⟩) Nat.one_ne_zero
  · rintro (rfl | late)
    · rfl
    · exact times_past written late clocks ordered

theorem times_once (clocks : ∀ poll ∈ polls, last ≤ poll.clock) (ordered : Ordered kind polls)
    (seen : ∃ poll ∈ polls, time ≤ poll.scan kind) :
    times files kind job (some last) polls = 1 ↔ Timely kind (kind.stamp job) time last polls := by
  induction polls generalizing last with
  | nil => simp at seen
  | cons poll rest ih =>
    obtain ⟨after, laterClocks⟩ := pairwise_cons.mp ordered.clocks
    obtain ⟨below, laterScans⟩ := pairwise_cons.mp ordered.scans
    have later : Ordered kind rest := ⟨laterClocks, laterScans⟩
    rw [times_cons written, Timely]
    by_cases visible : time ≤ poll.scan kind
    · rw [if_pos visible, Option.getD_some]
      have quiet := times_seen written (fun other member => visible.trans (below other member)) after later
      by_cases early : (last : Rat) < kind.stamp job
      · rw [if_pos ⟨visible, early⟩, and_iff_right early, ← quiet]
        omega
      · have late : kind.stamp job ≤ poll.clock :=
          (not_lt.mp early).trans (by exact_mod_cast clocks poll mem_cons_self)
        rw [if_neg fun both => early both.2, quiet.mpr (.inr late)]
        simp [early]
    · rw [if_neg visible, if_neg fun both => visible both.1, Nat.add_zero]
      exact ih after later (by simpa [visible] using seen)

end Written

theorem once_iff_timely (kind : Kind) (first : Poll) (later : List Poll) (ordered : Ordered kind (first :: later)) :
    Once files kind first later ↔ ∀ job time, Written files kind job time → first.scan kind < time →
      (∃ poll ∈ later, time ≤ poll.scan kind) → Timely kind (kind.stamp job) time first.clock later := by
  obtain ⟨after, clocks⟩ := pairwise_cons.mp ordered.clocks
  refine forall₂_congr fun job time => forall₃_congr fun written fresh seen => ?_
  rw [← times_once written after ⟨clocks, ordered.scans.of_cons⟩ seen]
  change times files kind job none (first :: later) = 1 ↔ _
  rw [times_cons written, if_neg fun both => both.1.not_gt fresh, Nat.add_zero]

def cancelled : Job := ⟨"job", .cancelled, some 90, none, some (203 / 2)⟩

/-- The job is cancelled in the middle of second 101. -/
def cancelledFiles (time : Rat) : Files := ⟨if 203 / 2 ≤ time then [cancelled] else [], []⟩

theorem cancelled_written : Written cancelledFiles .cancellation cancelled (203 / 2) :=
  ⟨rfl, fun time => by simp [cancelledFiles, Kind.rows]⟩

def pollAt (clock : Int) (scan : Rat) : Poll := ⟨clock, fun _ => scan⟩

theorem once_later : Once cancelledFiles .cancellation (pollAt 100 100) [pollAt 102 102, pollAt 103 103] := by
  refine (once_iff_timely .cancellation (pollAt 100 100) [pollAt 102 102, pollAt 103 103]
    ⟨by decide +kernel, by decide +kernel⟩).mpr fun job time written _ seen => ?_
  have shown : job ∈ Kind.cancellation.rows (cancelledFiles time) := (written.2 time).mpr le_rfl
  obtain ⟨late, rfl⟩ : 203 / 2 ≤ time ∧ job = cancelled := by simpa [cancelledFiles, Kind.rows] using shown
  have whole : time ≤ 203 / 2 := (written.2 _).mp (by simp [cancelledFiles, Kind.rows])
  obtain rfl := le_antisymm whole late
  exact (if_pos (by decide +kernel)).mpr ⟨by decide +kernel, .inr (by decide +kernel)⟩

/-- The next poll starts in the second of the cancellation and reads after it; the one after reports it again. -/
theorem cancelled_reported_twice :
    ¬ Once cancelledFiles .cancellation (pollAt 100 100) [pollAt 101 102, pollAt 103 103] := by
  intro once
  have reported := once cancelled (203 / 2) cancelled_written (by decide +kernel)
    ⟨pollAt 101 102, by simp, by decide +kernel⟩
  revert reported
  decide +kernel

end Dash.Presence.Scans
