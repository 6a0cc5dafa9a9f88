import Dash.Maintenance.Refused
import Mathlib.Tactic.Linarith

/-! The countdown of an announcement under a worker that comes often enough and delivers at once.

The time of the next send follows from the interval in force at the last one. A window of the cadence is
served when no such interval reaches further into it than its own interval.
-/

set_option autoImplicit false

namespace Dash.Maintenance

open Python List

section Rounds

variable {T : Type} [LinearOrder T]

/-- A turn of the worker: when, and what the executions of due restarts come to. -/
structure Turn (T : Type) where
  now : T
  execution : Execution

def instant (now : T) : Readings T := ⟨now, now, now, now⟩

def round (settings : JobSettings T) (turn : Turn T) (board : Board T) : Board T :=
  let marked := mark turn.now board
  let sent := marked.dueJobs.foldl
    (fun board _ => deliver settings { ok := true } (instant turn.now) board) marked
  sent.dueRestarts.foldl (fun board _ => finish settings turn.execution turn.now board) sent

def sends (settings : JobSettings T) (board : Board T) : List (Turn T) → List (T × String)
  | [] => []
  | turn :: rest =>
    (mark turn.now board).dueJobs.map (fun due => (turn.now, due.id)) ++
      sends settings (round settings turn board) rest

def sendTimes (settings : JobSettings T) (id : String) (board : Board T) (turns : List (Turn T)) : List T :=
  ((sends settings board turns).filter fun send => send.2 = id).map Prod.fst

def pollJob (settings : JobSettings T) (now : T) (job : Announcement T) : Announcement T :=
  if dueAnnouncement now job then
    delivered settings { ok := true } (instant now) (markAnnouncement now job)
  else markAnnouncement now job

def jobTimes (settings : JobSettings T) (job : Announcement T) : List T → List T
  | [] => []
  | now :: rest =>
    if dueAnnouncement now job then now :: jobTimes settings (pollJob settings now job) rest
    else jobTimes settings (pollJob settings now job) rest

structure Alone (others : List (Announcement T)) (job : Announcement T) (board : Board T) : Prop where
  announcements : board.announcements = others ++ [job]
  ended : ∀ other ∈ others, other.active = false
  sent : board.dueJobs = []
  executed : board.dueRestarts = []

variable {settings : JobSettings T} {others : List (Announcement T)} {job : Announcement T}
  {board : Board T} {turn : Turn T}

theorem markAnnouncement_id (now : T) (job : Announcement T) : (markAnnouncement now job).id = job.id :=
  (markAnnouncement_fields now job).1

theorem delivered_id (result : Delivery) (readings : Readings T) (job : Announcement T) :
    (delivered settings result readings job).id = job.id :=
  (delivered_fields settings result readings job).1

theorem pollJob_id (now : T) (job : Announcement T) : (pollJob settings now job).id = job.id := by
  unfold pollJob
  split
  · rw [delivered_id, markAnnouncement_id]
  · exact markAnnouncement_id now job

theorem dueAnnouncement_active {now : T} (due : dueAnnouncement now job = true) : job.active = true := by
  simp only [dueAnnouncement, Bool.and_eq_true] at due
  exact due.1.1

theorem markAnnouncement_ended {now : T} (ended : job.active = false) : markAnnouncement now job = job := by
  simp [markAnnouncement, ended]

theorem markAnnouncement_due {now : T} (due : dueAnnouncement now job = true) :
    markAnnouncement now job = { job with status := .delivering } := by
  simp only [dueAnnouncement, Bool.and_eq_true, Bool.not_eq_true', decide_eq_true_eq] at due
  simp [markAnnouncement, due.1.1, due.1.2, due.2]

theorem Alone.mark (alone : Alone others job board) (now : T) :
    (mark now board).announcements = others ++ [markAnnouncement now job] ∧
      (mark now board).dueJobs = if dueAnnouncement now job then [markAnnouncement now job] else [] := by
  have kept : others.map (markAnnouncement now) = others :=
    map_congr_left (fun other member => markAnnouncement_ended (alone.ended other member)) |>.trans (map_id _)
  have idle : others.filter (dueAnnouncement now) = [] := by
    refine filter_eq_nil_iff.mpr fun other member due => ?_
    exact absurd (dueAnnouncement_active due) (by simp [alone.ended other member])
  rw [Maintenance.mark, if_pos ⟨alone.sent, alone.executed⟩]
  simp only [alone.announcements, map_append, kept, filter_append, idle, nil_append, map_cons, map_nil, true_and]
  by_cases due : dueAnnouncement now job = true <;> simp [due]

omit [LinearOrder T] in
/-- Executions leave the announcements. -/
theorem finish_announcements (execution : Execution) (now : T) (board : Board T) :
    (finish settings execution now board).announcements = board.announcements := by
  unfold finish
  split <;> rfl

omit [LinearOrder T] in
theorem finish_all (settings : JobSettings T) (execution : Execution) (now : T)
    (dueRestarts : List (Restart T)) (board : Board T)
    (sent : board.dueJobs = []) (same : board.dueRestarts = dueRestarts) :
    let after := dueRestarts.foldl (fun board _ => finish settings execution now board) board
    after.announcements = board.announcements ∧ after.dueJobs = [] ∧ after.dueRestarts = [] := by
  induction dueRestarts generalizing board with
  | nil => exact ⟨rfl, sent, same⟩
  | cons due rest ih =>
    have left : (finish settings execution now board).dueJobs = [] ∧
        (finish settings execution now board).dueRestarts = rest := by
      rw [finish, sent, same]
      exact ⟨rfl, rfl⟩
    obtain ⟨jobs, restarts⟩ := left
    obtain ⟨announcements, jobsAfter, restartsAfter⟩ := ih _ jobs restarts
    exact ⟨announcements.trans (finish_announcements execution now board), jobsAfter, restartsAfter⟩

theorem Alone.round (settings : JobSettings T) (alone : Alone others job board) (turn : Turn T) :
    Alone others (pollJob settings turn.now job) (round settings turn board) := by
  obtain ⟨announcements, dueJobs⟩ := alone.mark turn.now
  unfold Maintenance.round
  by_cases due : dueAnnouncement turn.now job = true
  · rw [if_pos due] at dueJobs
    have marked := markAnnouncement_due due
    have delivering : (markAnnouncement turn.now job).active = true := by
      rw [marked]
      rfl
    have left : (deliver settings { ok := true } (instant turn.now) (Maintenance.mark turn.now board)).announcements =
        others ++ [pollJob settings turn.now job] := by
      rw [deliver, dueJobs]
      dsimp only
      rw [announcements, map_append, map_cons, map_nil, delivering, pollJob, if_pos due]
      congr 1
      · refine map_congr_left (fun other member => ?_) |>.trans (map_id _)
        simp [alone.ended other member]
      · simp
    have idle : (deliver settings { ok := true } (instant turn.now)
        (Maintenance.mark turn.now board)).dueJobs = [] := by
      rw [deliver, dueJobs]
    simp only [dueJobs, foldl_cons, foldl_nil]
    obtain ⟨same, jobs, restarts⟩ := finish_all settings turn.execution turn.now _ _ idle rfl
    exact ⟨same.trans left, alone.ended, jobs, restarts⟩
  · rw [if_neg due] at dueJobs
    simp only [dueJobs, foldl_nil]
    obtain ⟨same, jobs, restarts⟩ := finish_all settings turn.execution turn.now _ _ dueJobs rfl
    refine ⟨same.trans ?_, alone.ended, jobs, restarts⟩
    rw [announcements, pollJob, if_neg due]

theorem Alone.sendTimes (alone : Alone others job board) (turns : List (Turn T)) :
    sendTimes settings job.id board turns = jobTimes settings job (turns.map Turn.now) := by
  induction turns generalizing board job with
  | nil => rfl
  | cons turn rest ih =>
    have later := ih (alone.round settings turn)
    rw [pollJob_id] at later
    rw [Maintenance.sendTimes, sends, (alone.mark turn.now).2, filter_append, map_append]
    change _ ++ Maintenance.sendTimes settings job.id (Maintenance.round settings turn board) rest = _
    rw [later, map_cons, jobTimes]
    split
    · simp [markAnnouncement_id]
    · rfl

end Rounds

structure JobSettings.Exact (settings : JobSettings Rat) : Prop where
  add : ∀ time seconds, settings.add time seconds = time + seconds
  remains : ∀ restartAt now seconds,
    settings.remainsWithin restartAt now seconds = decide (max 0 (restartAt - now) ≤ seconds)

def Often (pause : Rat) : Rat → List Rat → Prop
  | _, [] => True
  | before, now :: rest => before ≤ now ∧ now ≤ before + pause ∧ Often pause now rest

instance decidableOften (pause : Rat) :
    (before : Rat) → (polls : List Rat) → Decidable (Often pause before polls)
  | _, [] => inferInstanceAs (Decidable True)
  | before, now :: rest =>
    have := decidableOften pause now rest
    inferInstanceAs (Decidable (before ≤ now ∧ now ≤ before + pause ∧ Often pause now rest))

/-- The time remaining is at most the entry's, and more than the next smaller threshold. -/
structure InWindow (job : Announcement Rat) (entry : Cadence) (time : Rat) : Prop where
  inside : job.restartAt - time ≤ entry.remainingSeconds
  before : time ≤ job.restartAt
  larger : ∀ other ∈ job.cadence, other.remainingSeconds < entry.remainingSeconds →
    other.remainingSeconds < job.restartAt - time

/-- After a send at this time the job stays scheduled, and before the next one, a pause after the interval
in force, no window is longer open than its own interval and a pause. -/
structure Timely (settings : JobSettings Rat) (pause : Rat) (job : Announcement Rat) (time : Rat) :
    Prop where
  recurs : 0 < announcementNextInterval settings job time
  reaches : ∀ entry ∈ job.cadence, ∀ moment, InWindow job entry moment → time ≤ moment →
    moment ≤ time + announcementNextInterval settings job time + pause →
    moment ≤ max time (job.restartAt - entry.remainingSeconds) + entry.intervalSeconds + pause

structure Waiting (job current : Announcement Rat) : Prop where
  active : current.active = true
  unfinished : current.finalSentAt = none
  restartAt : current.restartAt = job.restartAt
  cadence : current.cadence = job.cadence
  repeatSeconds : current.repeatSeconds = job.repeatSeconds
  sends : current.nextSendAt ≤ job.restartAt

section Times

variable {settings : JobSettings Rat} {job current : Announcement Rat} {pause now before : Rat}
  {polls : List Rat} {entry : Cadence}

theorem Waiting.due (waiting : Waiting job current) :
    dueAnnouncement now current = decide (current.nextSendAt ≤ now) := by
  simp [dueAnnouncement, expires, waiting.active, waiting.unfinished]

theorem Waiting.isDue (waiting : Waiting job current) (due : current.nextSendAt ≤ now) :
    dueAnnouncement now current = true := by
  rw [waiting.due]
  exact decide_eq_true due

theorem Waiting.undue (waiting : Waiting job current) (early : now < current.nextSendAt) :
    dueAnnouncement now current = false := by
  rw [waiting.due]
  exact decide_eq_false (not_le.mpr early)

theorem Waiting.early (waiting : Waiting job current) (early : now < current.nextSendAt) :
    pollJob settings now current = current := by
  rw [pollJob, if_neg (by simp [waiting.undue early]), markAnnouncement]
  simp [waiting.active, expires, waiting.unfinished, not_le.mpr early]

theorem jobTimes_ended (ended : current.active = false) : jobTimes settings current polls = [] := by
  induction polls with
  | nil => rfl
  | cons now rest ih =>
    have undue : dueAnnouncement now current = false := by simp [dueAnnouncement, ended]
    rw [jobTimes, pollJob, undue, if_neg Bool.false_ne_true, if_neg Bool.false_ne_true,
      markAnnouncement_ended ended, ih]

theorem announcementNextInterval_congr (settings : JobSettings Rat) (job : Announcement Rat)
    (status : AnnouncementStatus) (count : Nat) (sent : Option Rat) (error : Option String) (now : Rat) :
    announcementNextInterval settings { job with
      status := status, deliveryCount := count, lastSentAt := sent, lastError := error } now =
      announcementNextInterval settings job now := rfl

theorem Waiting.final (waiting : Waiting job current) (due : current.nextSendAt ≤ now)
    (late : job.restartAt ≤ now) : (pollJob settings now current).active = false := by
  rw [pollJob, if_pos (waiting.isDue due), markAnnouncement_due (waiting.isDue due)]
  have spent : current.restartAt ≤ now := waiting.restartAt ▸ late
  simp only [delivered, instant, spent, if_true]
  rfl

/-- A timely send before the restart leaves the job waiting for the next one. -/
theorem Waiting.send (exact : settings.Exact) (waiting : Waiting job current)
    (due : current.nextSendAt ≤ now) (early : now < job.restartAt)
    (timely : Timely settings pause job now) :
    Waiting job (pollJob settings now current) ∧ (pollJob settings now current).nextSendAt =
        min (now + announcementNextInterval settings job now) job.restartAt := by
  have interval : announcementNextInterval settings current now =
      announcementNextInterval settings job now := by
    simp [announcementNextInterval, waiting.cadence, waiting.restartAt, waiting.repeatSeconds]
  have unspent : ¬ current.restartAt ≤ now := not_le.mpr (waiting.restartAt ▸ early)
  have recurs : ¬ announcementNextInterval settings job now ≤ 0 := not_le.mpr timely.recurs
  have left : pollJob settings now current = { current with
      deliveryCount := current.deliveryCount + 1
      lastSentAt := some now
      lastError := none
      status := .scheduled
      nextSendAt := min (now + announcementNextInterval settings job now) job.restartAt } := by
    rw [pollJob, if_pos (waiting.isDue due), markAnnouncement_due (waiting.isDue due)]
    unfold delivered
    dsimp only
    rw [announcementNextInterval_congr, instant]
    dsimp only
    rw [interval, if_neg unspent, if_neg recurs, exact.add, waiting.restartAt]
    rfl
  rw [left]
  exact ⟨⟨rfl, waiting.unfinished, waiting.restartAt, waiting.cadence, waiting.repeatSeconds, min_le_right _ _⟩, rfl⟩

/-- From the last send on, every long enough span of a window has a send. -/
theorem spans_served (exact : settings.Exact) (known : entry ∈ job.cadence)
    (positive : 0 < entry.intervalSeconds) {first last since : Rat}
    (start : InWindow job entry first) (stop : InWindow job entry last) (after : since ≤ first)
    (long : entry.intervalSeconds + pause < last - first)
    (reached : ∃ poll ∈ polls, last ≤ poll) (often : Often pause before polls)
    (waiting : Waiting job current) (ahead : before ≤ current.nextSendAt)
    (reaches : ∀ moment, InWindow job entry moment → since ≤ moment → moment ≤ current.nextSendAt + pause →
      moment ≤ max since (job.restartAt - entry.remainingSeconds) + entry.intervalSeconds + pause)
    (timely : ∀ time ∈ jobTimes settings current polls, time < job.restartAt → Timely settings pause job time) :
    ∃ time ∈ jobTimes settings current polls, first ≤ time ∧ time ≤ last := by
  have interval : (0 : Rat) < entry.intervalSeconds := by exact_mod_cast positive
  induction polls generalizing current before since with
  | nil => simp at reached
  | cons now rest ih =>
    obtain ⟨forward, soon, oftenAfter⟩ := often
    have ordered : first ≤ last := by linarith
    -- The span is too long to end before the next send.
    have ends : current.nextSendAt + pause < last := by
      by_contra later
      have bound := reaches last stop (after.trans ordered) (not_lt.mp later)
      have begins : job.restartAt - entry.remainingSeconds ≤ first := by
        have := start.inside
        linarith
      have latest := max_le after begins
      linarith
    have later : last ≤ now ∨ ∃ poll ∈ rest, last ≤ poll := (exists_mem_cons_iff ..).mp reached
    by_cases due : current.nextSendAt ≤ now
    · rw [jobTimes, if_pos (waiting.isDue due)] at timely ⊢
      by_cases inside : first ≤ now
      · exact ⟨now, mem_cons_self, inside, by linarith⟩
      · push Not at inside
        have early : now < job.restartAt := inside.trans_le start.before
        have here := timely now mem_cons_self early
        obtain ⟨again, next⟩ := waiting.send exact due early here
        have positiveNext : (0 : Rat) < announcementNextInterval settings job now := by
          exact_mod_cast here.recurs
        have coming : ∃ poll ∈ rest, last ≤ poll := later.resolve_left (by linarith)
        obtain ⟨time, member, span⟩ := ih inside.le coming oftenAfter again (next ▸ le_min (by linarith) early.le)
          (fun moment within above below => here.reaches entry known moment within above
            (below.trans (add_le_add_left (next ▸ min_le_left _ _) _)))
          (fun time member => timely time (mem_cons_of_mem _ member))
        exact ⟨time, mem_cons_of_mem _ member, span⟩
    · push Not at due
      rw [jobTimes, waiting.undue due, if_neg Bool.false_ne_true, waiting.early due] at timely ⊢
      exact ih after (later.resolve_left (by linarith)) oftenAfter waiting due.le reaches timely

/-- The job is sent once at or after the restart, within a pause. -/
theorem last_sent_once (exact : settings.Exact) (reached : ∃ poll ∈ polls, job.restartAt ≤ poll)
    (often : Often pause before polls) (waiting : Waiting job current)
    (ahead : before ≤ current.nextSendAt)
    (timely : ∀ time ∈ jobTimes settings current polls, time < job.restartAt → Timely settings pause job time) :
    ∃ last, (jobTimes settings current polls).filter (fun time => job.restartAt ≤ time) = [last] ∧
      last ≤ job.restartAt + pause := by
  induction polls generalizing current before with
  | nil => simp at reached
  | cons now rest ih =>
    obtain ⟨forward, soon, oftenAfter⟩ := often
    have sends := waiting.sends
    have later : job.restartAt ≤ now ∨ ∃ poll ∈ rest, job.restartAt ≤ poll := (exists_mem_cons_iff ..).mp reached
    by_cases due : current.nextSendAt ≤ now
    · rw [jobTimes, if_pos (waiting.isDue due)] at timely ⊢
      by_cases late : job.restartAt ≤ now
      · rw [jobTimes_ended (waiting.final due late)]
        exact ⟨now, by simp [late], by linarith⟩
      · have early := not_le.mp late
        have here := timely now mem_cons_self early
        obtain ⟨again, next⟩ := waiting.send exact due early here
        have positiveNext : (0 : Rat) < announcementNextInterval settings job now := by
          exact_mod_cast here.recurs
        rw [filter_cons_of_neg (by simpa using early)]
        exact ih (later.resolve_left late) oftenAfter again (next ▸ le_min (by linarith) early.le)
          fun time member => timely time (mem_cons_of_mem _ member)
    · push Not at due
      rw [jobTimes, waiting.undue due, if_neg Bool.false_ne_true, waiting.early due] at timely ⊢
      exact ih (later.resolve_left (by linarith)) oftenAfter waiting due.le timely

end Times

section Accepted

variable {F : Type} {rt : Panel F Rat} {fields : AnnouncementFields F Rat} {id : String} {now : Rat}
  {board placed : Board Rat} {job : Announcement Rat}

theorem delays_nonneg {delay : String} {seconds : Int}
    (found : announcementDelays.lookup delay = some seconds) : 0 ≤ seconds := by
  obtain ⟨before, after, same, -⟩ := lookup_eq_some_iff.mp found
  have all : ∀ row ∈ announcementDelays, 0 ≤ row.2 := by decide
  exact all (delay, seconds) (by rw [same]; simp)

theorem cadenceEntry_positive {value : Value F} {entry : Cadence}
    (accepted : rt.cadenceEntry value = .ok entry) : 0 < entry.intervalSeconds := by
  unfold Panel.cadenceEntry at accepted
  split at accepted
  · cases accepted
  obtain ⟨remaining, -, accepted⟩ := result_bind.mp accepted
  obtain ⟨interval, -, accepted⟩ := result_bind.mp accepted
  split at accepted
  · cases accepted
  split at accepted
  · cases accepted
  cases accepted
  change 0 < interval
  omega

theorem cadenceOf_positive {value : Value F} {cadence : List Cadence}
    (accepted : rt.cadenceOf value = .ok cadence) : ∀ entry ∈ cadence, 0 < entry.intervalSeconds := by
  unfold Panel.cadenceOf at accepted
  split at accepted
  · cases accepted
    simp
  · intro entry member
    obtain ⟨value, -, one⟩ := Foundation.Attempts.mapM_each accepted member
    exact cadenceEntry_positive one
  · cases accepted

/-- An accepted job waits for its first send, which is not before now, and its intervals are positive. -/
theorem announcement_waiting (exact : rt.settings.Exact) (accepted : rt.announcement fields id now = .ok job) :
    Waiting job job ∧ now ≤ job.nextSendAt ∧ ∀ entry ∈ job.cadence, 0 < entry.intervalSeconds := by
  unfold Panel.announcement at accepted
  dsimp only at accepted
  split at accepted
  · cases accepted
  split at accepted
  · cases accepted
  split at accepted
  · cases accepted
  rename_i seconds found
  obtain ⟨repeatSeconds, -, accepted⟩ := result_bind.mp accepted
  split at accepted
  · cases accepted
  obtain ⟨cadence, entries, accepted⟩ := result_bind.mp accepted
  obtain ⟨restartAt, timed, accepted⟩ := result_bind.mp accepted
  obtain ⟨nextSendAt, -, same⟩ := result_bind.mp accepted
  have later : now ≤ restartAt := by
    split at timed
    · cases timed
      have positive : (0 : Rat) ≤ seconds := by exact_mod_cast delays_nonneg found
      rw [exact.add]
      linarith
    · obtain ⟨read, -, timed⟩ := result_bind.mp timed
      split at timed
      · cases timed
      · rename_i ahead
        cases timed
        exact not_lt.mp ahead
  cases same
  refine ⟨⟨rfl, rfl, rfl, rfl, rfl, min_le_right _ _⟩, le_min (le_max_right _ _) later, ?_⟩
  intro entry member
  exact cadenceOf_positive entries entry (mem_mergeSort.mp member)

theorem scheduleAnnouncement_alone (sent : board.dueJobs = []) (executed : board.dueRestarts = [])
    (accepted : rt.scheduleAnnouncement fields id now board = (placed, .ok job)) :
    rt.announcement fields id now = .ok job ∧ Alone (board.announcements.map supersedeAnnouncement) job placed := by
  unfold Panel.scheduleAnnouncement at accepted
  split at accepted
  · cases accepted
  · rename_i other made
    cases accepted
    refine ⟨made, rfl, fun other member => ?_, sent, executed⟩
    obtain ⟨before, -, rfl⟩ := mem_map.mp member
    exact supersede_ended before

end Accepted

def exactSeconds : JobSettings Rat where
  add time seconds := time + seconds
  remainsWithin restartAt now seconds := decide (max 0 (restartAt - now) ≤ seconds)
  targets := []

def exactPanel : Panel Int Rat where
  toRuntime := wholeRuntime
  settings := exactSeconds
  float value :=
    match value with
    | .int number => .ok number
    | .float number => .ok number
    | _ => typeError "float() argument must be a string or a real number"
  eventTime _ := valueError "event time is required"
  admission _ _ := .ok []
  confirmCalendarConflictOverride := "OVERRIDE SCHEDULE CONFLICT"

/-- A countdown to 1000 seconds from now, the last 300 of them announced every minute. -/
def announced (repeatSeconds firstSend : Int) : AnnouncementFields Int Rat :=
  exactPanel.announcementFields (.object [("message", .str "Maintenance"), ("repeat_seconds", .int repeatSeconds),
    ("cadence", .list [.object [("remaining_seconds", .int 300), ("interval_seconds", .int 60)]]),
    ("restart_at", .int 1000), ("next_send_at", .int firstSend)])

def announcedJob (repeatSeconds : Int) (firstSend : Rat) : Announcement Rat where
  id := "a"
  message := "Maintenance"
  action := "maintenance"
  delay := "immediate"
  createdAt := 0
  restartAt := 1000
  repeatSeconds := repeatSeconds
  cadence := [⟨300, 60⟩]
  nextSendAt := firstSend

def turnsAt (times : List Rat) : List (Turn Rat) := times.map fun time => ⟨time, { ok := true }⟩

def everyFifty : List (Turn Rat) := turnsAt ((List.range 21).map fun turn => (50 * turn : Nat))

theorem announced_sends : exactPanel.scheduleAnnouncement (announced 600 350) "a" 0 {} =
        ({ announcements := [announcedJob 600 350] }, .ok (announcedJob 600 350)) ∧
      sendTimes exactSeconds "a" { announcements := [announcedJob 600 350] } everyFifty = [350, 950, 1000] ∧
      exactPanel.scheduleAnnouncement (announced 0 350) "a" 0 {} =
        ({ announcements := [announcedJob 0 350] }, .ok (announcedJob 0 350)) ∧
      sendTimes exactSeconds "a" { announcements := [announcedJob 0 350] } everyFifty = [350] := by
  decide +kernel

theorem announced_timely (time : Rat) : Timely exactSeconds 50 (announcedJob 60 350) time := by
  have interval : announcementNextInterval exactSeconds (announcedJob 60 350) time = 60 := by
    unfold announcementNextInterval announcedJob
    dsimp only
    split
    · rename_i entry found
      cases mem_singleton.mp (List.mem_of_find?_eq_some found)
      rfl
    · rfl
  refine ⟨by rw [interval]; decide, ?_⟩
  intro entry member moment _ _ below
  cases mem_singleton.mp member
  rw [interval] at below
  have first : time ≤ max time ((announcedJob 60 350).restartAt - 300) := le_max_left _ _
  norm_num at below ⊢
  exact below.trans (by linarith)

theorem everyFifty_often : Often 50 0 (everyFifty.map Turn.now) := by
  decide +kernel

theorem everyFifty_reaches : ∃ turn ∈ everyFifty, (announcedJob 60 350).restartAt ≤ turn.now :=
  ⟨⟨1000, { ok := true }⟩, mem_map.mpr ⟨1000, by decide +kernel, rfl⟩, by decide +kernel⟩

end Dash.Maintenance
