import Dash.Presence.Transitions

/-! Exactness of the presence reports of one account over whole runs. -/

set_option autoImplicit false

namespace Dash.Presence

open List

variable {settings : Settings} {id : AccountId}

/-- A player that joined is queued for the starter grant, unless it has the grant. -/
theorem joined_queued {state : PresenceState} {poll : Poll} (started : firstRun state = false)
    (joins : joined settings state poll id = true) :
    (checkOnce settings state poll).2.starterBaseToolGranted id = true ∨
      ((checkOnce settings state poll).2.starterBaseToolPending id).isSome = true := by
  cases there : poll.current id with
  | none =>
    rw [joined_absent there] at joins
    cases joins
  | some player =>
    have waits : attempted settings state poll id = false := by
      unfold attempted
      rw [there]
      split
      · next impossible => cases impossible
      · rfl
    unfold checkOnce
    simp only [started, Bool.false_eq_true, if_false, granted, pendingGrant, waits, Bool.false_and, Bool.or_false]
    unfold queued
    rw [joins]
    cases has : state.starterBaseToolGranted id with
    | true => exact .inl rfl
    | false =>
      cases pending : state.starterBaseToolPending id with
      | none => exact .inr rfl
      | some entry => exact .inr rfl

/-- An absence that began with this poll has lasted for the grace in one of the polls. -/
def lasts (grace : Nat) (first : Poll) (polls : List Poll) : Bool :=
  polls.any fun poll => decide ((grace : Int) ≤ poll.currentTime - first.currentTime)

theorem started_run (settings : Settings) (state : PresenceState) (before : List Poll) (last : Poll) :
    firstRun (run settings state (before ++ [last])) = false := by
  rw [run_append]
  rfl

variable {before : List Poll}

theorem started_of_ne (some_ : before ≠ []) : firstRun (run settings .none_ before) = false := by
  rcases eq_nil_or_concat before with rfl | ⟨earlier, last, rfl⟩
  · exact absurd rfl some_
  · rw [concat_eq_append]
    exact started_run settings .none_ earlier last

variable {player : Player}

theorem at_last (before : List Poll) {last : Poll} (there : last.current id = some player) :
    At (run settings .none_ (before ++ [last])) id (some player) none
      ((run settings .none_ (before ++ [last])).pendingJoinMessages id) := by
  refine (run_sound settings id (before ++ [last])).at_online (started_run ..) ?_
  rw [run_append]
  exact there

/-- An absence is reported once where it lasts for the grace and a poll of it sees that. -/
theorem absence_exact {last first : Poll} {more : List Poll} {back : Option Poll}
    (there : last.current id = some player)
    (gone : ∀ poll ∈ first :: more, poll.current id = none)
    (returns : ∀ poll ∈ back, (poll.current id).isSome = true) (some_ : first.currentTime ≠ 0) :
    count settings (fun report => report.left id) (run settings .none_ (before ++ [last]))
        (first :: more ++ back.toList) =
        (if lasts settings.transferGrace first (first :: more ++ back.toList) = true then 1 else 0) ↔
      (lasts settings.transferGrace first (first :: more ++ back.toList) = true →
        lasts settings.transferGrace first (first :: more) = true) := by
  have sound := run_sound settings id (before ++ [last])
  have quiet : ∀ state, count settings (fun report => report.left id) state back.toList = 0 := by
    intro state
    cases back with
    | none => rfl
    | some poll =>
      change (if left settings state poll id = true then 1 else 0) + 0 = 0
      rw [left_present (returns poll rfl)]
      rfl
  have reported := count_left_absence (at_last before there) sound.undelayed gone some_
  rw [count_append, quiet, reported]
  change (if lasts settings.transferGrace first (first :: more) = true then 1 else 0) + 0 = _ ↔ _
  have either : lasts settings.transferGrace first (first :: more ++ back.toList) =
      (lasts settings.transferGrace first (first :: more) ||
        lasts settings.transferGrace first back.toList) := any_append
  rw [either]
  cases lasts settings.transferGrace first (first :: more) <;>
    cases lasts settings.transferGrace first back.toList <;> simp

/-- A stay is reported once where the join has no delay, or no transfer comes before its end. -/
theorem stay_exact {start : Poll} {more : List Poll}
    {session : String} (some_ : before ≠ []) (absent : previous (run settings .none_ before) id = none)
    (idle : (run settings .none_ before).pendingLeaves id = none)
    (there : start.current id = some player) (stay : Stay settings id player more)
    (steady : Steady id session (start :: more))
    (times : ((start :: more).map Poll.currentTime).Pairwise (· < ·))
    (positive : ∀ poll ∈ start :: more, 0 < poll.currentTime) :
    count settings (fun report => report.joined id) (run settings .none_ before) (start :: more) = 1 ↔
      settings.joinDelay = 0 ∨ reaches settings.joinDelay start.currentTime id more = true := by
  have sound := run_sound settings id before
  have waits : At (run settings .none_ before) id none none none :=
    ⟨started_of_ne some_, absent, idle, sound.offline absent⟩
  obtain ⟨reports, next⟩ := @appears settings _ start _ _ waits there
  have session_ := steady start (.head _) player there
  have rest := count_joined_stay stay session_ (fun poll member => steady poll (.tail _ member))
    (pairwise_cons.mp times).2 (fun poll member => positive poll (.tail _ member)) next
  rw [count]
  change (if joined settings _ start id = true then 1 else 0) + _ = 1 ↔ _
  rw [reports]
  by_cases none_ : settings.joinDelay = 0
  · rw [if_pos none_] at rest
    rw [rest (fun _ => rfl) (by simp)]
    simp [none_]
  · rw [if_neg none_] at rest
    rw [rest (fun same => absurd same none_) (by
      rintro entry ⟨⟩
      exact Int.ne_of_gt (positive start (.head _)))]
    cases due : reaches settings.joinDelay start.currentTime id more <;> simp [none_, due]

/-- In every run of polls an account is not reported as left while it is online; an absence is
reported once if it lasts for the grace, exactly where a poll without the account sees that; a
transfer is not reported; a stay is reported once, exactly where the join has no delay or no transfer
comes before it is due; and who is reported as joined is queued for the starter grant. -/
theorem presence_transitions (settings : Settings) (id : AccountId) (session : String)
    (polls : List Poll) (steady : Steady id session polls)
    (times : (polls.map Poll.currentTime).Pairwise (· < ·))
    (positive : ∀ poll ∈ polls, 0 < poll.currentTime) :
    (∀ before poll after, polls = before ++ poll :: after →
      (checkOnce settings (run settings .none_ before) poll).1.left id = true → poll.current id = none) ∧
    (∀ before last (first : Poll) more rest player, polls = before ++ [last] ++ (first :: more ++ rest) →
      last.current id = some player → (∀ poll ∈ first :: more, poll.current id = none) →
      (∀ poll ∈ rest.head?, (poll.current id).isSome = true) →
      (count settings (fun report => report.left id) (run settings .none_ (before ++ [last]))
          (first :: more ++ rest.head?.toList) =
          (if lasts settings.transferGrace first (first :: more ++ rest.head?.toList) = true then 1
            else 0) ↔
        (lasts settings.transferGrace first (first :: more ++ rest.head?.toList) = true →
          lasts settings.transferGrace first (first :: more) = true))) ∧
    (∀ before last (first : Poll) more (back : Poll) rest player next,
      polls = before ++ [last] ++ (first :: more ++ [back] ++ rest) →
      last.current id = some player → (∀ poll ∈ first :: more, poll.current id = none) →
      back.current id = some next → playerLocationChanged player next = true →
      back.currentTime - first.currentTime < settings.transferGrace →
      count settings (fun report => report.left id) (run settings .none_ (before ++ [last]))
          (first :: more ++ [back]) = 0 ∧
        count settings (fun report => report.joined id) (run settings .none_ (before ++ [last]))
          (first :: more ++ [back]) = 0 ∧
        (run settings .none_ (before ++ [last] ++ (first :: more ++ [back]))).pendingJoinMessages id = none) ∧
    (∀ before start more rest player, polls = before ++ (start :: more ++ rest) → before ≠ [] →
      previous (run settings .none_ before) id = none →
      (run settings .none_ before).pendingLeaves id = none →
      start.current id = some player → Stay settings id player more →
      (count settings (fun report => report.joined id) (run settings .none_ before) (start :: more) = 1 ↔
        settings.joinDelay = 0 ∨ reaches settings.joinDelay start.currentTime id more = true)) ∧
    ∀ before poll after, polls = before ++ poll :: after → before ≠ [] →
      (checkOnce settings (run settings .none_ before) poll).1.joined id = true →
        (checkOnce settings (run settings .none_ before) poll).2.starterBaseToolGranted id = true ∨
          ((checkOnce settings (run settings .none_ before) poll).2.starterBaseToolPending id).isSome = true := by
  refine ⟨?_, ?_, ?_, ?_, ?_⟩
  · intro before poll after _ leaves_
    by_contra there
    have present : (poll.current id).isSome = true := Option.isSome_iff_ne_none.mpr there
    exact Bool.false_ne_true ((left_present present).symm.trans leaves_)
  · intro before last first more rest player parts there gone returns
    refine absence_exact there gone returns (Int.ne_of_gt (positive first ?_))
    rw [parts]
    simp
  · intro before last first more back rest player next parts there gone home elsewhere soon
    have sound := run_sound settings id (before ++ [last])
    have ordered : ((first :: more ++ [back]).map Poll.currentTime).Pairwise (· < ·) := by
      rw [parts, map_append, pairwise_append] at times
      have inner := times.2.1
      rw [map_append, pairwise_append] at inner
      exact inner.1
    have inside : first.currentTime ≠ 0 := Int.ne_of_gt (positive first (by rw [parts]; simp))
    obtain ⟨unleft, unjoined, after⟩ :=
      transfer (at_last before there) sound.undelayed gone home elsewhere inside ordered soon
    refine ⟨unleft, unjoined, ?_⟩
    rw [run_append]
    exact after.message
  · intro before start more rest player parts some_ absent idle there stay
    have member : ∀ poll ∈ start :: more, poll ∈ polls := fun poll listed => by
      rw [parts]
      exact mem_append_right _ (mem_append_left _ listed)
    have ordered : ((start :: more).map Poll.currentTime).Pairwise (· < ·) := by
      rw [parts, map_append, pairwise_append] at times
      have inner := times.2.1
      rw [map_append, pairwise_append] at inner
      exact inner.1
    exact stay_exact some_ absent idle there stay (fun poll listed => steady poll (member poll listed))
      ordered fun poll listed => positive poll (member poll listed)
  · intro before poll after _ some_ joins
    exact joined_queued (started_of_ne some_) joins

def playerAt (map : String) : Player := ⟨"P", "2024-01-01", map, "", ""⟩

def pollOf (time : Int) (player : Option Player) : Poll :=
  ⟨time, fun id => if id = "1" then player else none, fun _ => true⟩

def graceOnly : Settings := ⟨90, 0, false, 60⟩

def seenAbsence : List Poll :=
  [pollOf 60 (some (playerAt "A")), pollOf 120 none, pollOf 240 none, pollOf 300 (some (playerAt "A"))]

theorem presence_transitions_seen : count graceOnly (fun report => report.left "1")
      (run graceOnly .none_ [pollOf 60 (some (playerAt "A"))])
      [pollOf 120 none, pollOf 240 none, pollOf 300 (some (playerAt "A"))] = 1 := by
  have steady : Steady "1" "2024-01-01" seenAbsence := by
    intro poll member player there
    simp only [seenAbsence, mem_cons, not_mem_nil, or_false] at member
    rcases member with rfl | rfl | rfl | rfl <;> simp_all [pollOf, playerAt]
    all_goals rw [← there]
  obtain ⟨-, absences, -⟩ := presence_transitions graceOnly "1" "2024-01-01" seenAbsence steady (by decide) (by decide)
  exact (absences [] (pollOf 60 (some (playerAt "A"))) (pollOf 120 none) [pollOf 240 none]
    [pollOf 300 (some (playerAt "A"))] (playerAt "A") rfl rfl (by decide) (by decide)).mpr (by decide)

/-- An absence of 120 seconds that no poll sees after the grace is not reported, and with a delay of
60 seconds a join that a transfer interrupts is not reported either. -/
theorem reports_missed : (lasts 90 (pollOf 120 none)
        [pollOf 120 none, pollOf 180 none, pollOf 240 (some (playerAt "A"))] = true ∧
      count graceOnly (fun report => report.left "1") (run graceOnly .none_ [pollOf 60 (some (playerAt "A"))])
        [pollOf 120 none, pollOf 180 none, pollOf 240 (some (playerAt "A"))] = 0) ∧
    let delayed_ : Settings := ⟨90, 60, false, 60⟩
    count delayed_ (fun report => report.joined "1") (run delayed_ .none_ [pollOf 60 none])
      [pollOf 90 (some (playerAt "A")), pollOf 120 none, pollOf 150 (some (playerAt "B")),
        pollOf 180 (some (playerAt "B")), pollOf 240 (some (playerAt "B"))] = 0 := by
  decide

end Dash.Presence
