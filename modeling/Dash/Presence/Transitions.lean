import Mathlib.Data.List.Basic
import Mathlib.Data.List.Induction
import Mathlib.Order.Basic

/-! The polls of the presence announcer: who joined, who left and who waits, and what a run of polls
reports of one account.

Dictionaries and sets whose keys are account ids are functions of the id, so a report has no order.
The digests, welcomes and reminders of a poll read these reports and write none of the data here.
-/

set_option autoImplicit false

namespace Dash.Presence

abbrev AccountId : Type := String

/-- An entry of `online_players`. -/
structure Player where
  (name lastLoginTime map partitionLabel partitionId : String)
  deriving DecidableEq

def Player.locationLabel (player : Player) : String :=
  if player.partitionLabel = "" then player.map else player.partitionLabel

def playerLocationChanged (previous current : Player) : Bool :=
  decide ((previous.map, previous.locationLabel) ≠ (current.map, current.locationLabel)) ||
    decide (previous.partitionId ≠ "" ∧ current.partitionId ≠ "" ∧ previous.partitionId ≠ current.partitionId)

/-- An entry of `pendingLeaves`. -/
structure Leave where
  leftAt : Int
  player : Player

/-- An entry of `pendingJoinMessages`. -/
structure JoinMessage where
  firstSeen : Int
  session : String
  sessionRejoined : Bool

/-- An entry of `starterBaseToolPending`. -/
structure StarterGrant where
  (queuedAt lastAttemptAt : Int)

structure Settings where
  /-- `transfer_grace_seconds()` -/
  transferGrace : Nat
  /-- `DUNE_PLAYER_PRESENCE_JOIN_MESSAGE_DELAY_SECONDS`, not below zero. -/
  joinDelay : Nat
  /-- `DUNE_PLAYER_PRESENCE_SESSION_REJOIN_ON_LOCATION_CHANGE` -/
  rejoinOnLocationChange : Bool
  /-- `DUNE_PLAYER_PRESENCE_STARTER_BASE_TOOL_RETRY_SECONDS`, not below 15. -/
  retrySeconds : Nat

structure PresenceState where
  onlinePlayers : Option (AccountId → Option Player)
  pendingLeaves : AccountId → Option Leave
  pendingJoinMessages : AccountId → Option JoinMessage
  starterBaseToolGranted : AccountId → Bool
  starterBaseToolPending : AccountId → Option StarterGrant

def PresenceState.none_ : PresenceState := ⟨none, fun _ => none, fun _ => none, fun _ => false, fun _ => none⟩

/-- What a poll reads: the clock, the online players, and what a grant of the starter tool answers. -/
structure Poll where
  currentTime : Int
  current : AccountId → Option Player
  granted : AccountId → Bool

structure Report where
  joined : AccountId → Bool
  left : AccountId → Bool
  sessionRejoined : AccountId → Bool
  suppressedTransfers : AccountId → Bool

def orNow (value currentTime : Int) : Int := if value = 0 then currentTime else value

section

variable (settings : Settings)

def sessionChangeCountsAsRejoin (previous current : Player) : Bool :=
  if previous.lastLoginTime = "" ∨ current.lastLoginTime = "" ∨
      previous.lastLoginTime = current.lastLoginTime then false
  else if settings.rejoinOnLocationChange then true
  else !playerLocationChanged previous current

variable (state : PresenceState) (poll : Poll)

/-- `previous or {}` -/
def previous (id : AccountId) : Option Player :=
  match state.onlinePlayers with
  | some players => players id
  | none => none

def firstRun : Bool := state.onlinePlayers.isNone

def graced : Bool := decide (0 < settings.transferGrace) && !firstRun state

def rawLeft (id : AccountId) : Bool := (previous state id).isSome && (poll.current id).isNone

/-- `pending_leaves`, with the new ones. -/
def waiting (id : AccountId) : Option Leave :=
  match state.pendingLeaves id, previous state id, poll.current id with
  | some entry, _, _ => some entry
  | none, some player, none => if graced settings state then some ⟨poll.currentTime, player⟩ else none
  | none, _, _ => none

def away (entry : Leave) : Int := poll.currentTime - orNow entry.leftAt poll.currentTime

/-- `suppressed_transfer_ids` -/
def suppressed (id : AccountId) : Bool :=
  match waiting settings state poll id, poll.current id with
  | some entry, some player => graced settings state &&
      decide (away poll entry ≤ settings.transferGrace) && playerLocationChanged entry.player player
  | _, _ => false

def left (id : AccountId) : Bool :=
  if graced settings state then
    match waiting settings state poll id, poll.current id with
    | some entry, none => decide ((settings.transferGrace : Int) ≤ away poll entry)
    | _, _ => false
  else rawLeft state poll id

/-- `pending_leaves` after its loop. -/
def leaves (id : AccountId) : Option Leave :=
  if graced settings state && ((poll.current id).isSome || left settings state poll id) then none
  else waiting settings state poll id

/-- `session_rejoined`, before the transfers are taken out. -/
def rejoined (id : AccountId) : Bool :=
  match previous state id, poll.current id with
  | some before, some now => sessionChangeCountsAsRejoin settings before now
  | _, _ => false

/-- `joined`, before the join messages. -/
def detected (id : AccountId) : Bool :=
  (((poll.current id).isSome && (previous state id).isNone) || rejoined settings state poll id) &&
    !suppressed settings state poll id

/-- `pending_join_messages`, with the new ones. -/
def messages (id : AccountId) : Option JoinMessage :=
  let kept := if left settings state poll id then none else state.pendingJoinMessages id
  match poll.current id with
  | some player =>
    if detected settings state poll id then
      let again := rejoined settings state poll id
      match kept with
      | some entry =>
        if entry.session = player.lastLoginTime then
          some { entry with sessionRejoined := entry.sessionRejoined || again }
        else some ⟨poll.currentTime, player.lastLoginTime, again⟩
      | none => some ⟨poll.currentTime, player.lastLoginTime, again⟩
    else kept
  | none => kept

def delayed : Bool := decide (0 < settings.joinDelay) && !firstRun state

def ready (id : AccountId) : Bool :=
  match messages settings state poll id, poll.current id with
  | some entry, some _ =>
    decide ((settings.joinDelay : Int) ≤ poll.currentTime - orNow entry.firstSeen poll.currentTime)
  | _, _ => false

def joined (id : AccountId) : Bool :=
  if delayed settings state then ready settings state poll id else detected settings state poll id

/-- `pending_join_messages` after the poll. -/
def joinMessages (id : AccountId) : Option JoinMessage :=
  if delayed settings state then
    if (poll.current id).isNone || ready settings state poll id then none
    else messages settings state poll id
  else if left settings state poll id then none
  else state.pendingJoinMessages id

/-- `starterBaseToolPending`, with the players that joined. -/
def queued (id : AccountId) : Option StarterGrant :=
  if joined settings state poll id && !state.starterBaseToolGranted id &&
      (state.starterBaseToolPending id).isNone then some ⟨poll.currentTime, 0⟩
  else state.starterBaseToolPending id

def attempted (id : AccountId) : Bool :=
  match queued settings state poll id, poll.current id with
  | some entry, none => decide (entry.lastAttemptAt = 0 ∨
      (settings.retrySeconds : Int) ≤ poll.currentTime - entry.lastAttemptAt)
  | _, _ => false

def granted (id : AccountId) : Bool :=
  state.starterBaseToolGranted id || (attempted settings state poll id && poll.granted id)

def pendingGrant (id : AccountId) : Option StarterGrant :=
  if attempted settings state poll id then
    if poll.granted id then none
    else (queued settings state poll id).map fun entry => { entry with lastAttemptAt := poll.currentTime }
  else queued settings state poll id

/-- `check_once()` -/
def checkOnce : Report × PresenceState :=
  (⟨joined settings state poll, left settings state poll, fun id => if delayed settings state then
          ready settings state poll id &&
            ((messages settings state poll id).map JoinMessage.sessionRejoined).getD false
        else rejoined settings state poll id && !suppressed settings state poll id,
      suppressed settings state poll⟩,
    ⟨some poll.current, leaves settings state poll, joinMessages settings state poll,
      if firstRun state then state.starterBaseToolGranted else granted settings state poll,
      if firstRun state then state.starterBaseToolPending else pendingGrant settings state poll⟩)

end

def run (settings : Settings) (state : PresenceState) (polls : List Poll) : PresenceState :=
  polls.foldl (fun before poll => (checkOnce settings before poll).2) state

def count (settings : Settings) (of : Report → Bool) : PresenceState → List Poll → Nat
  | _, [] => 0
  | state, poll :: rest =>
    (if of (checkOnce settings state poll).1 then 1 else 0) +
      count settings of (checkOnce settings state poll).2 rest

theorem run_append (settings : Settings) (state : PresenceState) (before after : List Poll) :
    run settings state (before ++ after) = run settings (run settings state before) after :=
  List.foldl_append

theorem count_append (settings : Settings) (of : Report → Bool) (state : PresenceState)
    (before after : List Poll) : count settings of state (before ++ after) =
      count settings of state before + count settings of (run settings state before) after := by
  induction before generalizing state with
  | nil => simp [count, run]
  | cons poll rest ih =>
    rw [List.cons_append, count, ih, count, Nat.add_assoc]
    rfl

open List

variable {settings : Settings} {state : PresenceState} {poll : Poll} {id : AccountId}

theorem firstRun_checkOnce (settings : Settings) (state : PresenceState) (poll : Poll) :
    firstRun (checkOnce settings state poll).2 = false := rfl

theorem left_present (there : (poll.current id).isSome = true) : left settings state poll id = false := by
  obtain ⟨player, same⟩ := Option.isSome_iff_exists.mp there
  unfold left rawLeft
  rw [same]
  split
  · split
    · next impossible => cases impossible
    · rfl
  · simp

theorem joined_absent (gone : poll.current id = none) : joined settings state poll id = false := by
  unfold joined ready detected rejoined
  rw [gone]
  split
  · split
    · next impossible => cases impossible
    · rfl
  · cases previous state id <;> simp

structure At (state : PresenceState) (id : AccountId) (seen : Option Player) (leave : Option Leave)
    (message : Option JoinMessage) : Prop where
  started : firstRun state = false
  previous : previous state id = seen
  leave : state.pendingLeaves id = leave
  message : state.pendingJoinMessages id = message

theorem checkOnce_at {seen : Option Player} {leave : Option Leave} {message : Option JoinMessage}
    (found : poll.current id = seen) (waits : leaves settings state poll id = leave)
    (joins : joinMessages settings state poll id = message) :
    At (checkOnce settings state poll).2 id seen leave message := ⟨rfl, found, waits, joins⟩

theorem orNow_of {value : Int} (some_ : value ≠ 0) (now : Int) : orNow value now = value := if_neg some_

variable {message : Option JoinMessage} {player : Player}

/-- A poll that does not find the account, after it was online. -/
theorem goes (at_ : At state id (some player) none message) (gone : poll.current id = none) :
    left settings state poll id = decide (settings.transferGrace = 0) ∧ At (checkOnce settings state poll).2 id none
        (if settings.transferGrace = 0 then none else some ⟨poll.currentTime, player⟩)
        (if settings.transferGrace = 0 ∨ 0 < settings.joinDelay then none else message) := by
  obtain ⟨started, seen, leave, message⟩ := at_
  have waits : waiting settings state poll id =
      if graced settings state then some ⟨poll.currentTime, player⟩ else none := by
    unfold waiting
    rw [leave, seen, gone]
  have away_ : away poll ⟨poll.currentTime, player⟩ = 0 := by
    unfold away orNow
    split <;> simp
  have leaves_ : left settings state poll id = decide (settings.transferGrace = 0) := by
    unfold left
    rw [waits, gone]
    by_cases none_ : settings.transferGrace = 0
    · simp [graced, none_, rawLeft, seen, gone]
    · have some_ : graced settings state = true := by
        simp [graced, started, Nat.pos_of_ne_zero none_]
      simp only [some_, if_true, away_]
      exact decide_eq_decide.mpr (by omega)
  refine ⟨leaves_, checkOnce_at gone ?_ ?_⟩
  · unfold leaves
    rw [leaves_, waits, gone]
    by_cases none_ : settings.transferGrace = 0
    · simp [graced, none_]
    · simp [graced, started, Nat.pos_of_ne_zero none_, none_]
  · unfold joinMessages
    rw [leaves_, gone, message]
    by_cases none_ : settings.transferGrace = 0 <;> by_cases some_ : 0 < settings.joinDelay <;>
      simp [delayed, started, none_, some_]

variable {leave : Leave}

/-- A poll that still does not find the account, while its leave waits. -/
theorem stays_away (graceful : 0 < settings.transferGrace)
    (some_ : leave.leftAt ≠ 0) (at_ : At state id none (some leave) none)
    (gone : poll.current id = none) :
    left settings state poll id = decide ((settings.transferGrace : Int) ≤ poll.currentTime - leave.leftAt) ∧
      At (checkOnce settings state poll).2 id none
        (if (settings.transferGrace : Int) ≤ poll.currentTime - leave.leftAt then none
          else some leave) none := by
  obtain ⟨started, seen, waits, message⟩ := at_
  have graced_ : graced settings state = true := by simp [graced, started, graceful]
  have waits : waiting settings state poll id = some leave := by
    unfold waiting
    rw [waits, seen, gone]
  have leaves_ : left settings state poll id =
      decide ((settings.transferGrace : Int) ≤ poll.currentTime - leave.leftAt) := by
    unfold left
    rw [waits, gone, if_pos graced_]
    dsimp only
    rw [away, orNow_of some_]
  refine ⟨leaves_, checkOnce_at gone ?_ ?_⟩
  · unfold leaves
    rw [leaves_, waits, gone, graced_]
    simp
  · unfold joinMessages
    rw [gone, message]
    split
    · rfl
    · split <;> rfl

/-- A poll that does not find an account that nothing waits for. -/
theorem stays_out (at_ : At state id none none none) (gone : poll.current id = none) :
    left settings state poll id = false ∧ At (checkOnce settings state poll).2 id none none none := by
  obtain ⟨started, seen, leave, message⟩ := at_
  have waits : waiting settings state poll id = none := by
    unfold waiting
    rw [leave, seen, gone]
  have leaves_ : left settings state poll id = false := by
    unfold left rawLeft
    rw [waits, gone, seen]
    split <;> rfl
  refine ⟨leaves_, checkOnce_at gone ?_ ?_⟩
  · unfold leaves
    rw [waits, ite_self]
  · unfold joinMessages
    rw [gone, message]
    split
    · rfl
    · split <;> rfl

/-- A poll that finds the account where it was online with the same session. -/
theorem stays_on {before after : Player}
    (same : before.lastLoginTime = after.lastLoginTime) (at_ : At state id (some before) none message)
    (there : poll.current id = some after) (undelayed : settings.joinDelay = 0 → message = none) :
    joined settings state poll id = message.any (fun entry => decide ((settings.joinDelay : Int) ≤
        poll.currentTime - orNow entry.firstSeen poll.currentTime)) ∧
      At (checkOnce settings state poll).2 id (some after) none
        (if joined settings state poll id then none else message) := by
  obtain ⟨started, seen, leave, message_⟩ := at_
  have waits : waiting settings state poll id = none := by
    unfold waiting
    rw [leave, seen, there]
  have quiet : detected settings state poll id = false := by
    unfold detected rejoined sessionChangeCountsAsRejoin
    rw [seen, there]
    simp [same]
  have stays : left settings state poll id = false := left_present (by rw [there]; rfl)
  have kept : messages settings state poll id = message := by
    unfold messages
    rw [stays, there, quiet, message_]
    rfl
  have joins : joined settings state poll id = message.any (fun entry => decide
      ((settings.joinDelay : Int) ≤ poll.currentTime - orNow entry.firstSeen poll.currentTime)) := by
    unfold joined ready
    rw [kept, there, quiet]
    by_cases none_ : settings.joinDelay = 0
    · simp [delayed, none_, undelayed none_]
    · have delayed_ : delayed settings state = true := by
        simp [delayed, started, Nat.pos_of_ne_zero none_]
      rw [if_pos delayed_]
      cases message <;> rfl
  refine ⟨joins, checkOnce_at there ?_ ?_⟩
  · unfold leaves
    rw [waits, ite_self]
  · unfold joinMessages
    by_cases none_ : settings.joinDelay = 0
    · rw [stays, message_]
      simp [delayed, none_, undelayed none_]
    · have delayed_ : delayed settings state = true := by
        simp [delayed, started, Nat.pos_of_ne_zero none_]
      have due : joined settings state poll id = ready settings state poll id := by
        rw [joined, if_pos delayed_]
      rw [if_pos delayed_, kept, there, due]
      rfl

theorem appears (at_ : At state id none none none) (there : poll.current id = some player) :
    joined settings state poll id = decide (settings.joinDelay = 0) ∧
      At (checkOnce settings state poll).2 id (some player) none
        (if settings.joinDelay = 0 then none
          else some ⟨poll.currentTime, player.lastLoginTime, false⟩) := by
  obtain ⟨started, seen, leave, message⟩ := at_
  have waits : waiting settings state poll id = none := by
    unfold waiting
    rw [leave, seen, there]
  have news : detected settings state poll id = true := by
    unfold detected suppressed
    rw [waits, there, seen]
    rfl
  have stays : left settings state poll id = false := left_present (by rw [there]; rfl)
  have added : messages settings state poll id = some ⟨poll.currentTime, player.lastLoginTime, false⟩ := by
    unfold messages rejoined
    rw [there, news, stays, message, seen]
    rfl
  have due : ready settings state poll id = decide (settings.joinDelay = 0) := by
    unfold ready
    rw [added, there]
    have none_ : poll.currentTime - orNow poll.currentTime poll.currentTime = 0 := by
      unfold orNow
      split <;> simp
    dsimp only
    rw [none_]
    exact decide_eq_decide.mpr (by omega)
  refine ⟨?_, checkOnce_at there ?_ ?_⟩
  · unfold joined
    rw [due, news]
    by_cases none_ : settings.joinDelay = 0
    · simp [delayed, none_]
    · simp [none_, delayed, started, Nat.pos_of_ne_zero none_]
  · unfold leaves
    rw [waits, ite_self]
  · unfold joinMessages
    rw [due, added, stays, message, there]
    by_cases none_ : settings.joinDelay = 0
    · simp [delayed, none_]
    · simp [none_, delayed, started, Nat.pos_of_ne_zero none_]

/-- A poll that finds the account again at another location, within the grace. -/
theorem returns_elsewhere (graceful : 0 < settings.transferGrace)
    (some_ : leave.leftAt ≠ 0) (at_ : At state id none (some leave) none)
    (there : poll.current id = some player)
    (soon : poll.currentTime - leave.leftAt ≤ settings.transferGrace)
    (elsewhere : playerLocationChanged leave.player player = true) :
    joined settings state poll id = false ∧ At (checkOnce settings state poll).2 id (some player) none none := by
  obtain ⟨started, seen, waits, message⟩ := at_
  have graced_ : graced settings state = true := by simp [graced, started, graceful]
  have waits : waiting settings state poll id = some leave := by
    unfold waiting
    rw [waits]
  have hidden : suppressed settings state poll id = true := by
    unfold suppressed
    rw [waits, there]
    dsimp only
    rw [graced_, elsewhere, away, orNow_of some_]
    simp [soon]
  have quiet : detected settings state poll id = false := by
    unfold detected
    rw [hidden]
    simp
  have stays : left settings state poll id = false := left_present (by rw [there]; rfl)
  have kept : messages settings state poll id = none := by
    unfold messages
    rw [stays, there, quiet, message]
    rfl
  have undue : ready settings state poll id = false := by
    unfold ready
    rw [kept]
  refine ⟨?_, checkOnce_at there ?_ ?_⟩
  · unfold joined
    rw [undue, quiet, ite_self]
  · unfold leaves
    rw [graced_, there]
    rfl
  · unfold joinMessages
    rw [undue, kept, stays, message, there]
    split <;> rfl

structure Sound (settings : Settings) (id : AccountId) (state : PresenceState) : Prop where
  fresh : firstRun state = true → state.pendingLeaves id = none ∧ state.pendingJoinMessages id = none
  ungraced : settings.transferGrace = 0 → state.pendingLeaves id = none
  undelayed : settings.joinDelay = 0 → state.pendingJoinMessages id = none
  online : (previous state id).isSome = true → state.pendingLeaves id = none
  offline : previous state id = none → state.pendingJoinMessages id = none

theorem Sound.none_ (settings : Settings) (id : AccountId) : Sound settings id .none_ :=
  ⟨fun _ => ⟨rfl, rfl⟩, fun _ => rfl, fun _ => rfl, fun _ => rfl, fun _ => rfl⟩

theorem Sound.unwaited (sound : Sound settings id state) (ungraced : graced settings state = false) :
    state.pendingLeaves id = none := by
  rw [graced, Bool.and_eq_false_iff, decide_eq_false_iff_not, Bool.not_eq_false'] at ungraced
  rcases ungraced with none_ | first
  · exact sound.ungraced (Nat.eq_zero_of_not_pos none_)
  · exact (sound.fresh first).1

theorem Sound.unannounced (sound : Sound settings id state)
    (undelayed : delayed settings state = false) : state.pendingJoinMessages id = none := by
  rw [delayed, Bool.and_eq_false_iff, decide_eq_false_iff_not, Bool.not_eq_false'] at undelayed
  rcases undelayed with none_ | first
  · exact sound.undelayed (Nat.eq_zero_of_not_pos none_)
  · exact (sound.fresh first).2

theorem Sound.next (sound : Sound settings id state) (poll : Poll) :
    Sound settings id (checkOnce settings state poll).2 := by
  have unwaited : graced settings state = false → leaves settings state poll id = none := by
    intro ungraced
    unfold leaves waiting
    rw [ungraced, sound.unwaited ungraced]
    cases previous state id <;> cases poll.current id <;> rfl
  have unannounced : delayed settings state = false → joinMessages settings state poll id = none := by
    intro undelayed
    unfold joinMessages
    rw [undelayed, sound.unannounced undelayed]
    exact ite_self _
  refine ⟨fun first => absurd first (by simp [firstRun_checkOnce]), fun none_ => unwaited ?_, fun none_ => unannounced ?_,
    fun there => ?_, fun gone => ?_⟩
  · simp [graced, none_]
  · simp [delayed, none_]
  · cases waits : graced settings state with
    | false => exact unwaited waits
    | true =>
      change leaves settings state poll id = none
      unfold leaves
      rw [waits, show (poll.current id).isSome = true from there]
      rfl
  · cases waits : delayed settings state with
    | false => exact unannounced waits
    | true =>
      change joinMessages settings state poll id = none
      unfold joinMessages
      rw [waits, show poll.current id = none from gone]
      rfl

theorem run_sound (settings : Settings) (id : AccountId) (polls : List Poll) :
    Sound settings id (run settings .none_ polls) := by
  induction polls using List.reverseRecOn with
  | nil => exact Sound.none_ settings id
  | append_singleton earlier poll ih =>
    rw [run_append]
    exact ih.next poll

theorem Sound.at_online (sound : Sound settings id state) (started : firstRun state = false)
    (there : previous state id = some player) :
    At state id (some player) none (state.pendingJoinMessages id) :=
  ⟨started, there, sound.online (by rw [there]; rfl), rfl⟩

variable {polls : List Poll}

theorem count_left_out (at_ : At state id none none none) (gone : ∀ poll ∈ polls, poll.current id = none) :
    count settings (fun report => report.left id) state polls = 0 := by
  induction polls generalizing state with
  | nil => rfl
  | cons poll rest ih =>
    obtain ⟨quiet, next⟩ := stays_out at_ (gone poll (.head _))
    rw [count, ih next fun other member => gone other (.tail _ member)]
    exact if_neg (ne_true_of_eq_false quiet)

/-- The leave is reported at the first poll that comes after the grace. -/
theorem count_left_away (graceful : 0 < settings.transferGrace)
    (some_ : leave.leftAt ≠ 0) (at_ : At state id none (some leave) none)
    (gone : ∀ poll ∈ polls, poll.current id = none) :
    count settings (fun report => report.left id) state polls =
      if polls.any (fun poll => decide ((settings.transferGrace : Int) ≤
        poll.currentTime - leave.leftAt)) = true then 1 else 0 := by
  induction polls generalizing state with
  | nil => rfl
  | cons poll rest ih =>
    obtain ⟨reports, next⟩ := stays_away graceful some_ at_ (gone poll (.head _))
    have later : ∀ poll ∈ rest, poll.current id = none := fun other member => gone other (.tail _ member)
    rw [count, any_cons]
    change (if left settings state poll id = true then 1 else 0) + _ = _
    rw [reports]
    by_cases late : (settings.transferGrace : Int) ≤ poll.currentTime - leave.leftAt
    · rw [if_pos late] at next
      rw [count_left_out next later]
      simp [late]
    · rw [if_neg late] at next
      rw [ih next later]
      simp [late]

theorem unannounced_after (undelayed : settings.joinDelay = 0 → message = none) :
    (if settings.transferGrace = 0 ∨ 0 < settings.joinDelay then none else message) = none := by
  split
  · rfl
  · next neither => exact undelayed (by omega)

/-- Every absence is reported once where a poll that does not find the account comes after the grace,
and otherwise not at all. -/
theorem count_left_absence (at_ : At state id (some player) none message)
    (undelayed : settings.joinDelay = 0 → message = none) {first : Poll} {more : List Poll}
    (gone : ∀ poll ∈ first :: more, poll.current id = none) (some_ : first.currentTime ≠ 0) :
    count settings (fun report => report.left id) state (first :: more) =
      if (first :: more).any (fun poll => decide ((settings.transferGrace : Int) ≤
        poll.currentTime - first.currentTime)) = true then 1 else 0 := by
  obtain ⟨reports, next⟩ := goes at_ (gone first (.head _))
  rw [unannounced_after undelayed] at next
  have later : ∀ poll ∈ more, poll.current id = none := fun other member => gone other (.tail _ member)
  rw [count, any_cons]
  change (if left settings state first id = true then 1 else 0) + _ = _
  rw [reports]
  by_cases none_ : settings.transferGrace = 0
  · rw [if_pos none_] at next
    rw [count_left_out next later]
    simp [none_]
  · rw [if_neg none_] at next
    rw [count_left_away (Nat.pos_of_ne_zero none_) some_ next later]
    simp [none_]

theorem count_joined_gone (gone : ∀ poll ∈ polls, poll.current id = none) :
    count settings (fun report => report.joined id) state polls = 0 := by
  induction polls generalizing state with
  | nil => rfl
  | cons poll rest ih =>
    rw [count, ih fun other member => gone other (.tail _ member)]
    exact if_neg (ne_true_of_eq_false (joined_absent (gone poll (.head _))))

theorem gone_waits (graceful : 0 < settings.transferGrace)
    (some_ : leave.leftAt ≠ 0) (at_ : At state id none (some leave) none)
    (gone : ∀ poll ∈ polls, poll.current id = none)
    (early : ∀ poll ∈ polls, poll.currentTime - leave.leftAt < settings.transferGrace) :
    At (run settings state polls) id none (some leave) none := by
  induction polls generalizing state with
  | nil => exact at_
  | cons poll rest ih =>
    obtain ⟨-, next⟩ := stays_away graceful some_ at_ (gone poll (.head _))
    rw [if_neg (Int.not_le.mpr (early poll (.head _)))] at next
    exact ih next (fun other member => gone other (.tail _ member)) fun other member => early other (.tail _ member)

/-- An account that comes back elsewhere within the grace is reported neither as left nor as joined,
and no join message waits for it. -/
theorem transfer {player next : Player} (at_ : At state id (some player) none message)
    (undelayed : settings.joinDelay = 0 → message = none) {first back : Poll} {more : List Poll}
    (gone : ∀ poll ∈ first :: more, poll.current id = none) (there : back.current id = some next)
    (elsewhere : playerLocationChanged player next = true) (some_ : first.currentTime ≠ 0)
    (times : ((first :: more ++ [back]).map Poll.currentTime).Pairwise (· < ·))
    (soon : back.currentTime - first.currentTime < settings.transferGrace) :
    count settings (fun report => report.left id) state (first :: more ++ [back]) = 0 ∧
      count settings (fun report => report.joined id) state (first :: more ++ [back]) = 0 ∧
      At (run settings state (first :: more ++ [back])) id (some next) none none := by
  rw [map_append, map_singleton, pairwise_append] at times
  have before : ∀ poll ∈ first :: more, poll.currentTime < back.currentTime := fun poll member =>
    times.2.2 _ (mem_map_of_mem member) _ (.head _)
  have graceful : 0 < settings.transferGrace := by
    have := before first (.head _)
    omega
  obtain ⟨-, waits⟩ := goes at_ (gone first (.head _))
  rw [unannounced_after undelayed, if_neg (Nat.pos_iff_ne_zero.mp graceful)] at waits
  have early : ∀ poll ∈ first :: more,
      poll.currentTime - first.currentTime < settings.transferGrace := fun poll member => by
    have := before poll member
    omega
  have away_ := gone_waits graceful some_ waits (fun poll member => gone poll (.tail _ member))
    (fun poll member => early poll (.tail _ member))
  obtain ⟨quiet, back_⟩ := returns_elsewhere graceful some_ away_ there (Int.le_of_lt soon) elsewhere
  refine ⟨?_, ?_, ?_⟩
  · rw [count_append, count_left_absence at_ undelayed gone some_]
    have none_ : (first :: more).any (fun poll => decide ((settings.transferGrace : Int) ≤
        poll.currentTime - first.currentTime)) = false :=
      any_eq_false.mpr fun poll member => by
        have := early poll member
        simp only [decide_eq_true_eq]
        omega
    rw [none_, count, count]
    change 0 + ((if left _ _ back id = true then 1 else 0) + 0) = 0
    rw [left_present (by rw [there]; rfl)]
    rfl
  · rw [count_append, count_joined_gone gone, count, count]
    change 0 + ((if joined _ _ back id = true then 1 else 0) + 0) = 0
    rw [show joined settings (run settings state (first :: more)) back id = false from quiet]
    rfl
  · rw [run_append]
    exact back_

/-- The polls find the account online, apart from transfers. -/
inductive Stay (settings : Settings) (id : AccountId) : Player → List Poll → Prop where
  | nil {player : Player} : Stay settings id player []
  | on {before after : Player} {poll : Poll} {rest : List Poll} :
      poll.current id = some after → Stay settings id after rest → Stay settings id before (poll :: rest)
  | transfer {before after : Player} {first back : Poll} {more rest : List Poll} :
      (∀ poll ∈ first :: more, poll.current id = none) → back.current id = some after →
      back.currentTime - first.currentTime < settings.transferGrace →
      playerLocationChanged before after = true → Stay settings id after rest →
      Stay settings id before (first :: more ++ [back] ++ rest)

/-- A poll finds the account after the delay, and so does every poll before it. -/
def reaches (delay : Nat) (since : Int) (id : AccountId) : List Poll → Bool
  | [] => false
  | poll :: rest => (poll.current id).isSome &&
      (decide ((delay : Int) ≤ poll.currentTime - since) || reaches delay since id rest)

def Steady (id : AccountId) (session : String) (polls : List Poll) : Prop :=
  ∀ poll ∈ polls, ∀ player ∈ poll.current id, player.lastLoginTime = session

/-- A join that waits is reported once where it is reached without a transfer, and nothing else of
the stay is. -/
theorem count_joined_stay {before : Player} {session : String} (stay : Stay settings id before polls)
    (same : before.lastLoginTime = session) (steady : Steady id session polls)
    (times : (polls.map Poll.currentTime).Pairwise (· < ·))
    (positive : ∀ poll ∈ polls, 0 < poll.currentTime) (at_ : At state id (some before) none message)
    (undelayed : settings.joinDelay = 0 → message = none)
    (some_ : ∀ entry ∈ message, entry.firstSeen ≠ 0) :
    count settings (fun report => report.joined id) state polls =
      if message.any (fun entry => reaches settings.joinDelay entry.firstSeen id polls) = true then 1
      else 0 := by
  induction stay generalizing state message with
  | nil => cases message <;> rfl
  | @on before after poll rest there stay ih =>
    have same_ : before.lastLoginTime = after.lastLoginTime :=
      same.trans (steady poll (.head _) after there).symm
    obtain ⟨reports, next⟩ := stays_on same_ at_ there undelayed
    have rest_ := ih (steady poll (.head _) after there) (fun other member => steady other (.tail _ member))
      (pairwise_cons.mp times).2 (fun other member => positive other (.tail _ member)) next
    rw [count]
    change (if joined settings state poll id = true then 1 else 0) + _ = _
    cases message with
    | none =>
      rw [reports] at rest_ ⊢
      rw [rest_ (fun _ => rfl) (by simp)]
      rfl
    | some entry =>
      have since := some_ entry rfl
      rw [Option.any_some, orNow_of since] at reports
      by_cases due : (settings.joinDelay : Int) ≤ poll.currentTime - entry.firstSeen
      · rw [reports, decide_eq_true due] at rest_
        rw [reports, decide_eq_true due, rest_ (fun _ => rfl) (by simp)]
        simp [reaches, there, due]
      · rw [reports, decide_eq_false due] at rest_
        rw [reports, decide_eq_false due, rest_ undelayed some_]
        simp [reaches, there, due]
  | @transfer before after first back more rest gone there soon elsewhere stay ih =>
    have inside : first.currentTime ≠ 0 := Int.ne_of_gt (positive first (.head _))
    rw [map_append, pairwise_append] at times
    obtain ⟨-, quiet, back_⟩ := transfer at_ undelayed gone there elsewhere inside times.1 soon
    have member : ∀ poll ∈ rest, poll ∈ first :: more ++ [back] ++ rest :=
      fun poll listed => mem_append_right _ listed
    have session_ := steady back (by simp) after there
    have rest_ := ih session_ (fun other listed => steady other (member other listed)) times.2.1
      (fun other listed => positive other (member other listed)) back_ (fun _ => rfl) (by simp)
    rw [count_append, quiet, rest_]
    have unreached : ∀ since, reaches settings.joinDelay since id (first :: more ++ [back] ++ rest) =
        false := fun since => by
      rw [cons_append, cons_append, reaches, gone first (.head _)]
      rfl
    cases message with
    | none => rfl
    | some entry =>
      rw [Option.any_some, unreached entry.firstSeen]
      rfl

end Dash.Presence
