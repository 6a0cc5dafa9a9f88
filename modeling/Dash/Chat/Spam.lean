import Mathlib.Data.Rat.Defs
import Mathlib.Data.List.TakeWhile
import Mathlib.Tactic.Linarith
import Dash.Python.Text

/-! Spam protection: repeated messages of one sender, and the kicks that follow.

The counters of a sender are kept by its key and see only messages that are long enough, not
exempt and outside the cooldown of the sender's last kick. Lists of messages are newest first.
-/

set_option autoImplicit false

namespace Dash.Chat

open Dash.Python List

/-- The settings of the environment, and the lower casing of the language. -/
structure SpamSettings where
  enabled : Bool
  (minimumLength sameConsecutiveLimit sameWindowLimit : Int)
  (sameWindowSeconds kickCooldownSeconds : ℚ)
  lower : String → String

/-- A chat message when it is handled; `exempt` is what `spam_exempt` spoken of it then. -/
structure ChatMessage where
  (senderName senderFlsId text : String)
  time : ℚ
  exempt : Bool

inductive ViolationType where
  | consecutiveRepeat | windowRepeat
  deriving DecidableEq

structure Violation where
  type : ViolationType
  (count limit : Int)
  windowSeconds : ℚ

structure SpamState where
  lastText : Option String
  consecutive : Nat
  recent : String → List ℚ
  lastKickAt : ℚ

def SpamState.empty : SpamState := ⟨none, 0, fun _ => [], 0⟩

/-- `re.sub(r"\s+", " ", text)` -/
def collapse : List Char → List Char
  | [] => []
  | char :: rest =>
    if isSpace char then
      match rest with
      | next :: _ => if isSpace next then collapse rest else ' ' :: collapse rest
      | [] => [' ']
    else char :: collapse rest

/-- `spam_state_key` -/
def ChatMessage.key (message : ChatMessage) : String :=
  if message.senderFlsId ≠ "" then message.senderFlsId
  else if message.senderName ≠ "" then message.senderName else "unknown"

namespace SpamSettings

variable (settings : SpamSettings)

/-- `normalize_chat_text` -/
def normalize (message : ChatMessage) : String :=
  settings.lower (String.ofList (collapse (strip message.text).toList))

/-- Whether the message is one that the counters are for. -/
def watches (message : ChatMessage) : Bool :=
  settings.enabled && decide (settings.minimumLength ≤ (settings.normalize message).length) && !message.exempt

/-- `spam_violation` -/
def violation (state : SpamState) (normalized : String) (now : ℚ) : Option Violation × SpamState :=
  let consecutive := if state.lastText = some normalized then state.consecutive + 1 else 1
  let hits := (state.recent normalized ++ [now]).dropWhile fun hit =>
    settings.sameWindowSeconds < now - hit
  let state := { state with
    lastText := some normalized
    consecutive := consecutive
    recent := Function.update state.recent normalized hits }
  (if settings.sameConsecutiveLimit < consecutive then
    some ⟨.consecutiveRepeat, consecutive, settings.sameConsecutiveLimit, settings.sameWindowSeconds⟩
  else if settings.sameWindowLimit ≤ hits.length then
    some ⟨.windowRepeat, hits.length, settings.sameWindowLimit, settings.sameWindowSeconds⟩
  else none, state)

/-- `enforce_spam_protect`: the violation that kicks, and the states by key. -/
def enforce (message : ChatMessage) (states : String → SpamState) : Option Violation × (String → SpamState) :=
  let state := states message.key
  if settings.watches message then
    if message.time - state.lastKickAt < settings.kickCooldownSeconds then (none, states)
    else
      match settings.violation state (settings.normalize message) message.time with
      | (none, state) => (none, Function.update states message.key state)
      | (some found, state) =>
        (some found, Function.update states message.key { state with lastKickAt := message.time })
  else (none, states)

/-- The states after these messages. -/
def states : List ChatMessage → String → SpamState
  | [] => fun _ => .empty
  | message :: past => (settings.enforce message (states past)).2

/-- The violation that kicks the sender of the message, if it comes after these. -/
def verdict (message : ChatMessage) (past : List ChatMessage) : Option Violation :=
  (settings.enforce message (settings.states past)).1

/-- The message kicks its sender, for this reason. -/
def KicksAs (type : ViolationType) (message : ChatMessage) (past : List ChatMessage) : Prop :=
  (settings.verdict message past).map Violation.type = some type

/-- The time of the sender's last kick; one that was never kicked was kicked at the epoch. -/
def lastKick (key : String) : List ChatMessage → ℚ
  | [] => 0
  | message :: past =>
    if message.key = key ∧ settings.verdict message past ≠ none then message.time
    else lastKick key past

/-- Watched, and not in the cooldown of the sender's last kick. -/
def counts (message : ChatMessage) (past : List ChatMessage) : Prop :=
  settings.watches message ∧ settings.kickCooldownSeconds ≤ message.time - settings.lastKick message.key past

instance (message : ChatMessage) (past : List ChatMessage) : Decidable (settings.counts message past) :=
  inferInstanceAs (Decidable (_ ∧ _))

/-- The sender's messages that count. -/
def counted (key : String) : List ChatMessage → List ChatMessage
  | [] => []
  | message :: past =>
    if message.key = key ∧ settings.counts message past then message :: counted key past
    else counted key past

/-- The times of this text among the messages, within the window before now; oldest first. -/
def within (text : String) (now : ℚ) (messages : List ChatMessage) : List ℚ :=
  ((messages.filter fun other => settings.normalize other = text).map ChatMessage.time).reverse.filter
    fun time => now - time ≤ settings.sameWindowSeconds

/-- How many of the messages, from the newest on, have the newest one's text. -/
def streak : List ChatMessage → Nat
  | [] => 0
  | message :: before =>
    (before.takeWhile fun other => settings.normalize other = settings.normalize message).length + 1

/-- The message and as many before it as the limit spoken have one text. -/
def RepeatsConsecutively (message : ChatMessage) (before : List ChatMessage) : Prop :=
  settings.sameConsecutiveLimit.toNat ≤ before.length ∧ ∀ other ∈ before.take settings.sameConsecutiveLimit.toNat,
      settings.normalize other = settings.normalize message

instance (message : ChatMessage) (before : List ChatMessage) :
    Decidable (settings.RepeatsConsecutively message before) :=
  inferInstanceAs (Decidable (_ ∧ _))

def RepeatsInWindow (message : ChatMessage) (before : List ChatMessage) : Prop :=
  settings.sameWindowLimit ≤ (settings.within (settings.normalize message) message.time (message :: before)).length

/-- The queue of a text when its last message came. -/
def queue (messages : List ChatMessage) (text : String) : List ℚ :=
  match messages.find? fun other => settings.normalize other = text with
  | some last => settings.within text last.time messages
  | none => []

/-- The counters that these messages make. -/
def stateOf (messages : List ChatMessage) (kick : ℚ) : SpamState where
  lastText := messages.head?.map settings.normalize
  consecutive := settings.streak messages
  recent := settings.queue messages
  lastKickAt := kick

end SpamSettings

section Lists

variable {α : Type} {satisfies : α → Bool} {hits : List ℚ}

/-- A run from the head is long enough exactly if its first elements satisfy the condition. -/
theorem le_length_takeWhile (items : List α) (limit : Nat) : limit ≤ (items.takeWhile satisfies).length ↔
      limit ≤ items.length ∧ ∀ item ∈ items.take limit, satisfies item := by
  induction items generalizing limit with
  | nil => simp
  | cons head rest ih =>
    cases limit with
    | zero => simp
    | succ limit =>
      by_cases holds : satisfies head
      · simp [holds, ih]
      · simp [holds]

/-- Times in order leave the window from the front. -/
theorem dropWhile_eq_within {now seconds : ℚ} (ordered : hits.Pairwise (· ≤ ·)) :
    hits.dropWhile (fun hit => seconds < now - hit) = hits.filter fun hit => now - hit ≤ seconds := by
  induction hits with
  | nil => rfl
  | cons first rest ih =>
    obtain ⟨least, ordered⟩ := pairwise_cons.mp ordered
    by_cases old : seconds < now - first
    · rw [dropWhile_cons, if_pos (decide_eq_true old), ih ordered,
        filter_cons_of_neg (by simp only [decide_eq_true_eq]; exact not_le.mpr old)]
    · have recent := not_lt.mp old
      rw [dropWhile_cons, if_neg (by simp only [decide_eq_true_eq]; exact old)]
      refine (filter_eq_self.mpr fun hit member => ?_).symm
      rcases mem_cons.mp member with rfl | later
      · simpa using recent
      · have order := least hit later
        exact decide_eq_true (by linarith)

end Lists

namespace SpamSettings

variable (settings : SpamSettings)
variable {message : ChatMessage} {past before : List ChatMessage} {key : String}

theorem enforce_idle {states : String → SpamState} (idle : ¬ (settings.watches message ∧
      settings.kickCooldownSeconds ≤ message.time - (states message.key).lastKickAt)) :
    settings.enforce message states = (none, states) := by
  unfold enforce
  by_cases watched : settings.watches message
  · have cooling := not_le.mp fun beyond => idle ⟨watched, beyond⟩
    simp [watched, cooling]
  · simp [watched]

theorem enforce_counts {states : String → SpamState} (watched : settings.watches message)
    (beyond : settings.kickCooldownSeconds ≤ message.time - (states message.key).lastKickAt) :
    settings.enforce message states =
      ((settings.violation (states message.key) (settings.normalize message) message.time).1,
        Function.update states message.key
          { (settings.violation (states message.key) (settings.normalize message) message.time).2 with
            lastKickAt := if (settings.violation (states message.key) (settings.normalize message)
              message.time).1 = none then (states message.key).lastKickAt else message.time }) := by
  unfold enforce
  rw [if_pos watched]
  simp only [not_lt.mpr beyond, if_false]
  rcases found : settings.violation (states message.key) (settings.normalize message) message.time
    with ⟨_ | violation, next⟩
  · have same : (states message.key).lastKickAt = next.lastKickAt :=
      congrArg (fun pair => pair.2.lastKickAt) found
    simp [same]
  · simp

theorem enforce_other {states : String → SpamState} (other : key ≠ message.key) :
    (settings.enforce message states).2 key = states key := by
  by_cases counting : settings.watches message ∧
      settings.kickCooldownSeconds ≤ message.time - (states message.key).lastKickAt
  · rw [enforce_counts settings counting.1 counting.2]
    exact Function.update_of_ne other _ _
  · rw [enforce_idle settings counting]

theorem within_later {text : String} {early late : ℚ} (order : early ≤ late) (messages : List ChatMessage) :
    (settings.within text early messages).filter
      (fun time => late - time ≤ settings.sameWindowSeconds) = settings.within text late messages := by
  rw [within, filter_filter]
  refine filter_congr fun time _ => ?_
  have implied (recent : late - time ≤ settings.sameWindowSeconds) :
      early - time ≤ settings.sameWindowSeconds := by linarith
  by_cases recent : late - time ≤ settings.sameWindowSeconds
  · simp [recent, implied recent]
  · simp [recent]

/-- What the queue of a text holds that is still in the window now. -/
theorem queue_within {text : String} {now : ℚ} (latest : ∀ other ∈ before, other.time ≤ now) :
    (settings.queue before text).filter (fun time => now - time ≤ settings.sameWindowSeconds) =
      settings.within text now before := by
  unfold queue
  cases found : before.find? fun other => settings.normalize other = text with
  | some last => exact settings.within_later (latest last (List.mem_of_find?_eq_some found)) before
  | none =>
    have absent : before.filter (fun other => settings.normalize other = text) = [] :=
      filter_eq_nil_iff.mpr (List.find?_eq_none.mp found)
    simp [within, absent]

theorem queue_ordered {text : String}
    (ordered : (message :: before).Pairwise fun later earlier => earlier.time ≤ later.time) :
    (settings.queue before text ++ [message.time]).Pairwise (· ≤ ·) := by
  have times : ((message :: before).map ChatMessage.time).reverse.Pairwise (· ≤ ·) := by
    rw [pairwise_reverse, pairwise_map]
    exact ordered
  refine times.sublist ?_
  rw [map_cons, reverse_cons]
  refine List.Sublist.append_right ?_ _
  unfold queue
  cases before.find? fun other => settings.normalize other = text with
  | some last =>
    exact filter_sublist.trans (reverse_sublist.mpr (filter_sublist.map _))
  | none => exact nil_sublist _

/-- The violation by definition, of a message after those that count. -/
def found (message : ChatMessage) (before : List ChatMessage) : Option Violation :=
  let hits := settings.within (settings.normalize message) message.time (message :: before)
  if settings.sameConsecutiveLimit < settings.streak (message :: before) then
    some ⟨.consecutiveRepeat, settings.streak (message :: before), settings.sameConsecutiveLimit,
      settings.sameWindowSeconds⟩
  else if settings.sameWindowLimit ≤ hits.length then
    some ⟨.windowRepeat, hits.length, settings.sameWindowLimit, settings.sameWindowSeconds⟩
  else none

theorem violation_eq (kick : ℚ)
    (ordered : (message :: before).Pairwise fun later earlier => earlier.time ≤ later.time) :
    settings.violation (settings.stateOf before kick) (settings.normalize message) message.time =
      (settings.found message before, settings.stateOf (message :: before) kick) := by
  have streaks : (if (settings.stateOf before kick).lastText = some (settings.normalize message) then
      (settings.stateOf before kick).consecutive + 1 else 1) = settings.streak (message :: before) := by
    cases before with
    | nil => rfl
    | cons first rest =>
      by_cases same : settings.normalize first = settings.normalize message
      · simp [stateOf, streak, same]
      · simp [stateOf, streak, same]
  have hits : (settings.queue before (settings.normalize message) ++ [message.time]).dropWhile
      (fun hit => settings.sameWindowSeconds < message.time - hit) =
        settings.within (settings.normalize message) message.time (message :: before) := by
    rw [dropWhile_eq_within (settings.queue_ordered ordered), filter_append,
      settings.queue_within (pairwise_cons.mp ordered).1]
    simp [within, filter_append]
  have recent : Function.update (settings.queue before) (settings.normalize message)
      (settings.within (settings.normalize message) message.time (message :: before)) =
        settings.queue (message :: before) := by
    funext text
    by_cases same : settings.normalize message = text
    · subst same
      simp [queue]
    · rw [Function.update_of_ne (Ne.symm same)]
      simp [queue, within, same]
  unfold violation
  rw [streaks]
  simp only [stateOf, hits, recent, List.head?_cons, Option.map_some]
  rfl

theorem counted_sublist (key : String) (past : List ChatMessage) : (settings.counted key past).Sublist past := by
  induction past with
  | nil => exact .slnil
  | cons message past ih =>
    rw [counted]
    split
    · exact ih.cons_cons _
    · exact ih.cons _

/-- A sender's state is that of its messages that count. -/
theorem states_eq (ordered : past.Pairwise fun later earlier => earlier.time ≤ later.time)
    (key : String) : settings.states past key =
      settings.stateOf (settings.counted key past) (settings.lastKick key past) := by
  induction past with
  | nil => rfl
  | cons message past ih =>
    have state := ih ordered.of_cons
    by_cases own : message.key = key
    · subst own
      have after := ordered.sublist ((settings.counted_sublist message.key past).cons_cons message)
      by_cases counting : settings.counts message past
      · have counted : settings.counted message.key (message :: past) =
            message :: settings.counted message.key past := if_pos ⟨rfl, counting⟩
        have beyond := counting.2
        rw [show settings.lastKick message.key past = (settings.states past message.key).lastKickAt by
          rw [state]; rfl] at beyond
        rw [states, lastKick, verdict, enforce_counts settings counting.1 beyond, counted]
        simp only [Function.update_self, state, settings.violation_eq _ after]
        by_cases none : settings.found message (settings.counted message.key past) = none
        · simp [none, stateOf]
        · simp [none, stateOf]
      · have idle : settings.enforce message (settings.states past) = (none, settings.states past) :=
          enforce_idle settings (by rw [state]; exact counting)
        have kick : settings.lastKick message.key (message :: past) =
            settings.lastKick message.key past := if_neg fun both => both.2 (by rw [verdict, idle])
        rw [states, idle, kick, counted, if_neg fun both => counting both.2]
        exact state
    · rw [states, enforce_other settings (Ne.symm own), state, counted, lastKick,
        if_neg fun both => own both.1, if_neg fun both => own both.1]

theorem verdict_eq (ordered : (message :: past).Pairwise fun later earlier =>
      earlier.time ≤ later.time) : settings.verdict message past =
    if settings.counts message past then
      settings.found message (settings.counted message.key past) else none := by
  have state := settings.states_eq ordered.of_cons message.key
  split
  case isTrue counting =>
    have beyond := counting.2
    rw [show settings.lastKick message.key past = (settings.states past message.key).lastKickAt by
      rw [state]; rfl] at beyond
    rw [verdict, enforce_counts settings counting.1 beyond, state]
    exact congrArg Prod.fst (settings.violation_eq _
      (ordered.sublist ((settings.counted_sublist message.key past).cons_cons message)))
  case isFalse idle => rw [verdict, enforce_idle settings (by rw [state]; exact idle)]

theorem streak_iff : settings.sameConsecutiveLimit < settings.streak (message :: before) ↔
    settings.RepeatsConsecutively message before := by
  have run := @le_length_takeWhile _ (fun other =>
    decide (settings.normalize other = settings.normalize message)) before
    settings.sameConsecutiveLimit.toNat
  simp only [decide_eq_true_eq] at run
  rw [RepeatsConsecutively, ← run, streak]
  omega

theorem found_type (type : ViolationType) : (settings.found message before).map Violation.type = some type ↔
      type = .consecutiveRepeat ∧ settings.RepeatsConsecutively message before ∨
        type = .windowRepeat ∧ ¬ settings.RepeatsConsecutively message before ∧
          settings.RepeatsInWindow message before := by
  rw [← streak_iff, RepeatsInWindow, found]
  split
  case isTrue many => simp [many, eq_comm]
  case isFalse few =>
    split
    case isTrue often => simp [few, often, eq_comm]
    case isFalse rare => simp [few, rare]

theorem lastKick_ge {earlier : ChatMessage} {before : List ChatMessage}
    (ordered : past.Pairwise fun later earlier => earlier.time ≤ later.time)
    (inside : (earlier :: before) <:+ past) (own : earlier.key = key)
    (kicked : settings.verdict earlier before ≠ none) : earlier.time ≤ settings.lastKick key past := by
  induction past with
  | nil => simp at inside
  | cons message past ih =>
    obtain ⟨latest, ordered⟩ := pairwise_cons.mp ordered
    rw [lastKick]
    rcases suffix_cons_iff.mp inside with same | inside
    · obtain ⟨rfl, rfl⟩ := List.cons.inj same
      rw [if_pos ⟨own, kicked⟩]
    · split
      · exact latest earlier (inside.subset mem_cons_self)
      · exact ih ordered inside

theorem enforce_congr {states other : String → SpamState} (same : states message.key = other message.key) :
    (settings.enforce message states).1 = (settings.enforce message other).1 ∧
      (settings.enforce message states).2 message.key = (settings.enforce message other).2 message.key := by
  by_cases counting : settings.watches message ∧
      settings.kickCooldownSeconds ≤ message.time - (states message.key).lastKickAt
  · rw [enforce_counts settings counting.1 counting.2, enforce_counts settings counting.1 (same ▸ counting.2), same]
    simp
  · rw [enforce_idle settings counting, enforce_idle settings (same ▸ counting)]
    exact ⟨rfl, same⟩

theorem states_filter (key : String) (past : List ChatMessage) :
    settings.states (past.filter fun other => other.key = key) key = settings.states past key := by
  induction past with
  | nil => rfl
  | cons message past ih =>
    by_cases own : message.key = key
    · rw [filter_cons, if_pos (decide_eq_true own)]
      subst own
      exact (settings.enforce_congr ih).2
    · rw [filter_cons_of_neg (by simpa using own), ih, states, enforce_other settings (Ne.symm own)]

/-- A verdict is what the definition spoken of the sender's messages that count. -/
theorem verdict_iff (ordered : (message :: past).Pairwise fun later earlier =>
      earlier.time ≤ later.time) :
    (settings.KicksAs .consecutiveRepeat message past ↔ settings.counts message past ∧
        settings.RepeatsConsecutively message (settings.counted message.key past)) ∧
      (settings.KicksAs .windowRepeat message past ↔ settings.counts message past ∧
        ¬ settings.RepeatsConsecutively message (settings.counted message.key past) ∧
        settings.RepeatsInWindow message (settings.counted message.key past)) ∧
      (∀ earlier before, (earlier :: before) <:+ past → earlier.key = message.key →
        settings.verdict earlier before ≠ none → settings.verdict message past ≠ none →
          settings.kickCooldownSeconds ≤ message.time - earlier.time) ∧
      settings.verdict message past = settings.verdict message (past.filter fun other => other.key = message.key) := by
  have definition := settings.verdict_eq ordered
  refine ⟨?_, ?_, fun earlier before inside own kicked kicks => ?_, ?_⟩
  · rw [KicksAs, definition]
    by_cases counting : settings.counts message past
    · rw [if_pos counting, found_type]
      simp [counting]
    · simp [counting]
  · rw [KicksAs, definition]
    by_cases counting : settings.counts message past
    · rw [if_pos counting, found_type]
      simp [counting]
    · simp [counting]
  · have counting : settings.counts message past := by
      by_contra idle
      rw [definition, if_neg idle] at kicks
      exact kicks rfl
    have last := settings.lastKick_ge ordered.of_cons inside own kicked
    have beyond := counting.2
    linarith
  · exact (settings.enforce_congr (settings.states_filter message.key past)).1.symm

/-- The defaults, where texts are lower case already. -/
def reference : SpamSettings := ⟨true, 1, 3, 5, 30, 300, id⟩

def spoken (text : String) (time : ℚ) : ChatMessage := ⟨"player", "F1", text, time, false⟩

/-- Four times the same, the kick, and another text in its cooldown. -/
def cooled : List ChatMessage :=
  [spoken "b" 1100, spoken "a" 1003, spoken "a" 1002, spoken "a" 1001, spoken "a" 1000]

theorem cooled_verdict : reference.verdict (spoken "a" 1400) cooled =
    reference.verdict (spoken "a" 1400) (cooled.filter fun other => other.key = (spoken "a" 1400).key) :=
  (reference.verdict_iff (by norm_num [spoken, cooled])).2.2.2

theorem cooled_message_forgotten : ¬ ∀ (settings : SpamSettings) (message : ChatMessage)
    (past : List ChatMessage), (message :: past).Pairwise (fun later earlier =>
      earlier.time ≤ later.time) → settings.KicksAs .consecutiveRepeat message past →
    settings.RepeatsConsecutively message
      (past.filter fun other => other.key = message.key && settings.watches other) := by
  intro all
  have repeats := all reference (spoken "a" 1400) cooled (by norm_num [spoken, cooled])
    (by unfold KicksAs; decide +kernel)
  exact absurd repeats (by decide +kernel)

end SpamSettings

end Dash.Chat
