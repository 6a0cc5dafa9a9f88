import Mathlib.Data.List.Nodup

/-! The listener of chat commands and its queue, step by step, and how often a command takes effect.

The broker hands out one message at a time and keeps it until it is acknowledged. Whether a handler
comes to its effect is left to the steps: it depends on the database, the gates and the arguments.
-/

set_option autoImplicit false

namespace Dash.Chat.Delivery

inductive Effect where
  | listing | cashout | gmCommand | teleport | backup | restore
  deriving DecidableEq

inductive Command where
  /-- Lists an item, or suggests one and waits for an answer. -/
  | auction
  | auctionYes
  | auctionNo
  | cashout
  | gm
  /-- A live teleport, which uses up an arm. -/
  | armed
  | arm
  /-- The guarded teleport of an offline player. -/
  | teleport
  | backup
  | restorePreview
  | restoreYes
  | restoreNo
  | other
  deriving DecidableEq

structure Message where
  number : Nat
  sender : String
  parts : List String
  deriving DecidableEq

structure Platform where
  /-- `str.lower` -/
  lower : String → String
  /-- `re.fullmatch(r"\d+", text)` -/
  isSlot : String → Bool
  /-- `auction_confirmation_key` and `dd1_restore_confirmation_key` -/
  confirmation : Message → String
  /-- The action, the admin and the target that an arm is for. -/
  armOf : Message → String
  /-- `DUNE_CHAT_COMMAND_ONLINE_GM_TELEPORT_REQUIRE_ARM` -/
  requireArm : Bool

/-- The subcommands of `&gm` that send a command without an arm. -/
def gmCommands : List String := ["recall", "pos", "unstuck", "item", "kit", "tp", "map", "tomap",
  "travel", "travelto", "dimension", "dim", "patrol", "patrolship", "sandworm", "marker",
  "personalmarker", "vehicle", "fly", "ghost", "walk"]

structure Handling where
  message : Message
  ready : Bool
  effect : Option Effect

structure System where
  published : Nat
  /-- The messages that are not acknowledged, in order; a handler has the first one. -/
  queue : List Message
  connected : Bool
  handling : Option Handling
  /-- `AUCTION_CONFIRMATIONS` -/
  auctions : String → Bool
  /-- `DD1_RESTORE_CONFIRMATIONS` -/
  restores : String → Bool
  /-- The file of arms. -/
  arms : String → Bool
  effects : List (Nat × Effect)

def start : System := ⟨0, [], true, none, fun _ => false, fun _ => false, fun _ => false, []⟩

def System.times (system : System) (number : Nat) : Nat :=
  system.effects.countP fun entry => entry.1 = number

inductive Step where
  | publish (sender : String) (parts : List String)
  | deliver
  /-- A suggestion or a preview waits for an answer. -/
  | suggest
  | arm
  | disarm
  | act (effect : Effect)
  | settle
  /-- The handler returns or raises, and the message is acknowledged. -/
  | finish
  | lose
  | die
  | restart

namespace Platform

variable (platform : Platform)

def auctionOf : List String → Command
  | [] => .other
  | [answer] =>
    if platform.lower answer ∈ ["yes", "y"] then .auctionYes
    else if platform.lower answer ∈ ["no", "n"] then .auctionNo
    else .auction
  | _ => .auction

/-- `parse_dd1_restore_args` -/
def restoreOf : List String → Command
  | [] => .restorePreview
  | first :: _ =>
    if platform.lower first ∈ ["yes", "y", "confirm"] then .restoreYes
    else if platform.lower first ∈ ["no", "n", "cancel"] then .restoreNo
    else .restorePreview

/-- `handle_gm_command` -/
def gmOf : List String → Command
  | [] => .other
  | subcommand :: _ =>
    if platform.lower subcommand ∈ ["goto", "bring", "summon"] then .armed
    else if platform.lower subcommand ∈ gmCommands then .gm
    else .other

def teleportOf : List String → Command
  | [] => .other
  | subcommand :: rest =>
    if platform.lower subcommand ∈ ["list", "locations", "set", "replace", "delete", "rm"] then .other
    else if rest = [] ∧ platform.isSlot subcommand = true then .gm
    else .teleport

/-- The branches of `handle_command`. -/
def commandOf : List String → Command
  | [] => .other
  | name :: args =>
    let command := platform.lower name
    if command ∈ ["exchange_cashout", "cashout"] then .cashout
    else if command = "auction" then platform.auctionOf args
    else if command ∈ ["dd1_backup", "dd1backup", "dd_backup"] then .backup
    else if command ∈ ["dd1_restore", "dd1restore", "dd_restore"] then platform.restoreOf args
    else if command = "gm" then platform.gmOf args
    else if command = "teleport" then platform.teleportOf args
    else if command ∈ ["armgoto", "armbring"] then .arm
    else if command ∈ ["goto", "teleportto", "tpto", "bring", "summon", "tphere"] then .armed
    else .other

def command (message : Message) : Command := platform.commandOf message.parts

end Platform

def Command.effect? : Command → Option Effect
  | .auction | .auctionYes => some .listing
  | .cashout => some .cashout
  | .gm | .armed => some .gmCommand
  | .teleport => some .teleport
  | .backup => some .backup
  | .restoreYes => some .restore
  | _ => none

namespace System

def ended (system : System) : System :=
  { system with
    connected := false, handling := none, auctions := fun _ => false, restores := fun _ => false }

def record (system : System) (handling : Handling) (effect : Effect) : System :=
  { system with
    handling := some { handling with effect := some effect }
    effects := system.effects ++ [(handling.message.number, effect)] }

end System

namespace Platform

variable (platform : Platform)

def admits (system : System) (handling : Handling) : Bool :=
  match platform.command handling.message with
  | .auctionYes => system.auctions (platform.confirmation handling.message)
  | .restoreYes => system.restores (platform.confirmation handling.message)
  | .armed => !platform.requireArm || handling.ready
  | _ => true

def act (effect : Effect) (handling : Handling) (system : System) : System :=
  if handling.effect = none ∧ (platform.command handling.message).effect? = some effect ∧
      platform.admits system handling = true then system.record handling effect
  else system

def note (handling : Handling) (waits : Bool) (system : System) : System :=
  let name := platform.confirmation handling.message
  match platform.command handling.message, waits with
  | .auction, true => { system with auctions := Function.update system.auctions name true }
  | .restorePreview, true => { system with restores := Function.update system.restores name true }
  | .auctionYes, false | .auctionNo, false =>
    { system with auctions := Function.update system.auctions name false }
  | .restoreYes, false | .restoreNo, false =>
    { system with restores := Function.update system.restores name false }
  | _, _ => system

/-- `consume_online_gm_teleport_arm` -/
def disarm (handling : Handling) (system : System) : System :=
  let name := platform.armOf handling.message
  if platform.command handling.message = .armed ∧ handling.effect = none ∧ system.arms name = true then
    { system with
      arms := Function.update system.arms name false
      handling := some { handling with ready := true } }
  else system

def handle (handling : Handling) (system : System) : Step → System
  | .suggest => platform.note handling true system
  | .settle => platform.note handling false system
  | .arm =>
    if platform.command handling.message = .arm then
      { system with arms := Function.update system.arms (platform.armOf handling.message) true }
    else system
  | .disarm => platform.disarm handling system
  | .act effect => platform.act effect handling system
  -- Without its connection the acknowledgement raises, also in the handler of the exception.
  | .finish => if system.connected then { system with queue := system.queue.tail, handling := none }
      else system.ended
  | _ => system

def step (system : System) : Step → System
  | .publish sender parts =>
    { system with
      published := system.published + 1
      queue := system.queue ++ [⟨system.published, sender, parts⟩] }
  | .deliver =>
    match system.handling, system.connected, system.queue with
    | none, true, message :: _ => { system with handling := some ⟨message, false, none⟩ }
    | _, _, _ => system
  | .lose =>
    match system.handling with
    | none => system.ended
    | some _ => { system with connected := false }
  | .die => system.ended
  | .restart =>
    match system.handling with
    | none => { system with connected := true }
    | some _ => system
  | taken =>
    match system.handling with
    | none => system
    | some handling => platform.handle handling system taken

def run (steps : List Step) : System := steps.foldl platform.step start

end Platform

open List

variable {platform : Platform} {system : System}

/-- Nothing that a first delivery uses up keeps the second one from the effect. -/
def Platform.repeatable (platform : Platform) (message : Message) : Bool :=
  match platform.command message with
  | .auction | .cashout | .gm | .teleport | .backup => true
  | .armed => !platform.requireArm
  | _ => false

def Spent (platform : Platform) (system : System) (message : Message) : Prop :=
  match platform.command message with
  | .auctionYes => system.auctions (platform.confirmation message) = false
  | .restoreYes => system.restores (platform.confirmation message) = false
  | .armed => platform.requireArm = true ∧ system.arms (platform.armOf message) = false
  | _ => False

def Platform.Spares (platform : Platform) (system : System) : Step → Prop
  | .act _ => ∀ handling, system.handling = some handling →
      platform.repeatable handling.message = true → system.connected = true
  | .lose | .die => ∀ handling, system.handling = some handling →
      platform.repeatable handling.message = true → handling.effect = none
  | _ => True

def Platform.SparesAll (platform : Platform) (system : System) : List Step → Prop
  | [] => True
  | taken :: rest => platform.Spares system taken ∧ platform.SparesAll (platform.step system taken) rest

structure Invariant (platform : Platform) (system : System) : Prop where
  numbered : ∀ message ∈ system.queue, message.number < system.published
  apart : (system.queue.map Message.number).Nodup
  head : ∀ handling, system.handling = some handling → system.queue.head? = some handling.message
  counted : ∀ entry ∈ system.effects, entry.1 < system.published
  once : ∀ number, system.times number ≤ 1
  /-- Only the first message can have had its effect: in its handler, or it cannot have it again. -/
  first : ∀ message ∈ system.queue, system.times message.number ≠ 0 → system.queue.head? = some message ∧
      ((∃ handling, system.handling = some handling ∧ handling.effect ≠ none) ∨ (Spent platform system message ∧
          ∀ handling, system.handling = some handling → handling.ready = false))
  /-- A handler that is ready has used up the arm. -/
  used : ∀ handling, system.handling = some handling → handling.ready = true →
    platform.command handling.message = .armed ∧ system.arms (platform.armOf handling.message) = false
  /-- A handler had an effect of its command, and the arm that it needs. -/
  owned : ∀ handling, system.handling = some handling → handling.effect ≠ none →
    (platform.command handling.message).effect? ≠ none ∧
      (platform.command handling.message = .armed → platform.requireArm = true → handling.ready = true)
  live : ∀ handling, system.handling = some handling → handling.effect ≠ none →
    platform.repeatable handling.message = true → system.connected = true

theorem start_invariant (platform : Platform) : Invariant platform start where
  numbered := nofun
  apart := nodup_nil
  head := nofun
  counted := nofun
  once _ := Nat.zero_le _
  first := nofun
  used := nofun
  owned := nofun
  live := nofun

theorem times_fresh (invariant : Invariant platform system) : system.times system.published = 0 := by
  refine countP_eq_zero.mpr fun entry member => ?_
  have below := invariant.counted entry member
  simp only [decide_eq_true_eq]
  omega

theorem times_record (system : System) (handling : Handling) (effect : Effect) (number : Nat) :
    (system.record handling effect).times number =
      system.times number + if handling.message.number = number then 1 else 0 := by
  simp [System.times, System.record]

variable {handling : Handling}

theorem spent_of_ended (invariant : Invariant platform system)
    (handles : system.handling = some handling) (had : handling.effect ≠ none)
    (protected_ : platform.repeatable handling.message = false) :
    Spent platform system.ended handling.message := by
  obtain ⟨effective, arm⟩ := invariant.owned handling handles had
  unfold Platform.repeatable at protected_
  unfold Spent
  cases kind : platform.command handling.message <;> rw [kind] at protected_ effective <;>
    simp only [Command.effect?, ne_eq, not_true_eq_false, reduceCtorEq] at protected_ effective ⊢
  · rfl
  · have required : platform.requireArm = true := by simpa using protected_
    exact ⟨required, (invariant.used handling handles (arm kind required)).2⟩
  · rfl

theorem spent_ended {message : Message} (spent : Spent platform system message) :
    Spent platform system.ended message := by
  unfold Spent at *
  cases kind : platform.command message <;> rw [kind] at spent <;> simp only at spent ⊢
  · rfl
  · exact spent
  · rfl

section

variable (invariant : Invariant platform system)
include invariant

/-- The process ends, and nothing repeatable was in progress. -/
theorem Invariant.ended
    (calm : ∀ handling, system.handling = some handling → platform.repeatable handling.message = true →
      handling.effect = none) : Invariant platform system.ended where
  numbered := invariant.numbered
  apart := invariant.apart
  head := nofun
  counted := invariant.counted
  once := invariant.once
  first message member some_ := by
    obtain ⟨leads, how⟩ := invariant.first message member some_
    refine ⟨leads, .inr ⟨?_, nofun⟩⟩
    rcases how with ⟨handling, handles, had⟩ | ⟨spent, -⟩
    · have same := Option.some.inj (leads.symm.trans (invariant.head handling handles))
      subst same
      refine spent_of_ended invariant handles had ((Bool.not_eq_true _).mp fun open_ => ?_)
      exact had (calm handling handles open_)
    · exact spent_ended spent
  used := nofun
  owned := nofun
  live := nofun

variable (handles : system.handling = some handling)

include handles in
/-- Confirmations and arms change in the handler of a message that stays without its effect, if it
was without. -/
theorem Invariant.noted {next : System}
    (published : next.published = system.published)
    (queue : next.queue = system.queue) (connected : next.connected = system.connected)
    (same : next.handling = system.handling) (effects : next.effects = system.effects)
    (spent : Spent platform system handling.message → Spent platform next handling.message)
    (arms : handling.ready = true → next.arms (platform.armOf handling.message) = false) :
    Invariant platform next where
  numbered := by rw [queue, published]; exact invariant.numbered
  apart := by rw [queue]; exact invariant.apart
  head := by rw [queue, same]; exact invariant.head
  counted := by rw [effects, published]; exact invariant.counted
  once number := by rw [System.times, effects]; exact invariant.once number
  first message member some_ := by
    rw [queue] at member ⊢
    rw [System.times, effects] at some_
    obtain ⟨leads, how⟩ := invariant.first message member some_
    refine ⟨leads, how.imp (fun had => ?_) fun ⟨before, idle⟩ => ?_⟩
    · rw [same]
      exact had
    · have one := Option.some.inj (leads.symm.trans (invariant.head handling handles))
      subst one
      exact ⟨spent before, by rw [same]; exact idle⟩
  used other found ready := by
    rw [same, handles] at found
    cases found
    exact ⟨(invariant.used handling handles ready).1, arms ready⟩
  owned := by rw [same]; exact invariant.owned
  live := by rw [same, connected]; exact invariant.live

include handles in
theorem Invariant.note (waits : Bool) : Invariant platform (platform.note handling waits system) := by
  have arms : handling.ready = true → system.arms (platform.armOf handling.message) = false :=
    fun ready => (invariant.used handling handles ready).2
  unfold Platform.note
  cases kind : platform.command handling.message <;> cases waits <;>
    first
    | exact invariant
    | refine invariant.noted handles rfl rfl rfl rfl rfl (fun spent => ?_) arms
      unfold Spent at spent ⊢
      rw [kind] at spent ⊢
      first
      | exact spent.elim
      | exact Function.update_self ..

include handles in
theorem Invariant.armed (arms : platform.command handling.message = .arm) :
    Invariant platform { system with arms := Function.update system.arms (platform.armOf handling.message) true } := by
  refine invariant.noted handles rfl rfl rfl rfl rfl (fun spent => ?_) fun ready => ?_
  · unfold Spent at spent
    rw [arms] at spent
    exact spent.elim
  · exact nomatch arms.symm.trans (invariant.used handling handles ready).1

include handles in
theorem Invariant.quiet (none_ : handling.effect = none)
    (able : Spent platform system handling.message → handling.ready = true) :
    system.times handling.message.number = 0 := by
  by_contra some_
  have member := List.mem_of_head? (invariant.head handling handles)
  obtain ⟨-, ⟨other, found, had⟩ | ⟨spent, idle⟩⟩ := invariant.first _ member some_
  · cases handles.symm.trans found
    exact had none_
  · exact nomatch (idle handling handles).symm.trans (able spent)

include handles in
theorem Invariant.disarm : Invariant platform (platform.disarm handling system) := by
  unfold Platform.disarm
  dsimp only
  split
  · next fits =>
    obtain ⟨kind, none_, loaded⟩ := fits
    have quiet := invariant.quiet handles none_ fun spent => by
      unfold Spent at spent
      rw [kind] at spent
      exact nomatch loaded.symm.trans spent.2
    refine ⟨invariant.numbered, invariant.apart, ?_, invariant.counted, invariant.once, ?_, ?_, ?_, ?_⟩
    · rintro _ ⟨⟩
      exact invariant.head handling handles
    · intro message member some_
      obtain ⟨leads, -⟩ := invariant.first message member some_
      have one := Option.some.inj (leads.symm.trans (invariant.head handling handles))
      subst one
      exact absurd quiet some_
    · rintro _ ⟨⟩ -
      exact ⟨kind, Function.update_self ..⟩
    · rintro _ ⟨⟩ had
      exact absurd none_ had
    · rintro _ ⟨⟩ had
      exact absurd none_ had
  · exact invariant

include handles in
theorem Invariant.act {effect : Effect}
    (connected : platform.repeatable handling.message = true → system.connected = true) :
    Invariant platform (platform.act effect handling system) := by
  unfold Platform.act
  split
  · next fits =>
    obtain ⟨none_, kind, admitted⟩ := fits
    have quiet := invariant.quiet handles none_ fun spent => by
      unfold Spent at spent
      unfold Platform.admits at admitted
      cases command : platform.command handling.message <;> rw [command] at spent admitted <;>
        simp only at spent admitted
      · exact nomatch admitted.symm.trans spent
      · simpa [spent.1] using admitted
      · exact nomatch admitted.symm.trans spent
    have member := List.mem_of_head? (invariant.head handling handles)
    refine ⟨invariant.numbered, invariant.apart, ?_, ?_, ?_, ?_, ?_, ?_, ?_⟩
    · rintro _ ⟨⟩
      exact invariant.head handling handles
    · intro entry there
      rcases mem_append.mp there with old | new
      · exact invariant.counted entry old
      · cases mem_singleton.mp new
        exact invariant.numbered _ member
    · intro number
      rw [times_record]
      split
      · next same =>
        rw [← same]
        omega
      · exact invariant.once number
    · intro message there some_
      rw [times_record] at some_
      by_cases same : handling.message.number = message.number
      · have one := inj_on_of_nodup_map invariant.apart member there same
        subst one
        exact ⟨invariant.head handling handles, .inl ⟨_, rfl, nofun⟩⟩
      · rw [if_neg same, Nat.add_zero] at some_
        obtain ⟨leads, -⟩ := invariant.first message there some_
        have one := Option.some.inj (leads.symm.trans (invariant.head handling handles))
        exact absurd (congrArg Message.number one.symm) same
    · rintro _ ⟨⟩ ready
      exact invariant.used handling handles ready
    · rintro _ ⟨⟩ -
      refine ⟨?_, fun armed required => ?_⟩
      · rw [kind]
        exact nofun
      · unfold Platform.admits at admitted
        rw [armed, required] at admitted
        simpa using admitted
    · rintro _ ⟨⟩ - open_
      exact connected open_
  · exact invariant

include handles in
theorem Invariant.acknowledged :
    Invariant platform { system with queue := system.queue.tail, handling := none } := by
  obtain ⟨rest, queue⟩ : ∃ rest, system.queue = handling.message :: rest := by
    have leads := invariant.head handling handles
    cases whole : system.queue with
    | nil =>
      rw [whole] at leads
      cases leads
    | cons message rest =>
      rw [whole] at leads
      cases leads
      exact ⟨rest, rfl⟩
  have apart := invariant.apart
  rw [queue, map_cons, nodup_cons] at apart
  refine ⟨fun message member => ?_, ?_, nofun, invariant.counted, invariant.once,
    fun message member some_ => ?_, nofun, nofun, nofun⟩
  · exact invariant.numbered message (mem_of_mem_tail member)
  · simp only [queue, tail_cons]
    exact apart.2
  · -- An effect of another message would have put it first.
    simp only [queue, tail_cons] at member
    have there : message ∈ system.queue := queue ▸ mem_cons_of_mem _ member
    obtain ⟨leads, -⟩ := invariant.first message there some_
    rw [queue, List.head?_cons] at leads
    cases leads
    exact absurd (mem_map_of_mem member) apart.1

theorem Invariant.publish (sender : String)
    (parts : List String) : Invariant platform (platform.step system (.publish sender parts)) := by
  change Invariant platform { system with
    published := system.published + 1
    queue := system.queue ++ [⟨system.published, sender, parts⟩] }
  have below : ∀ {number : Nat}, number < system.published → number < system.published + 1 :=
    fun less => Nat.lt_succ_of_lt less
  have leads : ∀ {message : Message}, system.queue.head? = some message →
      (system.queue ++ [(⟨system.published, sender, parts⟩ : Message)]).head? = some message := by
    intro message first
    rw [List.head?_append, first]
    rfl
  refine ⟨fun message member => ?_, ?_, fun handling handles => leads (invariant.head handling handles),
    fun entry member => below (invariant.counted entry member), invariant.once,
    fun message member some_ => ?_, invariant.used, invariant.owned, invariant.live⟩
  · rcases mem_append.mp member with old | new
    · exact below (invariant.numbered message old)
    · cases mem_singleton.mp new
      exact Nat.lt_succ_self _
  · rw [map_append, nodup_append]
    refine ⟨invariant.apart, nodup_singleton _, fun number old other new => ?_⟩
    obtain ⟨message, member, rfl⟩ := mem_map.mp old
    cases mem_singleton.mp new
    exact Nat.ne_of_lt (invariant.numbered message member)
  · rcases mem_append.mp member with old | new
    · obtain ⟨front, how⟩ := invariant.first message old some_
      exact ⟨leads front, how⟩
    · cases mem_singleton.mp new
      exact absurd (times_fresh invariant) some_

theorem Invariant.deliver : Invariant platform (platform.step system .deliver) := by
  unfold Platform.step
  dsimp only
  split
  · next message rest idle connected queue =>
    refine ⟨invariant.numbered, invariant.apart, ?_, invariant.counted, invariant.once,
      fun other member some_ => ?_, ?_, ?_, ?_⟩
    · rintro _ ⟨⟩
      simp [queue]
    · obtain ⟨leads, ⟨handling, handles, -⟩ | ⟨spent, -⟩⟩ := invariant.first other member some_
      · cases idle.symm.trans handles
      · refine ⟨leads, .inr ⟨spent, ?_⟩⟩
        rintro _ ⟨⟩
        rfl
    · rintro _ ⟨⟩ ready
      cases ready
    · rintro _ ⟨⟩ had
      exact absurd rfl had
    · rintro _ ⟨⟩ had
      exact absurd rfl had
  · exact invariant

theorem Invariant.step (taken : Step)
    (spares : platform.Spares system taken) : Invariant platform (platform.step system taken) := by
  -- The steps in a handler.
  have inside : (∀ handling, system.handling = some handling →
      Invariant platform (platform.handle handling system taken)) →
      Invariant platform (match system.handling with
        | none => system
        | some handling => platform.handle handling system taken) := by
    intro each
    split
    · exact invariant
    · next handling handles => exact each handling handles
  cases taken with
  | publish sender parts => exact invariant.publish sender parts
  | deliver => exact invariant.deliver
  | suggest => exact inside fun handling handles => invariant.note handles true
  | arm =>
    refine inside fun handling handles => ?_
    change Invariant platform (if platform.command handling.message = .arm then _ else system)
    split
    · next arms => exact invariant.armed handles arms
    · exact invariant
  | disarm => exact inside fun handling handles => invariant.disarm handles
  | act effect => exact inside fun handling handles => invariant.act handles (spares handling handles)
  | settle => exact inside fun handling handles => invariant.note handles false
  | finish =>
    refine inside fun handling handles => ?_
    change Invariant platform (if system.connected = true then _ else system.ended)
    split
    · exact invariant.acknowledged handles
    · next lost =>
      refine invariant.ended fun other found open_ => ?_
      by_contra had
      exact lost (invariant.live other found had open_)
  | lose =>
    change Invariant platform (match system.handling with
      | none => system.ended
      | some _ => { system with connected := false })
    split
    · exact invariant.ended spares
    · next handling handles =>
      exact ⟨invariant.numbered, invariant.apart, invariant.head, invariant.counted, invariant.once,
        invariant.first, invariant.used, invariant.owned,
        fun other found had open_ => absurd (spares other found open_) had⟩
  | die => exact invariant.ended spares
  | restart =>
    change Invariant platform (match system.handling with
      | none => { system with connected := true }
      | some _ => system)
    split
    · exact ⟨invariant.numbered, invariant.apart, invariant.head, invariant.counted, invariant.once,
        invariant.first, invariant.used, invariant.owned, fun _ _ _ _ => rfl⟩
    · exact invariant

theorem Invariant.steps (steps : List Step) (spares : platform.SparesAll system steps) :
    Invariant platform (steps.foldl platform.step system) := by
  induction steps generalizing system with
  | nil => exact invariant
  | cons taken rest after => exact after (invariant.step taken spares.1) spares.2

end

/-- Where no connection and no process is lost around a repeatable effect, a message has one effect
at most, however often it is delivered. -/
theorem command_once (platform : Platform) (steps : List Step)
    (spares : platform.SparesAll start steps) (number : Nat) :
    (platform.run steps).times number ≤ 1 :=
  ((start_invariant platform).steps steps spares).once number

def plainPlatform : Platform where
  lower text := String.ofList (text.toList.map Char.toLower)
  isSlot text := text.toList.all Char.isDigit
  confirmation message := message.sender
  armOf message := message.sender
  requireArm := true

def sentAgain : List Step := [.publish "admin" ["gm", "vehicle", "buggy"], .deliver, .act .gmCommand,
  .die, .restart, .deliver, .act .gmCommand, .finish]

theorem sentAgain_twice : (plainPlatform.run sentAgain).times 0 = 2 := by decide

def restoredOnce : List Step := [.publish "player" ["dd1_restore", "4"],
  .publish "player" ["dd1_restore", "yes"], .deliver, .suggest, .finish, .deliver, .act .restore,
  .die, .restart, .deliver, .act .restore, .finish]

theorem restoredOnce_spares : plainPlatform.SparesAll start restoredOnce := by
  have protected_ : plainPlatform.repeatable ⟨1, "player", ["dd1_restore", "yes"]⟩ ≠ true := by
    decide
  refine ⟨trivial, trivial, trivial, trivial, trivial, trivial, ?_, ?_, trivial, trivial, ?_, trivial, trivial⟩ <;>
  · rintro handling ⟨⟩ open_
    exact absurd open_ protected_

theorem command_once_restored : (plainPlatform.run restoredOnce).times 1 ≤ 1 :=
  command_once plainPlatform restoredOnce restoredOnce_spares 1

end Dash.Chat.Delivery
