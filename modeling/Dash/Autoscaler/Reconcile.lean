import Dash.Autoscaler.Tick
import Mathlib.Data.List.Induction

/-! What the reconciliation of a tick stops, keeps and records. -/

set_option autoImplicit false

namespace Dash.Autoscaler

open List
open Function (update_of_ne update_self)

def Ends (returned raised : Progress → Prop) : Doing → Prop
  | .ok progress => returned progress
  | .error progress => raised progress

theorem Ends.bind {first : Doing} {next : Progress → Doing} {returned raised : Progress → Prop}
    (middle : Progress → Prop) (begun : Ends middle raised first)
    (rest : ∀ progress, middle progress → Ends returned raised (next progress)) :
    Ends returned raised (first >>= next) := by
  cases first with
  | ok progress => exact rest progress begun
  | error progress => exact begun

variable {progress : Progress}

theorem Ends.foldlM {α : Type} {body : Progress → α → Doing} {raised : Progress → Prop}
    (left : List α → Progress → Prop) (round : ∀ item rest progress, left (item :: rest) progress →
      Ends (left rest) raised (body progress item)) (items : List α)
    (starts : left items progress) : Ends (left []) raised (items.foldlM body progress) := by
  induction items generalizing progress with
  | nil => exact starts
  | cons item rest ih =>
    rw [foldlM_cons]
    exact Ends.bind _ (round item rest progress starts) fun _ kept => ih kept

namespace Sight

variable (rt : Platform) (sight : Sight)

def Idle (service : String) : Prop :=
  sight.look.inventory service = some true ∧ sight.look.counts service = 0 ∧
    sight.state.demanded service sight.look.now = false

instance (service : String) : Decidable (sight.Idle service) :=
  inferInstanceAs (Decidable (_ ∧ _ ∧ _))

def idleSince (service : String) : ℚ := (sight.state.idleSince service).getD sight.look.now

def activity (service : String) : ℚ :=
  orTime (sight.state.lastActivity service) (sight.idleSince service)

def Expired (service : String) : Prop :=
  (rt.retentionSeconds sight.state service : ℚ) ≤ sight.look.now - sight.idleSince service

instance (service : String) : Decidable (sight.Expired rt service) :=
  inferInstanceAs (Decidable (_ ≤ _))

def Kept (service : String) : Prop :=
  sight.Idle service ∧ sight.state.mode service = .dynamic ∧ ¬ sight.Expired rt service

instance (service : String) : Decidable (sight.Kept rt service) :=
  inferInstanceAs (Decidable (_ ∧ _ ∧ ¬ _))

def kept : List String := rt.GAME_MAP_SERVICES.filter fun service => sight.Kept rt service

def warm (service : String) : Warm :=
  ⟨service, sight.activity service, sight.idleSince service⟩

end Sight

variable {rt : Platform} {sight : Sight}

structure SameSettings (first second : State) : Prop where
  modes : first.modes = second.modes
  retention : first.retentionSeconds = second.retentionSeconds
  retentions : first.retentionByService = second.retentionByService
  warm : first.maxWarmDynamicMaps = second.maxWarmDynamicMaps
  memory : first.minAvailableMemoryBytes = second.minAvailableMemoryBytes
  ttl : first.demandTtlSeconds = second.demandTtlSeconds

structure SameService (first second : State) (service : String) : Prop where
  idleSince : first.idleSince service = second.idleSince service
  demand : first.demand service = second.demand service
  lastActivity : first.lastActivity service = second.lastActivity service

variable {first second : State}

theorem SameSettings.mode (same : SameSettings first second)
    (service : String) : first.mode service = second.mode service := by
  rw [State.mode, State.mode, same.modes]

theorem SameSettings.seconds (same : SameSettings first second)
    (service : String) : rt.retentionSeconds first service = rt.retentionSeconds second service := by
  rw [Platform.retentionSeconds, Platform.retentionSeconds, same.retention, same.retentions]

variable {service : String}

theorem SameSettings.demanded (same : SameSettings first second) (own : SameService first second service) (now : ℚ) :
    first.demanded service now = second.demanded service now := by
  rw [State.demanded, State.demanded, own.demand, same.ttl]

structure Looped (rt : Platform) (sight : Sight) (stop : Stop) : Prop where
  idle : sight.Idle stop.service
  why : (stop.reason = .disabled ∧ sight.state.mode stop.service = .disabled) ∨
    (stop.reason = .retentionExpired ∧ sight.state.mode stop.service = .dynamic ∧ sight.Expired rt stop.service)

structure Looping (rt : Platform) (sight : Sight) (left : List String) (progress : Progress) :
    Prop where
  settings : SameSettings progress.state sight.state
  services : ∀ service ∈ left, SameService progress.state sight.state service
  issued : ∀ stop ∈ progress.issued, Looped rt sight stop
  warm : ∃ visited, rt.GAME_MAP_SERVICES = visited ++ left ∧
    progress.warm = (visited.filter fun service => sight.Kept rt service).map sight.warm ∧
    ∀ service ∈ visited, sight.Idle service → sight.state.mode service = .dynamic →
      sight.Expired rt service → ∃ stop ∈ progress.issued, stop.service = service
  stopped : ∀ service ∈ progress.stopped, ∃ stop ∈ progress.issued, stop.service = service
  /-- Entries that are left were there, or begin now. -/
  entries : ∀ service since, progress.state.idleSince service = some since →
    sight.state.idleSince service = some since ∨ (sight.Idle service ∧ since = sight.look.now)
  /-- Players alone end a demand. -/
  demand : ∀ service, progress.state.demand service = sight.state.demand service ∨ 0 < sight.look.counts service
  demandCount : progress.state.demandCount = sight.state.demandCount
  demandEvents : progress.state.demandEvents = sight.state.demandEvents
  counted : progress.state.counted = sight.state.counted
  enabled : progress.state.enabled = sight.state.enabled

structure Moves (service : String) (before after : State) : Prop where
  settings : SameSettings after before
  others : ∀ other, other ≠ service → SameService after before other
  demandCount : after.demandCount = before.demandCount
  demandEvents : after.demandEvents = before.demandEvents
  counted : after.counted = before.counted
  enabled : after.enabled = before.enabled

theorem Moves.refl (service : String) (state : State) : Moves service state state :=
  ⟨⟨rfl, rfl, rfl, rfl, rfl, rfl⟩, fun _ _ => ⟨rfl, rfl, rfl⟩, rfl, rfl, rfl, rfl⟩

theorem Moves.trans {first second third : State}
    (early : Moves service first second) (late : Moves service second third) :
    Moves service first third where
  settings :=
    ⟨late.settings.modes.trans early.settings.modes, late.settings.retention.trans early.settings.retention,
      late.settings.retentions.trans early.settings.retentions,
      late.settings.warm.trans early.settings.warm,
      late.settings.memory.trans early.settings.memory, late.settings.ttl.trans early.settings.ttl⟩
  others other apart :=
    ⟨(late.others other apart).idleSince.trans (early.others other apart).idleSince,
      (late.others other apart).demand.trans (early.others other apart).demand,
      (late.others other apart).lastActivity.trans (early.others other apart).lastActivity⟩
  demandCount := late.demandCount.trans early.demandCount
  demandEvents := late.demandEvents.trans early.demandEvents
  counted := late.counted.trans early.counted
  enabled := late.enabled.trans early.enabled

section Updates

variable (service : String) (state : State) (now : ℚ)

theorem started_moves : Moves service state (state.started service) :=
  ⟨⟨rfl, rfl, rfl, rfl, rfl, rfl⟩, fun _ apart => ⟨update_of_ne apart .., rfl, rfl⟩, rfl, rfl, rfl, rfl⟩

theorem visited_moves : Moves service state (state.visited service now) :=
  ⟨⟨rfl, rfl, rfl, rfl, rfl, rfl⟩, fun _ apart => ⟨update_of_ne apart ..,
    update_of_ne apart .., update_of_ne apart ..⟩, rfl, rfl, rfl, rfl⟩

theorem needed_moves : Moves service state (state.needed service) :=
  ⟨⟨rfl, rfl, rfl, rfl, rfl, rfl⟩, fun _ apart => ⟨update_of_ne apart .., rfl, rfl⟩, rfl, rfl, rfl, rfl⟩

theorem idleFrom_moves : Moves service state (state.idleFrom service now) :=
  ⟨⟨rfl, rfl, rfl, rfl, rfl, rfl⟩, fun _ apart => ⟨update_of_ne apart .., rfl, rfl⟩, rfl, rfl, rfl, rfl⟩

theorem evicted_moves (reason : Reason) : Moves service state (state.evicted service reason) :=
  ⟨⟨rfl, rfl, rfl, rfl, rfl, rfl⟩, fun _ _ => ⟨rfl, rfl, rfl⟩, rfl, rfl, rfl, rfl⟩

theorem idleFrom_idleSince : (state.idleFrom service now).idleSince service =
    some ((state.idleSince service).getD now) := update_self ..

theorem needed_idleSince : (state.needed service).idleSince service = none :=
  update_self ..

end Updates

section Loop

variable {service : String} {rest : List String} {progress : Progress}

section

variable (loop : Looping rt sight (service :: rest) progress)
include loop

theorem Looping.apart : service ∉ rest := by
  obtain ⟨visited, split, -⟩ := loop.warm
  have distinct := rt.distinct
  rw [split] at distinct
  exact (nodup_cons.mp (nodup_append.mp distinct).2.1).1

theorem Looping.own : SameService progress.state sight.state service :=
  loop.services service mem_cons_self

theorem Looping.next {next : Progress} (moves : Moves service progress.state next.state)
    (entry : ∀ since, next.state.idleSince service = some since →
      sight.state.idleSince service = some since ∨ (sight.Idle service ∧ since = sight.look.now))
    (demand : next.state.demand service = progress.state.demand service ∨ 0 < sight.look.counts service)
    (issued : ∀ stop ∈ next.issued, Looped rt sight stop)
    (more : ∀ stop ∈ progress.issued, stop ∈ next.issued)
    (stopped : ∀ service ∈ next.stopped, ∃ stop ∈ next.issued, stop.service = service)
    (due : sight.Idle service → sight.state.mode service = .dynamic → sight.Expired rt service →
      ∃ stop ∈ next.issued, stop.service = service)
    (warm : next.warm = progress.warm ++
      (if sight.Kept rt service then [sight.warm service] else [])) :
    Looping rt sight rest next where
  settings :=
    ⟨moves.settings.modes.trans loop.settings.modes, moves.settings.retention.trans loop.settings.retention,
      moves.settings.retentions.trans loop.settings.retentions,
      moves.settings.warm.trans loop.settings.warm,
      moves.settings.memory.trans loop.settings.memory,
      moves.settings.ttl.trans loop.settings.ttl⟩
  services other member := by
    have apart : other ≠ service := fun same => loop.apart (same ▸ member)
    have same := moves.others other apart
    have before := loop.services other (mem_cons_of_mem _ member)
    exact ⟨same.idleSince.trans before.idleSince, same.demand.trans before.demand,
      same.lastActivity.trans before.lastActivity⟩
  issued := issued
  warm := by
    obtain ⟨visited, split, same, gone⟩ := loop.warm
    refine ⟨visited ++ [service], by rw [split, append_assoc, singleton_append], ?_,
      fun other member idle dynamic expired => ?_⟩
    · rw [warm, same, filter_append, map_append]
      congr 1
      by_cases kept : sight.Kept rt service
      · rw [if_pos kept, filter_cons_of_pos (by simpa using kept)]
        rfl
      · rw [if_neg kept, filter_cons_of_neg (by simpa using kept)]
        rfl
    · rcases mem_append.mp member with before | here
      · obtain ⟨stop, listed, same⟩ := gone other before idle dynamic expired
        exact ⟨stop, more stop listed, same⟩
      · cases mem_singleton.mp here
        exact due idle dynamic expired
  stopped := stopped
  entries other since found := by
    by_cases same : other = service
    · subst same
      exact entry since found
    · rw [(moves.others other same).idleSince] at found
      exact loop.entries other since found
  demand other := by
    by_cases same : other = service
    · subst same
      rcases demand with kept | players
      · rw [kept]
        exact loop.demand other
      · exact .inr players
    · rw [(moves.others other same).demand]
      exact loop.demand other
  demandCount := moves.demandCount.trans loop.demandCount
  demandEvents := moves.demandEvents.trans loop.demandEvents
  counted := moves.counted.trans loop.counted
  enabled := moves.enabled.trans loop.enabled

theorem Looping.pass {state : State} (moves : Moves service progress.state state)
    (entry : state.idleSince service = none ∨ state = progress.state)
    (demand : state.demand service = progress.state.demand service ∨ 0 < sight.look.counts service)
    (busy : ¬ sight.Idle service) : Looping rt sight rest { progress with state := state } := by
  refine loop.next moves (fun since found => ?_) demand loop.issued (fun _ member => member) loop.stopped
    (fun idle => absurd idle busy) ?_
  · rcases entry with none_ | same
    · rw [none_] at found
      cases found
    · rw [same] at found
      exact loop.entries service since found
  · rw [if_neg fun kept => busy kept.1, append_nil]

theorem Looping.stops {state : State}
    {reason : Reason} (looped : Looped rt sight ⟨service, reason⟩) (out : ¬ sight.Kept rt service)
    (moves : Moves service progress.state state)
    (entry : ∀ since, state.idleSince service = some since →
      sight.state.idleSince service = some since ∨ (sight.Idle service ∧ since = sight.look.now))
    (demand : state.demand service = progress.state.demand service) :
    Ends (Looping rt sight rest) (fun progress => ∀ stop ∈ progress.issued, Looped rt sight stop)
      (sight.look.stop reason service { progress with state := state }) := by
  have issued : ∀ stop ∈ progress.issued ++ [⟨service, reason⟩], Looped rt sight stop := by
    intro stop member
    rcases mem_append.mp member with before | new
    · exact loop.issued stop before
    · exact mem_singleton.mp new ▸ looped
  unfold Look.stop
  cases sight.look.acts service with
  | none => exact issued
  | some ok =>
    refine loop.next (moves.trans (evicted_moves service state reason)) entry (.inl demand) issued
      (fun _ member => mem_append_left _ member) ?_
      (fun _ _ _ => ⟨⟨service, reason⟩, mem_append_right _ mem_cons_self, rfl⟩) ?_
    · intro other member
      rcases mem_cons.mp member with rfl | before
      · exact ⟨⟨other, reason⟩, mem_append_right _ mem_cons_self, rfl⟩
      · obtain ⟨stop, listed, same⟩ := loop.stopped other before
        exact ⟨stop, mem_append_left _ listed, same⟩
    · rw [if_neg out, append_nil]

theorem Looping.idle (idle : sight.Idle service) (optional : sight.state.mode service ≠ .alwaysOn) :
    Ends (Looping rt sight rest) (fun progress => ∀ stop ∈ progress.issued, Looped rt sight stop)
      (rt.idle sight.look service progress) := by
  have moves := idleFrom_moves service progress.state sight.look.now
  have same : (progress.state.idleSince service).getD sight.look.now = sight.idleSince service := by
    rw [loop.own.idleSince, Sight.idleSince]
  have mode : (progress.state.idleFrom service sight.look.now).mode service =
      sight.state.mode service := loop.settings.mode service
  have seconds : rt.retentionSeconds (progress.state.idleFrom service sight.look.now) service =
      rt.retentionSeconds sight.state service := loop.settings.seconds service
  have activity : (progress.state.idleFrom service sight.look.now).lastActivity service =
      sight.state.lastActivity service := loop.own.lastActivity
  have entry : ∀ since, (progress.state.idleFrom service sight.look.now).idleSince service =
      some since → sight.state.idleSince service = some since ∨ (sight.Idle service ∧ since = sight.look.now) := by
    intro since found
    have own := loop.own.idleSince
    rw [idleFrom_idleSince, own] at found
    cases before : sight.state.idleSince service with
    | some old =>
      rw [before] at found
      exact .inl found
    | none =>
      rw [before] at found
      exact .inr ⟨idle, (Option.some.inj found).symm⟩
  unfold Platform.idle
  simp only [same, mode, seconds, activity]
  split
  · rename_i off
    exact loop.stops ⟨idle, .inl ⟨rfl, off⟩⟩ (fun kept => Mode.noConfusion (off.symm.trans kept.2.1)) moves entry rfl
  · rename_i on
    have dynamic : sight.state.mode service = .dynamic := by
      cases which : sight.state.mode service with
      | alwaysOn => exact absurd which optional
      | dynamic => rfl
      | disabled => exact absurd which on
    split
    · rename_i expired
      exact loop.stops ⟨idle, .inr ⟨rfl, dynamic, expired⟩⟩ (fun kept => kept.2.2 expired) moves entry rfl
    · rename_i fresh
      refine loop.next moves entry (.inl rfl) loop.issued (fun _ member => member) loop.stopped
        (fun _ _ expired => absurd expired fresh) ?_
      rw [if_pos ⟨idle, dynamic, fresh⟩]
      rfl

theorem visit_keeps : Ends (Looping rt sight rest) (fun progress => ∀ stop ∈ progress.issued, Looped rt sight stop)
      (rt.visit sight.look progress service) := by
  have mode := loop.settings.mode service
  have demanded := loop.settings.demanded loop.own sight.look.now
  have stays := Moves.refl service progress.state
  unfold Platform.visit
  split
  · rename_i missing
    exact loop.pass stays (.inr rfl) (.inl rfl) fun idle => by rw [idle.1] at missing; cases missing
  · rename_i running found
    simp only [mode, demanded]
    split
    · rename_i refused
      exact loop.pass stays (.inr rfl) (.inl rfl) fun idle => absurd idle.2.1 refused.2.ne'
    · split
      · rename_i down
        have busy : ¬ sight.Idle service := fun idle => by
          rw [idle.1, down] at found
          cases found
        split
        · split
          · exact loop.pass (started_moves service progress.state) (.inl (update_self ..)) (.inl rfl) busy
          · exact loop.issued
        · exact loop.pass stays (.inr rfl) (.inl rfl) busy
      · rename_i up
        split
        · rename_i players
          exact loop.pass (visited_moves service progress.state sight.look.now)
            (.inl (update_self ..)) (.inr players) fun idle => absurd idle.2.1 players.ne'
        · rename_i alone
          split
          · rename_i wanted
            by_cases idle : sight.Idle service
            · have on : sight.state.mode service = .alwaysOn := by
                rcases wanted with on | live
                · exact on
                · rw [idle.2.2] at live
                  cases live
              refine loop.next (needed_moves service progress.state)
                (fun since there => ?_) (.inl rfl) loop.issued (fun _ member => member) loop.stopped
                (fun _ dynamic => Mode.noConfusion (on.symm.trans dynamic)) ?_
              · rw [needed_idleSince] at there
                cases there
              · rw [if_neg fun kept => Mode.noConfusion (on.symm.trans kept.2.1), append_nil]
            · exact loop.pass (needed_moves service progress.state) (.inl (needed_idleSince ..)) (.inl rfl) idle
          · rename_i unwanted
            refine loop.idle ⟨?_, Nat.eq_zero_of_not_pos alone, ?_⟩ fun on => unwanted (.inl on)
            · rw [found, Bool.eq_true_of_not_eq_false up]
            · exact Bool.eq_false_of_not_eq_true fun live => unwanted (.inr live)

end

end Loop

theorem loop_starts : Looping rt sight rt.GAME_MAP_SERVICES ⟨sight.state, [], [], []⟩ where
  settings := ⟨rfl, rfl, rfl, rfl, rfl, rfl⟩
  services _ _ := ⟨rfl, rfl, rfl⟩
  issued _ member := absurd member not_mem_nil
  warm := ⟨[], rfl, rfl, fun _ member => absurd member not_mem_nil⟩
  stopped _ member := absurd member not_mem_nil
  entries _ _ found := .inl found
  demand _ := .inl rfl
  demandCount := rfl
  demandEvents := rfl
  counted := rfl
  enabled := rfl

theorem loop_keeps : Ends (Looping rt sight []) (fun progress => ∀ stop ∈ progress.issued, Looped rt sight stop)
    (rt.GAME_MAP_SERVICES.foldlM (rt.visit sight.look) ⟨sight.state, [], [], []⟩) :=
  Ends.foldlM (Looping rt sight) (fun _ _ _ loop => visit_keeps loop) rt.GAME_MAP_SERVICES loop_starts

namespace Sight

variable (rt : Platform) (sight : Sight)

def rivals (service : String) : List String :=
  (sight.kept rt).filter fun other =>
    decide (other ≠ service ∧ sight.activity service ≤ sight.activity other)

def Beyond (service : String) : Prop :=
  sight.Kept rt service ∧ 0 < sight.state.maxWarmDynamicMaps ∧
    sight.state.maxWarmDynamicMaps ≤ (sight.rivals rt service).length

end Sight

def pressed (stops : List Stop) : Nat :=
  stops.countP fun stop => decide (stop.reason = .memoryPressureLru)

inductive Justified (rt : Platform) (sight : Sight) (earlier : List Stop) (stop : Stop) : Prop where
  | looped (why : Looped rt sight stop)
  | budget (why : stop.reason = .warmBudgetLru) (beyond : sight.Beyond rt stop.service)
  | memory (why : stop.reason = .memoryPressureLru) (kept : sight.Kept rt stop.service)
      (minimum : 0 < sight.state.minAvailableMemoryBytes)
      (low : sight.look.memory (pressed earlier) < sight.state.minAvailableMemoryBytes)

inductive Issued (rt : Platform) (sight : Sight) : List Stop → Prop where
  | none : Issued rt sight []
  | more {earlier : List Stop} {stop : Stop} : Issued rt sight earlier →
      Justified rt sight earlier stop → Issued rt sight (earlier ++ [stop])

variable {issued : List Stop}

theorem Issued.split (all : Issued rt sight issued) :
    ∀ earlier stop later, issued = earlier ++ stop :: later → Justified rt sight earlier stop := by
  induction all with
  | none =>
    intro earlier stop later same
    simp at same
  | more before why ih =>
    intro earlier stop later same
    rcases eq_nil_or_concat later with rfl | ⟨rest, last, rfl⟩
    · obtain ⟨rfl, single⟩ := append_inj' same rfl
      cases single
      exact why
    · rw [concat_eq_append, ← cons_append, ← append_assoc] at same
      exact ih earlier stop rest (append_inj' same rfl).1

theorem issued_of_looped (looped : ∀ stop ∈ issued, Looped rt sight stop) : Issued rt sight issued := by
  induction issued using List.reverseRecOn with
  | nil => exact .none
  | append_singleton earlier stop ih =>
    exact .more (ih fun other member => looped other (mem_append_left _ member))
      (.looped (looped stop (mem_append_right _ mem_cons_self)))

theorem pressed_of_looped (looped : ∀ stop ∈ issued, Looped rt sight stop) : pressed issued = 0 := by
  refine countP_eq_zero.mpr fun stop member => ?_
  rcases (looped stop member).why with ⟨why, -⟩ | ⟨why, -⟩ <;> simp [why]

theorem pressed_append (stops : List Stop) (stop : Stop) : pressed (stops ++ [stop]) =
    pressed stops + if stop.reason = .memoryPressureLru then 1 else 0 := by
  simp [pressed, countP_cons]

theorem stop_ends (look : Look) (reason : Reason) (service : String) (progress : Progress) :
    Ends (fun next => next.state = progress.state.evicted service reason ∧
        next.issued = progress.issued ++ [⟨service, reason⟩] ∧
        next.stopped = service :: progress.stopped)
      (fun next => next.issued = progress.issued ++ [⟨service, reason⟩])
      (look.stop reason service progress) := by
  unfold Look.stop
  cases look.acts service with
  | none => rfl
  | some ok => exact ⟨rfl, rfl, rfl⟩

structure Evicting (rt : Platform) (sight : Sight) (base progress : Progress) : Prop where
  state : progress.state = { base.state with lastEvictionReason := progress.state.lastEvictionReason }
  more : ∀ stop ∈ base.issued, stop ∈ progress.issued
  issued : Issued rt sight progress.issued

theorem Evicting.trans {base middle progress : Progress} (early : Evicting rt sight base middle)
    (late : Evicting rt sight middle progress) : Evicting rt sight base progress where
  state := by rw [late.state, early.state]
  more stop member := late.more stop (early.more stop member)
  issued := late.issued

theorem Evicting.stop {base progress next : Progress} (evicting : Evicting rt sight base progress)
    {reason : Reason} (why : Justified rt sight progress.issued ⟨service, reason⟩)
    (state : next.state = progress.state.evicted service reason)
    (issued : next.issued = progress.issued ++ [⟨service, reason⟩]) :
    Evicting rt sight base next where
  state := by rw [state, State.evicted, evicting.state]
  more stop member := by
    rw [issued]
    exact mem_append_left _ (evicting.more stop member)
  issued := by
    rw [issued]
    exact .more evicting.issued why

structure Budgeting (rt : Platform) (sight : Sight) (base : Progress) (surplus left : List Warm)
    (progress : Progress) : Prop extends Evicting rt sight base progress where
  part : ∀ warm ∈ left, warm ∈ surplus
  gone : ∀ warm ∈ surplus, warm ∈ left ∨ ∃ stop ∈ progress.issued, stop.service = warm.service
  pressed : pressed progress.issued = 0

variable {base : Progress} {warm : Warm}

theorem budget_keeps {surplus : List Warm} (beyond : ∀ warm ∈ surplus, sight.Beyond rt warm.service) {rest : List Warm}
    (budget : Budgeting rt sight base surplus (warm :: rest) progress) :
    Ends (Budgeting rt sight base surplus rest) (fun progress => Issued rt sight progress.issued)
      (sight.look.stop .warmBudgetLru warm.service progress) := by
  have why : Justified rt sight progress.issued ⟨warm.service, .warmBudgetLru⟩ :=
    .budget rfl (beyond warm (budget.part warm mem_cons_self))
  have ends := stop_ends sight.look .warmBudgetLru warm.service progress
  cases outcome : sight.look.stop .warmBudgetLru warm.service progress with
  | error next =>
    rw [outcome] at ends
    change Issued rt sight next.issued
    rw [show next.issued = _ from ends]
    exact .more budget.issued why
  | ok next =>
    rw [outcome] at ends
    obtain ⟨state, issued, -⟩ := ends
    refine ⟨budget.toEvicting.stop why state issued,
      fun other member => budget.part other (mem_cons_of_mem _ member), fun other member => ?_, ?_⟩
    · rw [issued]
      rcases budget.gone other member with left | ⟨stop, listed, same⟩
      · rcases mem_cons.mp left with rfl | later
        · exact .inr ⟨_, mem_append_right _ mem_cons_self, rfl⟩
        · exact .inl later
      · exact .inr ⟨stop, mem_append_left _ listed, same⟩
    · rw [issued, pressed_append, budget.pressed, if_neg nofun]

theorem relieve_keeps (minimum : 0 < sight.state.minAvailableMemoryBytes)
    {candidates : List Warm} (kept : ∀ warm ∈ candidates, sight.Kept rt warm.service)
    (evicting : Evicting rt sight base progress) :
    Ends (Evicting rt sight base) (fun progress => Issued rt sight progress.issued)
      (Platform.relieve sight.look sight.state.minAvailableMemoryBytes (pressed progress.issued)
        candidates progress) := by
  induction candidates generalizing progress with
  | nil => exact evicting
  | cons candidate rest ih =>
    unfold Platform.relieve
    have later := fun warm member => kept warm (mem_cons_of_mem _ member)
    split
    · exact evicting
    · rename_i low
      split
      · exact ih later evicting
      · have why : Justified rt sight progress.issued ⟨candidate.service, .memoryPressureLru⟩ :=
          .memory rfl (kept candidate mem_cons_self) minimum (not_le.mp low)
        have ends := stop_ends sight.look .memoryPressureLru candidate.service progress
        cases outcome : sight.look.stop .memoryPressureLru candidate.service progress with
        | error next =>
          rw [outcome] at ends
          change Issued rt sight next.issued
          rw [show next.issued = _ from ends]
          exact .more evicting.issued why
        | ok next =>
          rw [outcome] at ends
          obtain ⟨state, issued, -⟩ := ends
          have count : pressed next.issued = pressed progress.issued + 1 := by
            rw [issued, pressed_append, if_pos rfl]
          have rounds := ih later (evicting.stop why state issued)
          rw [count] at rounds
          exact rounds

instance : Std.Total Platform.older := ⟨fun _ _ => le_total _ _⟩

instance : IsTrans Warm Platform.older := ⟨fun _ _ _ => le_trans⟩

theorem older_activity {first second : Warm} (before : Platform.older first second) :
    first.lastActivity ≤ second.lastActivity := by
  rcases Prod.Lex.toLex_le_toLex.mp before with less | ⟨same, -⟩
  · exact less.le
  · exact same.le

def Sight.ranked (rt : Platform) (sight : Sight) : List Warm :=
  ((sight.kept rt).map sight.warm).insertionSort Platform.older

theorem mem_ranked : warm ∈ sight.ranked rt ↔ warm.service ∈ sight.kept rt ∧ warm = sight.warm warm.service := by
  rw [Sight.ranked, mem_insertionSort, mem_map]
  constructor
  · rintro ⟨service, member, rfl⟩
    exact ⟨member, rfl⟩
  · rintro ⟨member, same⟩
    exact ⟨warm.service, member, same.symm⟩

theorem ranked_nodup : ((sight.ranked rt).map Warm.service).Nodup := by
  have perm : List.Perm ((sight.ranked rt).map Warm.service)
      (((sight.kept rt).map sight.warm).map Warm.service) := (perm_insertionSort _ _).map _
  refine perm.nodup_iff.mpr ?_
  rw [map_map]
  exact (map_id (sight.kept rt)).symm ▸ rt.distinct.filter _

theorem mem_kept (member : service ∈ sight.kept rt) : sight.Kept rt service :=
  of_decide_eq_true (mem_filter.mp member).2

def Sight.surplus (rt : Platform) (sight : Sight) : List Warm :=
  (sight.ranked rt).take (Platform.excess sight.state (sight.ranked rt))

theorem over_beyond (member : warm ∈ sight.surplus rt) : sight.Beyond rt warm.service := by
  have inside := mem_of_mem_take member
  have kept := mem_kept (mem_ranked.mp inside).1
  unfold Sight.surplus at member
  generalize count : Platform.excess sight.state (sight.ranked rt) = excess at member
  unfold Platform.excess at count
  have some_ : excess ≠ 0 := by
    rintro rfl
    simp at member
  split at count
  · rename_i limited
    refine ⟨kept, limited, ?_⟩
    have length : ((sight.ranked rt).drop excess).length = sight.state.maxWarmDynamicMaps := by
      rw [length_drop]
      omega
    have split := take_append_drop excess (sight.ranked rt)
    have distinct : (((sight.ranked rt).take excess ++ (sight.ranked rt).drop excess).map
        Warm.service).Nodup := split.symm ▸ ranked_nodup
    have sorted : ((sight.ranked rt).take excess ++ (sight.ranked rt).drop excess).Pairwise
        Platform.older := split.symm ▸ pairwise_insertionSort _ _
    rw [map_append] at distinct
    have subset : ((sight.ranked rt).drop excess).map Warm.service ⊆ sight.rivals rt warm.service := by
      intro service listed
      obtain ⟨other, late, rfl⟩ := mem_map.mp listed
      have before := older_activity ((pairwise_append.mp sorted).2.2 warm member other late)
      obtain ⟨named, same⟩ := mem_ranked.mp (mem_of_mem_drop late)
      rw [(mem_ranked.mp inside).2, same] at before
      refine mem_filter.mpr ⟨named, decide_eq_true ⟨fun equal => ?_, before⟩⟩
      exact (nodup_append.mp distinct).2.2 warm.service (mem_map_of_mem member) other.service listed equal.symm
    rw [← length, ← length_map Warm.service]
    exact_mod_cast (subperm_of_subset (nodup_append.mp distinct).2.1 subset).length_le
  · exact absurd count.symm some_

structure Settled (rt : Platform) (sight : Sight) (progress : Progress) : Prop where
  settings : SameSettings progress.state sight.state
  entries : ∀ service since, progress.state.idleSince service = some since →
    sight.state.idleSince service = some since ∨ (sight.Idle service ∧ since = sight.look.now)
  /-- Players and time alone end a demand. -/
  demand : ∀ service time, sight.state.demand service = some time →
    sight.look.now - time ≤ sight.state.demandTtlSeconds →
      progress.state.demand service = some time ∨ 0 < sight.look.counts service
  demandCount : progress.state.demandCount = sight.state.demandCount
  demandEvents : progress.state.demandEvents = sight.state.demandEvents
  counted : progress.state.counted = sight.state.counted
  enabled : progress.state.enabled = sight.state.enabled
  issued : Issued rt sight progress.issued
  due : ∀ service ∈ rt.GAME_MAP_SERVICES, sight.Idle service →
    sight.state.mode service = .dynamic → sight.Expired rt service →
      ∃ stop ∈ progress.issued, stop.service = service
  surplus : ∀ warm ∈ sight.surplus rt, ∃ stop ∈ progress.issued, stop.service = warm.service

theorem Evicting.settled {base progress : Progress} (loop : Looping rt sight [] base)
    (evicting : Evicting rt sight base progress)
    (surplus : ∀ warm ∈ sight.surplus rt, ∃ stop ∈ progress.issued, stop.service = warm.service) :
    Settled rt sight { progress with state := progress.state.expireDemand sight.look.now } := by
  obtain ⟨visited, split, -, gone⟩ := loop.warm
  rw [append_nil] at split
  have settings := loop.settings
  refine ⟨?_, fun service since found => ?_, fun service time there live => ?_, ?_, ?_, ?_, ?_, evicting.issued,
    fun service member idle dynamic expired => ?_, surplus⟩
  · dsimp only [State.expireDemand]
    rw [evicting.state]
    exact ⟨settings.modes, settings.retention, settings.retentions, settings.warm, settings.memory, settings.ttl⟩
  · dsimp only [State.expireDemand] at found
    rw [evicting.state] at found
    exact loop.entries service since found
  · refine (loop.demand service).imp_left fun same => ?_
    dsimp only [State.expireDemand]
    rw [evicting.state]
    rw [same, there, settings.ttl]
    exact Option.filter_some_pos (decide_eq_true live)
  · dsimp only [State.expireDemand]
    rw [evicting.state]
    exact loop.demandCount
  · dsimp only [State.expireDemand]
    rw [evicting.state]
    exact loop.demandEvents
  · dsimp only [State.expireDemand]
    rw [evicting.state]
    exact loop.counted
  · dsimp only [State.expireDemand]
    rw [evicting.state]
    exact loop.enabled
  · obtain ⟨stop, listed, same⟩ := gone service (split ▸ member) idle dynamic expired
    exact ⟨stop, evicting.more stop listed, same⟩

theorem evict_ends (loop : Looping rt sight [] base) :
    Ends (Settled rt sight) (fun progress => Issued rt sight progress.issued) (Platform.evict sight.look base) := by
  obtain ⟨visited, split, warm, -⟩ := loop.warm
  rw [append_nil] at split
  rw [← split] at warm
  have ranked : base.warm.insertionSort Platform.older = sight.ranked rt := by
    rw [warm]
    rfl
  have surplus : (sight.ranked rt).take (Platform.excess base.state (sight.ranked rt)) = sight.surplus rt := by
    rw [Sight.surplus, Platform.excess, Platform.excess, loop.settings.warm]
  unfold Platform.evict
  simp only [ranked, surplus]
  have starts : Budgeting rt sight base (sight.surplus rt) (sight.surplus rt) base :=
    { state := rfl
      more := fun _ member => member
      issued := issued_of_looped loop.issued
      part := fun _ member => member
      gone := fun _ member => .inl member
      pressed := pressed_of_looped loop.issued }
  refine Ends.bind (Budgeting rt sight base (sight.surplus rt) [])
    (Ends.foldlM (Budgeting rt sight base (sight.surplus rt))
      (fun warm rest progress budget => budget_keeps (fun _ member => over_beyond member) budget)
      (sight.surplus rt) starts) fun progress budget => ?_
  have gone : ∀ warm ∈ sight.surplus rt, ∃ stop ∈ progress.issued, stop.service = warm.service :=
    fun warm member => (budget.gone warm member).resolve_left not_mem_nil
  have memory : progress.state.minAvailableMemoryBytes = sight.state.minAvailableMemoryBytes := by
    rw [budget.state]
    exact loop.settings.memory
  have stays : Evicting rt sight progress progress := ⟨rfl, fun _ member => member, budget.issued⟩
  have ends : ∀ next, Evicting rt sight progress next → Settled rt sight
      { next with state := next.state.expireDemand sight.look.now } := fun next evicting =>
    (budget.toEvicting.trans evicting).settled loop fun warm member => by
      obtain ⟨stop, listed, same⟩ := gone warm member
      exact ⟨stop, evicting.more stop listed, same⟩
  rw [memory]
  split
  · rename_i limited
    refine Ends.bind (Evicting rt sight progress) ?_ ends
    have loops := relieve_keeps limited.1 (fun warm member => mem_kept (mem_ranked.mp member).1) stays
    rw [budget.pressed] at loops
    exact loops
  · exact ends progress stays

theorem reconcile_ends : Ends (Settled rt sight) (fun progress => Issued rt sight progress.issued)
    (rt.reconcile sight.look sight.state) := by
  have loops : Ends (Looping rt sight []) _ _ := loop_keeps
  unfold Platform.reconcile
  cases outcome : rt.GAME_MAP_SERVICES.foldlM (rt.visit sight.look) ⟨sight.state, [], [], []⟩ with
  | ok progress =>
    rw [outcome] at loops
    exact evict_ends loops
  | error progress =>
    rw [outcome] at loops
    exact issued_of_looped loops

end Dash.Autoscaler
