import Mathlib.Data.List.Basic

/-! Programs of single operations that may fail, or be killed before any of them.

A plan says what happens at each operation: it goes through, it raises before or after it took
effect, or the process is killed before it. A plan that has ended lets everything through. An
execution records for each operation the world before it and what happened there; the rules below
show what holds after an execution whose record meets a condition.
-/

set_option autoImplicit false

namespace Dash.Foundation

open List

inductive Fault where
  | proceeds | raisesBefore | raisesAfter | kills
  deriving DecidableEq

inductive Outcome (α : Type) where
  | returned (value : α)
  | raised
  | killed

/-- One operation: its kind, the world before it, and what happened. -/
structure Moment (ω κ : Type) where
  world : ω
  kind : κ
  fault : Fault

structure Execution (ω κ α : Type) where
  outcome : Outcome α
  world : ω
  plan : List Fault
  trace : List (Moment ω κ)

/-- A program over worlds `ω` with operations of kinds `κ`. -/
def Program (ω κ α : Type) : Type := List Fault → ω → Execution ω κ α

namespace Program

variable {ω κ α β : Type}

def done (value : α) : Program ω κ α := fun plan world => ⟨.returned value, world, plan, []⟩

def fail : Program ω κ α := fun plan world => ⟨.raised, world, plan, []⟩

def andThen (first : Program ω κ α) (next : α → Program ω κ β) : Program ω κ β :=
  fun plan world =>
    let begun := first plan world
    match begun.outcome with
    | .returned value =>
      let rest := next value begun.plan begun.world
      ⟨rest.outcome, rest.world, rest.plan, begun.trace ++ rest.trace⟩
    | .raised => ⟨.raised, begun.world, begun.plan, begun.trace⟩
    | .killed => ⟨.killed, begun.world, begun.plan, begun.trace⟩

/-- The handler runs when the body raises. -/
def attempt (body handler : Program ω κ α) : Program ω κ α := fun plan world =>
  let begun := body plan world
  match begun.outcome with
  | .raised =>
    let rest := handler begun.plan begun.world
    ⟨rest.outcome, rest.world, rest.plan, begun.trace ++ rest.trace⟩
  | _ => begun

/-- One operation. -/
def act (kind : κ) (effect : ω → ω) : Program ω κ Unit := fun plan world =>
  match plan.headD .proceeds with
  | .proceeds => ⟨.returned (), effect world, plan.tail, [⟨world, kind, .proceeds⟩]⟩
  | .raisesBefore => ⟨.raised, world, plan.tail, [⟨world, kind, .raisesBefore⟩]⟩
  | .raisesAfter => ⟨.raised, effect world, plan.tail, [⟨world, kind, .raisesAfter⟩]⟩
  | .kills => ⟨.killed, world, plan.tail, [⟨world, kind, .kills⟩]⟩

/-- An operation that reads. -/
def look (kind : κ) (select : ω → α) : Program ω κ α := fun plan world =>
  match plan.headD .proceeds with
  | .proceeds => ⟨.returned (select world), world, plan.tail, [⟨world, kind, .proceeds⟩]⟩
  | .kills => ⟨.killed, world, plan.tail, [⟨world, kind, .kills⟩]⟩
  | fault => ⟨.raised, world, plan.tail, [⟨world, kind, fault⟩]⟩

/-- A change of the program's own memory, which cannot fail. -/
def note (effect : ω → ω) : Program ω κ Unit := fun plan world =>
  ⟨.returned (), effect world, plan, []⟩

def recollect (select : ω → α) : Program ω κ α := fun plan world =>
  ⟨.returned (select world), world, plan, []⟩

/-- Raise when a check that was read fails. -/
def require (holds : Bool) : Program ω κ Unit := if holds then done () else fail

def each (body : β → Program ω κ Unit) : List β → Program ω κ Unit
  | [] => done ()
  | item :: rest => andThen (body item) fun _ => each body rest

/-- A loop that appends what each round returns. -/
def collect {γ : Type} (body : β → Program ω κ γ) : List γ → List β → Program ω κ (List γ)
  | found, [] => done found
  | found, item :: rest => andThen (body item) fun value => collect body (found ++ [value]) rest

/-- What holds afterwards, by how the execution ended. -/
structure Post (ω α : Type) where
  returned : α → ω → Prop
  raised : ω → Prop
  killed : ω → Prop

def Post.holds (post : Post ω α) (world : ω) : Outcome α → Prop
  | .returned value => post.returned value world
  | .raised => post.raised world
  | .killed => post.killed world

/-- Every execution from such a world whose moments are all allowed ends as the condition says. -/
def Meets (allowed : Moment ω κ → Prop) (before : ω → Prop) (program : Program ω κ α) (post : Post ω α) : Prop :=
  ∀ plan world, before world → (∀ moment ∈ (program plan world).trace, allowed moment) →
    post.holds (program plan world).world (program plan world).outcome

variable {allowed : Moment ω κ → Prop} {before : ω → Prop}

variable {post : Post ω α} {value : α}

theorem Meets.done (ends : ∀ world, before world →
    post.returned value world) : Meets allowed before (done value) post :=
  fun _ world holds _ => ends world holds

theorem Meets.fail (ends : ∀ world, before world → post.raised world) :
    Meets allowed before (fail : Program ω κ α) post :=
  fun _ world holds _ => ends world holds

variable {program : Program ω κ α}

theorem Meets.weaken {stronger : ω → Prop}
    (meets : Meets allowed before program post) (implies : ∀ world, stronger world → before world) :
    Meets allowed stronger program post :=
  fun plan world holds trace => meets plan world (implies world holds) trace

/-- What a fact about the world before says of it alone may be assumed. -/
theorem Meets.assuming {fact : Prop}
    (implies : ∀ world, before world → fact) (meets : fact → Meets allowed before program post) :
    Meets allowed before program post :=
  fun plan world holds trace => meets (implies world holds) plan world holds trace

theorem Meets.consequence {first second : Post ω α} (meets : Meets allowed before program first)
    (returned : ∀ value world, first.returned value world → second.returned value world)
    (raised : ∀ world, first.raised world → second.raised world)
    (killed : ∀ world, first.killed world → second.killed world) :
    Meets allowed before program second := by
  intro plan world holds trace
  have ends := meets plan world holds trace
  cases outcome : (program plan world).outcome with
  | returned value =>
    rw [outcome] at ends
    exact returned _ _ ends
  | raised =>
    rw [outcome] at ends
    exact raised _ ends
  | killed =>
    rw [outcome] at ends
    exact killed _ ends

/-- What holds however the execution ended. -/
theorem Meets.always {post : ω → Prop}
    (meets : Meets allowed before program ⟨fun _ => post, post, post⟩) {plan : List Fault} {world : ω}
    (holds : before world) (trace : ∀ moment ∈ (program plan world).trace, allowed moment) :
    post (program plan world).world := by
  have ends := meets plan world holds trace
  cases outcome : (program plan world).outcome with
  | returned _ => rw [outcome] at ends; exact ends
  | raised => rw [outcome] at ends; exact ends
  | killed => rw [outcome] at ends; exact ends

theorem Meets.andThen {first : Program ω κ α} {next : α → Program ω κ β} {post : Post ω β} (middle : α → ω → Prop)
    (begin_ : Meets allowed before first ⟨middle, post.raised, post.killed⟩)
    (rest : ∀ value, Meets allowed (middle value) (next value) post) :
    Meets allowed before (andThen first next) post := by
  intro plan world holds trace
  have begun := begin_ plan world holds
  unfold Program.andThen at trace ⊢
  cases outcome : (first plan world).outcome with
  | returned value =>
    simp only [outcome] at trace begun ⊢
    apply rest value
    · exact begun fun moment member => trace moment (mem_append_left _ member)
    · exact fun moment member => trace moment (mem_append_right _ member)
  | raised =>
    simp only [outcome] at trace begun ⊢
    exact begun trace
  | killed =>
    simp only [outcome] at trace begun ⊢
    exact begun trace

theorem Meets.attempt {body handler : Program ω κ α} (broken : ω → Prop)
    (begin_ : Meets allowed before body ⟨post.returned, broken, post.killed⟩)
    (rest : Meets allowed broken handler post) : Meets allowed before (attempt body handler) post := by
  intro plan world holds trace
  have begun := begin_ plan world holds
  unfold Program.attempt at trace ⊢
  cases outcome : (body plan world).outcome with
  | returned value =>
    simp only [outcome] at trace begun ⊢
    exact begun trace
  | raised =>
    simp only [outcome] at trace begun ⊢
    apply rest
    · exact begun fun moment member => trace moment (mem_append_left _ member)
    · exact fun moment member => trace moment (mem_append_right _ member)
  | killed =>
    simp only [outcome] at trace begun ⊢
    exact begun trace

variable {effect : ω → ω} {kind : κ}

/-- How an operation stops may be limited, also where it raises after it took effect. -/
theorem Meets.act_limited {post : Post ω Unit} (proceeds : ∀ world, before world → post.returned () (effect world))
    (raisesBefore : ∀ world, before world → allowed ⟨world, kind, .raisesBefore⟩ → post.raised world)
    (raisesAfter : ∀ world, before world → allowed ⟨world, kind, .raisesAfter⟩ → post.raised (effect world))
    (kills : ∀ world, before world → allowed ⟨world, kind, .kills⟩ → post.killed world) :
    Meets allowed before (act kind effect) post := by
  intro plan world holds trace
  unfold Program.act at trace ⊢
  cases fault : plan.headD .proceeds with
  | proceeds => exact proceeds world holds
  | raisesBefore =>
    simp only [fault] at trace
    exact raisesBefore world holds (trace _ (mem_singleton.mpr rfl))
  | raisesAfter =>
    simp only [fault] at trace
    exact raisesAfter world holds (trace _ (mem_singleton.mpr rfl))
  | kills =>
    simp only [fault] at trace
    exact kills world holds (trace _ (mem_singleton.mpr rfl))

theorem Meets.act {post : Post ω Unit} (proceeds : ∀ world, before world → post.returned () (effect world))
    (raisesBefore : ∀ world, before world → allowed ⟨world, kind, .raisesBefore⟩ →
      post.raised world) (raisesAfter : ∀ world, before world → post.raised (effect world))
    (kills : ∀ world, before world → allowed ⟨world, kind, .kills⟩ → post.killed world) :
    Meets allowed before (act kind effect) post :=
  Meets.act_limited proceeds raisesBefore (fun world holds _ => raisesAfter world holds) kills

theorem Meets.look {select : ω → α} (proceeds : ∀ world, before world → post.returned (select world) world)
    (raises : ∀ world, before world → post.raised world)
    (kills : ∀ world, before world → allowed ⟨world, kind, .kills⟩ → post.killed world) :
    Meets allowed before (look kind select) post := by
  intro plan world holds trace
  unfold Program.look at trace ⊢
  cases fault : plan.headD .proceeds with
  | proceeds => exact proceeds world holds
  | raisesBefore => exact raises world holds
  | raisesAfter => exact raises world holds
  | kills =>
    simp only [fault] at trace
    exact kills world holds (trace _ (mem_singleton.mpr rfl))

theorem Meets.require {holds : Bool} {post : Post ω Unit}
    (passes : holds = true → ∀ world, before world → post.returned () world)
    (refuses : holds = false → ∀ world, before world → post.raised world) :
    Meets allowed before (require holds : Program ω κ Unit) post := by
  cases holds with
  | true => exact Meets.done (passes rfl)
  | false => exact Meets.fail (refuses rfl)

/-- A check whose outcome is settled before the program runs. -/
theorem Meets.requireThen {holds : Bool} {next : Unit → Program ω κ α} {post : Post ω α}
    (refuses : ∀ world, before world → post.raised world)
    (rest : holds = true → Meets allowed before (next ()) post) :
    Meets allowed before (Program.andThen (Program.require holds) next) post := by
  cases holds with
  | true => exact Meets.andThen (fun _ => before) (Meets.done fun _ holds => holds) fun _ => rest rfl
  | false => exact Meets.andThen (fun _ _ => False) (Meets.fail refuses) fun _ _ _ impossible => impossible.elim

/-- What was read may be used as a value of the world in which it was read. -/
theorem Meets.lookThen {select : ω → α} {next : α → Program ω κ β} {post : Post ω β}
    (raises : ∀ world, before world → post.raised world)
    (kills : ∀ world, before world → allowed ⟨world, kind, .kills⟩ → post.killed world)
    (rest : ∀ world, before world → Meets allowed before (next (select world)) post) :
    Meets allowed before (Program.andThen (Program.look kind select) next) post := by
  refine Meets.andThen (fun value world => before world ∧ select world = value) ?_ ?_
  · exact Meets.look (fun _ holds => ⟨holds, rfl⟩) raises kills
  · rintro _ plan world ⟨holds, rfl⟩
    exact rest world holds plan world holds

theorem Meets.note {post : Post ω Unit} (ends : ∀ world, before world → post.returned () (effect world)) :
    Meets allowed before (note effect : Program ω κ Unit) post :=
  fun _ world holds _ => ends world holds

theorem Meets.recollect {select : ω → α} (ends : ∀ world, before world → post.returned (select world) world) :
    Meets allowed before (recollect select : Program ω κ α) post :=
  fun _ world holds _ => ends world holds

/-- A loop keeps what each round carries from the items that are left to the next. -/
theorem Meets.each {body : β → Program ω κ Unit} {raised killed : ω → Prop} (left : List β → ω → Prop) {items : List β}
    (round : ∀ item rest, Meets allowed (left (item :: rest)) (body item) ⟨fun _ => left rest, raised, killed⟩) :
    Meets allowed (left items) (each body items) ⟨fun _ => left [], raised, killed⟩ := by
  induction items with
  | nil => exact Meets.done fun _ holds => holds
  | cons item rest ih => exact Meets.andThen _ (round item rest) fun _ => ih

theorem Meets.collect {γ : Type} {body : β → Program ω κ γ} {raised killed : ω → Prop}
    (left : List β → List γ → ω → Prop) {items : List β} {found : List γ}
    (round : ∀ item rest found, Meets allowed (left (item :: rest) found) (body item)
      ⟨fun value => left rest (found ++ [value]), raised, killed⟩) :
    Meets allowed (left items found) (collect body found items) ⟨left [], raised, killed⟩ := by
  induction items generalizing found with
  | nil => exact Meets.done fun _ holds => holds
  | cons item rest ih => exact Meets.andThen _ (round item rest found) fun _ => ih

def Keeps {γ : Type} (part : ω → γ) (program : Program ω κ α) : Prop :=
  ∀ plan world, part (program plan world).world = part world

section Keeps

variable {γ : Type} {part : ω → γ}

theorem Keeps.done {value : α} : Keeps part (done value : Program ω κ α) := fun _ _ => rfl

theorem Keeps.fail : Keeps part (fail : Program ω κ α) := fun _ _ => rfl

theorem Keeps.andThen {first : Program ω κ α} {next : α → Program ω κ β}
    (begin_ : Keeps part first) (rest : ∀ value, Keeps part (next value)) :
    Keeps part (andThen first next) := by
  intro plan world
  have begun := begin_ plan world
  unfold Program.andThen
  cases outcome : (first plan world).outcome with
  | returned value =>
    simp only [outcome]
    exact (rest value _ _).trans begun
  | raised =>
    simp only [outcome]
    exact begun
  | killed =>
    simp only [outcome]
    exact begun

theorem Keeps.attempt {body handler : Program ω κ α} (begin_ : Keeps part body)
    (rest : Keeps part handler) : Keeps part (attempt body handler) := by
  intro plan world
  have begun := begin_ plan world
  unfold Program.attempt
  cases outcome : (body plan world).outcome with
  | returned value =>
    simp only [outcome]
    exact begun
  | raised =>
    simp only [outcome]
    exact (rest _ _).trans begun
  | killed =>
    simp only [outcome]
    exact begun

theorem Keeps.act {kind : κ} {effect : ω → ω} (same : ∀ world, part (effect world) = part world) :
    Keeps part (act kind effect) := by
  intro plan world
  unfold Program.act
  cases plan.headD .proceeds
  · exact same world
  · rfl
  · exact same world
  · rfl

theorem Keeps.look {kind : κ} {select : ω → α} : Keeps part (look kind select) := by
  intro plan world
  unfold Program.look
  cases plan.headD .proceeds <;> rfl

theorem Keeps.note {effect : ω → ω} (same : ∀ world, part (effect world) = part world) :
    Keeps part (note effect : Program ω κ Unit) :=
  fun _ world => same world

theorem Keeps.recollect {select : ω → α} : Keeps part (recollect select : Program ω κ α) :=
  fun _ _ => rfl

theorem Keeps.require {holds : Bool} : Keeps part (require holds : Program ω κ Unit) := by
  cases holds
  · exact Keeps.fail
  · exact Keeps.done

theorem Keeps.each {body : β → Program ω κ Unit} (round : ∀ item, Keeps part (body item))
    (items : List β) : Keeps part (each body items) := by
  induction items with
  | nil => exact Keeps.done
  | cons item rest ih => exact Keeps.andThen (round item) fun _ => ih

theorem Keeps.collect {δ : Type} {body : β → Program ω κ δ} (round : ∀ item, Keeps part (body item))
    (found : List δ) (items : List β) : Keeps part (collect body found items) := by
  induction items generalizing found with
  | nil => exact Keeps.done
  | cons item rest ih => exact Keeps.andThen (round item) fun _ => ih _

end Keeps

/-- The execution without faults returns a value and leaves a world. -/
def Runs (program : Program ω κ α) (world : ω) (value : α) (after : ω) : Prop :=
  ∃ trace, program [] world = ⟨.returned value, after, [], trace⟩

theorem Runs.done (value : α) (world : ω) : Runs (done value : Program ω κ α) world value world :=
  ⟨[], rfl⟩

theorem Runs.act (kind : κ) (effect : ω → ω) (world : ω) : Runs (act kind effect) world () (effect world) :=
  ⟨_, rfl⟩

theorem Runs.look (kind : κ) (select : ω → α) (world : ω) : Runs (look kind select) world (select world) world :=
  ⟨_, rfl⟩

theorem Runs.require {holds : Bool} (passes : holds = true) (world : ω) :
    Runs (require holds : Program ω κ Unit) world () world := by
  subst passes
  exact Runs.done () world

theorem Runs.andThen {first : Program ω κ α} {next : α → Program ω κ β} {world middle after : ω}
    {result : β} (begun : Runs first world value middle)
    (rest : Runs (next value) middle result after) : Runs (andThen first next) world result after := by
  obtain ⟨one, begun⟩ := begun
  obtain ⟨two, rest⟩ := rest
  exact ⟨one ++ two, by simp [Program.andThen, begun, rest]⟩

theorem Runs.attempt {body handler : Program ω κ α} {world after : ω}
    (begun : Runs body world value after) : Runs (attempt body handler) world value after := by
  obtain ⟨trace, begun⟩ := begun
  exact ⟨trace, by simp [Program.attempt, begun]⟩

theorem Runs.each {effect : β → ω → ω} (items : List β) (world : ω) :
    Runs (each (fun item => Program.act kind (effect item)) items) world ()
      (items.foldl (fun world item => effect item world) world) := by
  induction items generalizing world with
  | nil => exact Runs.done () world
  | cons item rest ih => exact Runs.andThen (Runs.act kind (effect item) world) (ih _)

end Program

end Dash.Foundation
