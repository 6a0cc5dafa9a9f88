import Mathlib.Data.List.Basic

/-! Computations that may raise: on a world, or with a log of what they did to the outside. What they did
before they raise stays done.
-/

set_option autoImplicit false

namespace Dash.Foundation

def Effectful (ω ε α : Type) : Type := ω → Except ε α × ω

namespace Effectful

variable {ω ε α β : Type}

instance : Monad (Effectful ω ε) where
  pure value := fun world => (.ok value, world)
  bind first next := fun world =>
    match first world with
    | (.ok value, after) => next value after
    | (.error error, after) => (.error error, after)

def raise (error : ε) : Effectful ω ε α := fun world => (.error error, world)

def modify (change : ω → ω) : Effectful ω ε Unit := fun world => (.ok (), change world)

def look (select : ω → α) : Effectful ω ε α := fun world => (.ok (select world), world)

/-- Something whose outcome is decided outside. -/
def lift (outcome : Except ε α) : Effectful ω ε α := fun world => (outcome, world)

@[simp]
theorem pure_run (value : α) (world : ω) : (pure value : Effectful ω ε α) world = (.ok value, world) := rfl

@[simp]
theorem raise_run (error : ε) (world : ω) : (raise error : Effectful ω ε α) world = (.error error, world) := rfl

@[simp]
theorem modify_run (change : ω → ω) (world : ω) :
    (modify change : Effectful ω ε Unit) world = (.ok (), change world) := rfl

@[simp]
theorem look_run (select : ω → α) (world : ω) :
    (look select : Effectful ω ε α) world = (.ok (select world), world) := rfl

@[simp]
theorem lift_run (outcome : Except ε α) (world : ω) : (lift outcome : Effectful ω ε α) world = (outcome, world) := rfl

theorem bind_ok {first : Effectful ω ε α} {next : α → Effectful ω ε β} {world after : ω} {value : α}
    (returned : first world = (.ok value, after)) : (first >>= next) world = next value after := by
  change (match first world with
    | (.ok value, after) => next value after
    | (.error error, after) => (.error error, after)) = _
  rw [returned]

theorem bind_error {first : Effectful ω ε α} {next : α → Effectful ω ε β} {world after : ω}
    {error : ε} (raised : first world = (.error error, after)) :
    (first >>= next) world = (.error error, after) := by
  change (match first world with
    | (.ok value, after) => next value after
    | (.error error, after) => (.error error, after)) = _
  rw [raised]

end Effectful

structure Logged (τ ε α : Type) where
  outcome : Except ε α
  log : List τ

namespace Logged

variable {τ ε α β : Type}

protected def pure (value : α) : Logged τ ε α := ⟨.ok value, []⟩

protected def bind (first : Logged τ ε α) (next : α → Logged τ ε β) : Logged τ ε β :=
  match first.outcome with
  | .ok value => ⟨(next value).outcome, first.log ++ (next value).log⟩
  | .error error => ⟨.error error, first.log⟩

instance : Monad (Logged τ ε) where
  pure := Logged.pure
  bind := Logged.bind

/-- Do something outside that cannot raise. -/
def note (entry : τ) : Logged τ ε Unit := ⟨.ok (), [entry]⟩

/-- Something whose outcome is decided outside. -/
def lift (outcome : Except ε α) : Logged τ ε α := ⟨outcome, []⟩

@[simp]
theorem pure_outcome (value : α) : (pure value : Logged τ ε α).outcome = .ok value := rfl

@[simp]
theorem pure_log (value : α) : (pure value : Logged τ ε α).log = [] := rfl

@[simp]
theorem lift_outcome (outcome : Except ε α) : (lift outcome : Logged τ ε α).outcome = outcome :=
  rfl

@[simp]
theorem lift_log (outcome : Except ε α) : (lift outcome : Logged τ ε α).log = [] := rfl

variable {next : α → Logged τ ε β} {first : Logged τ ε α}

/-- What follows runs on the value, and its log comes behind. -/
theorem bind_ok {value : α} (returned : first.outcome = .ok value) :
    (first >>= next).outcome = (next value).outcome ∧ (first >>= next).log = first.log ++ (next value).log := by
  change (Logged.bind first next).outcome = _ ∧ (Logged.bind first next).log = _
  simp [Logged.bind, returned]

theorem bind_error {error : ε} (raised : first.outcome = .error error) :
    (first >>= next).outcome = .error error ∧ (first >>= next).log = first.log := by
  change (Logged.bind first next).outcome = _ ∧ (Logged.bind first next).log = _
  simp [Logged.bind, raised]

@[simp]
theorem note_bind (entry : τ) (next : Unit → Logged τ ε β) :
    note entry >>= next = ⟨(next ()).outcome, entry :: (next ()).log⟩ := rfl

@[simp]
theorem pure_bind (value : α) (next : α → Logged τ ε β) : (pure value : Logged τ ε α) >>= next = next value := by
  change Logged.bind (Logged.pure value) next = next value
  simp [Logged.bind, Logged.pure]

@[simp]
theorem lift_ok_bind (value : α) (next : α → Logged τ ε β) :
    (lift (.ok value) : Logged τ ε α) >>= next = next value := pure_bind value next

@[simp]
theorem lift_error_bind (error : ε) (next : α → Logged τ ε β) :
    (lift (.error error) : Logged τ ε α) >>= next = ⟨.error error, []⟩ := rfl

/-- What the computation returns, where it does not raise, is as stated. -/
def Returns (run : Logged τ ε α) (post : α → Prop) : Prop :=
  ∀ value, run.outcome = .ok value → post value

theorem Returns.pure {value : α} {post : α → Prop} (holds : post value) :
    Returns (Pure.pure value : Logged τ ε α) post := by
  intro other same
  cases same
  exact holds

theorem Returns.bind {middle : α → Prop} {post : β → Prop} (returns : Returns first middle)
    (follows : ∀ value, middle value → Returns (next value) post) : Returns (first >>= next) post := by
  intro value same
  cases outcome : first.outcome with
  | ok seen =>
    rw [(bind_ok outcome).1] at same
    exact follows seen (returns seen outcome) value same
  | error error =>
    rw [(bind_error outcome).1] at same
    cases same

/-- What is returned does not matter. -/
theorem Returns.any (run : Logged τ ε α) : Returns run fun _ => True := fun _ _ => trivial

end Logged

end Dash.Foundation
