import Mathlib.Logic.Relation

/-! Fallible state transformers that commit as a whole or not at all.

A transaction either returns a value with the state it leaves behind, or fails
with no state. Running one against a store keeps the new state on success and
the old one on failure, so whatever a body changed before it failed is undone.
-/

set_option autoImplicit false

namespace Dash.Foundation

/-- A body of work on a state. A failure carries no state back. -/
def Transaction (σ ε α : Type) : Type := σ → Except ε (α × σ)

namespace Transaction

variable {σ ε α β : Type}

instance : Monad (Transaction σ ε) where
  pure value := fun state => .ok (value, state)
  bind first next := fun state =>
    match first state with
    | .ok (value, middle) => next value middle
    | .error why => .error why

def raise (why : ε) : Transaction σ ε α := fun _ => .error why

def read (select : σ → α) : Transaction σ ε α := fun state => .ok (select state, state)

def write (update : σ → σ) : Transaction σ ε Unit := fun state => .ok ((), update state)

/-- Work that does not touch the state. -/
def lift (result : Except ε α) : Transaction σ ε α := fun state =>
  match result with
  | .ok value => .ok (value, state)
  | .error why => .error why

/-- Raise when a check fails. -/
def check (holds : Bool) (why : ε) : Transaction σ ε Unit :=
  if holds then pure () else raise why

/-- A loop that collects what each round returns. -/
def each (body : α → Transaction σ ε β) : List α → Transaction σ ε (List β)
  | [] => pure []
  | item :: rest => do
    let first ← body item
    let others ← each body rest
    pure (first :: others)

/-- The state a store holds after the transaction was committed or rolled back. -/
def commit (body : Transaction σ ε α) (state : σ) : σ :=
  match body state with
  | .ok (_, after) => after
  | .error _ => state

variable {state : σ} {next : α → Transaction σ ε β} {first : Transaction σ ε α}

@[simp] theorem bind_ok {result : β × σ} : (first >>= next) state = .ok result ↔
      ∃ value middle, first state = .ok (value, middle) ∧ next value middle = .ok result := by
  change (match first state with
    | .ok (value, middle) => next value middle
    | .error why => .error why) = .ok result ↔ _
  cases outcome : first state with
  | error why => simp
  | ok pair =>
    constructor
    · exact fun rest => ⟨pair.1, pair.2, rfl, rest⟩
    · rintro ⟨value, middle, same, rest⟩
      cases same
      exact rest

variable {result : α × σ} {value : α}

@[simp] theorem pure_ok : (pure value : Transaction σ ε α) state = .ok result ↔ (value, state) = result := by
  change Except.ok (value, state) = .ok result ↔ _
  simp

variable {why : ε}

@[simp] theorem raise_ok : (raise why : Transaction σ ε α) state = .ok result ↔ False := by
  simp [raise]

variable {select : σ → α}

@[simp] theorem read_ok : (read select : Transaction σ ε α) state = .ok result ↔ (select state, state) = result := by
  simp [read]

variable {update : σ → σ}

@[simp] theorem write_ok {result : Unit × σ} :
    (write update : Transaction σ ε Unit) state = .ok result ↔ ((), update state) = result := by
  simp [write]

variable {outcome : Except ε α}

@[simp] theorem lift_ok : (lift outcome : Transaction σ ε α) state = .ok result ↔
      outcome = .ok result.1 ∧ state = result.2 := by
  obtain ⟨value, after⟩ := result
  cases outcome <;> simp [lift]

variable {holds : Bool}

@[simp] theorem check_ok {result : Unit × σ} : (check holds why : Transaction σ ε Unit) state = .ok result ↔
      holds = true ∧ ((), state) = result := by
  cases holds <;> simp [check]

/-! How the successes of a body are read off its statements, first to last. -/

@[simp] theorem read_bind : (read select >>= next) state = next (select state) state := rfl

@[simp] theorem write_bind {next : Unit → Transaction σ ε β} :
    (write update >>= next) state = next () (update state) := rfl

@[simp] theorem lift_bind {result : β × σ} : (lift outcome >>= next) state = .ok result ↔
      ∃ value, outcome = .ok value ∧ next value state = .ok result := by
  rw [bind_ok]
  constructor
  · rintro ⟨value, middle, lifted, rest⟩
    obtain ⟨same, rfl⟩ := lift_ok.mp lifted
    exact ⟨value, same, rest⟩
  · rintro ⟨value, same, rest⟩
    exact ⟨value, state, lift_ok.mpr ⟨same, rfl⟩, rest⟩

@[simp] theorem check_bind {next : Unit → Transaction σ ε β} {result : β × σ} :
    (check holds why >>= next) state = .ok result ↔ holds = true ∧ next () state = .ok result := by
  cases holds with
  | false => simp [check]
  | true => exact (and_iff_right rfl).symm

theorem lift_value_bind : ((lift (.ok value) : Transaction σ ε α) >>= next) state = next value state := rfl

theorem check_true_bind {next : Unit → Transaction σ ε β}
    (passes : holds = true) : (check holds why >>= next) state = next () state := by
  subst passes
  rfl

theorem bind_of_ok {state middle : σ} (ran : first state = .ok (value, middle)) :
    (first >>= next) state = next value middle := by
  simp only [bind, ran]

/-- A loop succeeds when each of its rounds does, whatever the state. -/
theorem each_succeeds {body : α → Transaction σ ε β}
    {items : List α} (round : ∀ item ∈ items, ∀ state, ∃ result, body item state = .ok result) (state : σ) :
    ∃ result, each body items state = .ok result := by
  induction items generalizing state with
  | nil => exact ⟨_, rfl⟩
  | cons item rest ih =>
    obtain ⟨⟨first, middle⟩, head⟩ := round item List.mem_cons_self state
    obtain ⟨⟨others, last⟩, tail⟩ := ih (fun other later => round other (List.mem_cons_of_mem _ later)) middle
    exact ⟨(first :: others, last), bind_ok.mpr ⟨_, _, head, bind_ok.mpr ⟨_, _, tail, rfl⟩⟩⟩

@[simp] theorem guard_ok {condition : Prop} [Decidable condition] {rest : Transaction σ ε α} :
    (if condition then raise why else rest) state = .ok result ↔
      ¬ condition ∧ rest state = .ok result := by
  by_cases condition <;> simp_all

@[simp] theorem bind_error : (first >>= next) state = .error why ↔ first state = .error why ∨
      ∃ value middle, first state = .ok (value, middle) ∧ next value middle = .error why := by
  change (match first state with
    | .ok (value, middle) => next value middle
    | .error why => .error why) = .error why ↔ _
  cases outcome : first state with
  | error other => simp
  | ok pair =>
    constructor
    · exact fun rest => .inr ⟨pair.1, pair.2, rfl, rest⟩
    · rintro (impossible | ⟨value, middle, same, rest⟩)
      · cases impossible
      · cases same
        exact rest

@[simp] theorem pure_error : (pure value : Transaction σ ε α) state = .error why ↔ False := by
  simp

@[simp] theorem write_error : (write update : Transaction σ ε Unit) state = .error why ↔ False := by
  simp [write]

@[simp] theorem lift_error : (lift outcome : Transaction σ ε α) state = .error why ↔ outcome = .error why := by
  cases outcome <;> simp [lift]

@[simp] theorem check_error {why other : ε} :
    (check holds why : Transaction σ ε Unit) state = .error other ↔ holds = false ∧ why = other := by
  cases holds with
  | false => simp [check, raise]
  | true =>
    simp only [check, ↓reduceIte, Bool.true_eq_false, false_and, iff_false]
    exact fun impossible => pure_error.mp impossible

variable {body : Transaction σ ε α}

theorem commit_ok {state after : σ} (success : body state = .ok (value, after)) : body.commit state = after := by
  simp [commit, success]

theorem commit_error (failure : body state = .error why) : body.commit state = state := by
  simp [commit, failure]

/-- To hold after a commit it is enough to hold before and after every success. -/
theorem commit_induction (Holds : σ → Prop) (before : Holds state)
    (success : ∀ value after, body state = .ok (value, after) → Holds after) :
    Holds (body.commit state) := by
  unfold commit
  split
  · exact success _ _ ‹_›
  · exact before

/-- Every success goes from the first state to the last by steps of one kind. -/
def Within (step : σ → σ → Prop) (body : Transaction σ ε α) : Prop :=
  ∀ state value after, body state = .ok (value, after) → Relation.ReflTransGen step state after

namespace Within

variable {step other : σ → σ → Prop}

theorem pure (value : α) : Within step (Pure.pure value : Transaction σ ε α) := by
  rintro state result after success
  obtain ⟨-, rfl⟩ := Prod.mk.inj (pure_ok.mp success)
  exact .refl

theorem raise (why : ε) : Within step (raise why : Transaction σ ε α) := by
  rintro state result after success
  exact (raise_ok.mp success).elim

theorem read (select : σ → α) : Within step (read select : Transaction σ ε α) := by
  rintro state result after success
  obtain ⟨-, rfl⟩ := Prod.mk.inj (read_ok.mp success)
  exact .refl

theorem lift (outcome : Except ε α) : Within step (lift outcome : Transaction σ ε α) := by
  rintro state result after success
  obtain ⟨-, rfl⟩ := lift_ok.mp success
  exact .refl

theorem check (holds : Bool) (why : ε) : Within step (check holds why : Transaction σ ε Unit) := by
  rintro state result after success
  obtain ⟨-, same⟩ := check_ok.mp success
  obtain ⟨-, rfl⟩ := Prod.mk.inj same
  exact .refl

theorem write {update : σ → σ} (moves : ∀ state, step state (update state)) :
    Within step (write update : Transaction σ ε Unit) := by
  rintro state result after success
  obtain ⟨-, rfl⟩ := Prod.mk.inj (write_ok.mp success)
  exact .single (moves state)

theorem bind {first : Transaction σ ε α} {next : α → Transaction σ ε β}
    (head : Within step first) (tail : ∀ value, Within step (next value)) :
    Within step (first >>= next) := by
  rintro state result after success
  obtain ⟨value, middle, before, rest⟩ := bind_ok.mp success
  exact (head _ _ _ before).trans (tail value _ _ _ rest)

/-- After a computation that succeeded, with that it did. -/
theorem lift_bind {outcome : Except ε α} {next : α → Transaction σ ε β}
    (tail : ∀ value, outcome = .ok value → Within step (next value)) :
    Within step (Transaction.lift outcome >>= next) := by
  rintro state value after success
  obtain ⟨middle, same, rest⟩ := Transaction.lift_bind.mp success
  exact tail middle same _ _ _ rest

theorem ite {condition : Prop} [Decidable condition] {yes no : Transaction σ ε α}
    (left : condition → Within step yes) (right : ¬ condition → Within step no) :
    Within step (if condition then yes else no) := by
  split
  · exact left ‹_›
  · exact right ‹_›

theorem each_mem {body : α → Transaction σ ε β} {items : List α}
    (round : ∀ item ∈ items, Within step (body item)) : Within step (each body items) := by
  induction items with
  | nil => exact pure []
  | cons item rest ih =>
    obtain ⟨head, tail⟩ := List.forall_mem_cons.mp round
    exact bind head fun first => bind (ih tail) fun others => pure (first :: others)

theorem each {body : α → Transaction σ ε β} (round : ∀ item, Within step (body item))
    (items : List α) : Within step (each body items) :=
  each_mem fun item _ => round item

theorem mono {body : Transaction σ ε α} (narrow : Within step body)
    (wider : ∀ first last, step first last → other first last) : Within other body := by
  intro state value after success
  exact Relation.ReflTransGen.mono wider _ _ (narrow _ _ _ success)

/-- What every step preserves, the committed transaction preserves. -/
theorem commit {body : Transaction σ ε α} (inside : Within step body) (Holds : σ → Prop)
    (preserved : ∀ first last, step first last → Holds first → Holds last) {state : σ}
    (before : Holds state) : Holds (body.commit state) := by
  refine commit_induction Holds before fun value after success => ?_
  have path := inside _ _ _ success
  clear success
  induction path with
  | refl => exact before
  | tail _ edge ih => exact preserved _ _ edge ih

end Within

end Transaction

end Dash.Foundation
