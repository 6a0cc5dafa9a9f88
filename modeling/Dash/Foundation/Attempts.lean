import Mathlib.Data.List.Basic

/-! Computations that may fail, one after the other over a list. -/

set_option autoImplicit false

namespace Dash.Foundation.Attempts

variable {ε α β : Type}

theorem bind_ok {first : Except ε α} {next : α → Except ε β} {value : β} :
    (first >>= next) = .ok value ↔ ∃ middle, first = .ok middle ∧ next middle = .ok value := by
  cases first with
  | error why =>
    exact ⟨(fun impossible => nomatch impossible), fun ⟨_, impossible, _⟩ => nomatch impossible⟩
  | ok middle =>
    constructor
    · exact fun rest => ⟨middle, rfl, rest⟩
    · rintro ⟨other, same, rest⟩
      cases same
      exact rest

variable {step : α → Except ε β} {items : List α} {results : List β}

/-- A list goes through when each of its items does. -/
theorem mapM_ok : (∃ results, items.mapM step = .ok results) ↔ ∀ item ∈ items, ∃ result, step item = .ok result := by
  induction items with
  | nil => exact ⟨fun _ => nofun, fun _ => ⟨[], rfl⟩⟩
  | cons item rest ih =>
    rw [List.mapM_cons, List.forall_mem_cons, ← ih]
    constructor
    · rintro ⟨results, same⟩
      obtain ⟨first, one, same⟩ := bind_ok.mp same
      obtain ⟨others, tail, -⟩ := bind_ok.mp same
      exact ⟨⟨first, one⟩, others, tail⟩
    · rintro ⟨⟨first, one⟩, others, tail⟩
      exact ⟨first :: others, bind_ok.mpr ⟨first, one, bind_ok.mpr ⟨others, tail, rfl⟩⟩⟩

/-- Every result is that of an item. -/
theorem mapM_each (done : items.mapM step = .ok results) {result : β} (member : result ∈ results) :
    ∃ item ∈ items, step item = .ok result := by
  induction items generalizing results with
  | nil =>
    cases done
    cases member
  | cons item rest ih =>
    rw [List.mapM_cons] at done
    obtain ⟨first, one, done⟩ := bind_ok.mp done
    obtain ⟨others, tail, same⟩ := bind_ok.mp done
    cases same
    rcases List.mem_cons.mp member with rfl | later
    · exact ⟨item, List.mem_cons_self, one⟩
    · obtain ⟨other, there, found⟩ := ih tail later
      exact ⟨other, List.mem_cons_of_mem _ there, found⟩

theorem mapM_length (done : items.mapM step = .ok results) : results.length = items.length := by
  induction items generalizing results with
  | nil =>
    cases done
    rfl
  | cons item rest ih =>
    rw [List.mapM_cons] at done
    obtain ⟨first, -, done⟩ := bind_ok.mp done
    obtain ⟨others, tail, same⟩ := bind_ok.mp done
    cases same
    rw [List.length_cons, List.length_cons, ih tail]

variable {γ δ : Type} {f : β → δ}

/-- What goes through also goes through another step that says as much about each item. -/
theorem mapM_through (other : α → Except ε γ) (g : γ → δ)
    (each : ∀ item result, step item = .ok result → ∃ value, other item = .ok value ∧ f result = g value)
    (done : items.mapM step = .ok results) :
    ∃ values, items.mapM other = .ok values ∧ results.map f = values.map g := by
  induction items generalizing results with
  | nil =>
    cases done
    exact ⟨[], rfl, rfl⟩
  | cons item rest ih =>
    rw [List.mapM_cons] at done
    obtain ⟨first, one, done⟩ := bind_ok.mp done
    obtain ⟨others, tail, same⟩ := bind_ok.mp done
    cases same
    obtain ⟨value, found, same⟩ := each item first one
    obtain ⟨values, more, alike⟩ := ih tail
    refine ⟨value :: values, ?_, by rw [List.map_cons, List.map_cons, same, alike]⟩
    rw [List.mapM_cons, found, more]
    rfl

theorem mapM_map {g : α → δ} (each : ∀ item result, step item = .ok result → f result = g item)
    (done : items.mapM step = .ok results) : results.map f = items.map g := by
  obtain ⟨values, same, alike⟩ := mapM_through (fun item => .ok (g item)) id
    (fun item result found => ⟨_, rfl, each item result found⟩) done
  rw [List.map_id] at alike
  have pure_ : items.mapM (fun item => (pure (g item) : Except ε δ)) = pure (items.map g) := List.mapM_pure
  rw [alike, Except.ok.inj (same.symm.trans pure_)]

theorem mapM_back {f : α → β} (each : ∀ item ∈ items, step item = .ok (f item)) :
    items.mapM step = .ok (items.map f) := by
  induction items with
  | nil => rfl
  | cons item rest ih =>
    rw [List.mapM_cons, each item List.mem_cons_self, ih fun other there => each other (List.mem_cons_of_mem _ there)]
    rfl

/-- What was written is read back. -/
theorem mapM_written {write : β → α} (each : ∀ result ∈ results, step (write result) = .ok result) :
    (results.map write).mapM step = .ok results := by
  rw [List.mapM_map]
  have done := mapM_back (f := id) each
  rwa [List.map_id] at done

/-- What a list that goes through gives, item by item. -/
theorem mapM_some {step : α → Option β} (mapped : items.mapM step = some results) :
    List.Forall₂ (fun item result => step item = some result) items results := by
  induction items generalizing results with
  | nil =>
    cases mapped
    exact .nil
  | cons item rest ih =>
    rw [List.mapM_cons] at mapped
    obtain ⟨result, found, after⟩ := Option.bind_eq_some_iff.mp mapped
    obtain ⟨others, rests, last⟩ := Option.bind_eq_some_iff.mp after
    cases last
    exact .cons found (ih rests)

theorem forall₂_left {relation : α → β → Prop} (related : List.Forall₂ relation items results) {item : α}
    (member : item ∈ items) : ∃ result ∈ results, relation item result := by
  induction related with
  | nil => cases member
  | cons head _ ih =>
    rcases List.mem_cons.mp member with rfl | rest
    · exact ⟨_, List.mem_cons_self, head⟩
    · obtain ⟨other, inside, holds⟩ := ih rest
      exact ⟨other, List.mem_cons_of_mem _ inside, holds⟩

theorem forall₂_map {γ : Type} {relation : α → β → Prop} {key : α → γ} {other : β → γ}
    (related : List.Forall₂ relation items results)
    (same : ∀ item result, relation item result → other result = key item) :
    results.map other = items.map key := by
  induction related with
  | nil => rfl
  | cons head _ ih => rw [List.map_cons, List.map_cons, same _ _ head, ih]

end Dash.Foundation.Attempts
