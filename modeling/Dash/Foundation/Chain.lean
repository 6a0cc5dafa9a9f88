import Mathlib.Data.List.Basic
import Mathlib.Data.List.Induction

/-! Sequences of rows that are accepted one after another.

Each row is checked against what the rows before it left, and moves that on. A
linked sequence is one where every row names the digest of the row before it.
-/

set_option autoImplicit false

namespace Dash.Foundation

open List

variable {σ ρ κ : Type}

/-- Every row is valid where the rows before it lead. -/
def Sound (advance : σ → ρ → σ) (valid : σ → ρ → Prop) : σ → List ρ → Prop
  | _, [] => True
  | state, row :: rest => valid state row ∧ Sound advance valid (advance state row) rest

namespace Sound

variable {advance : σ → ρ → σ} {valid : σ → ρ → Prop}

theorem append {state : σ} {first second : List ρ} : Sound advance valid state (first ++ second) ↔
      Sound advance valid state first ∧ Sound advance valid (first.foldl advance state) second := by
  induction first generalizing state with
  | nil => simp [Sound]
  | cons row rest ih => simp only [cons_append, Sound, foldl_cons, ih, and_assoc]

theorem concat {state : σ} {rows : List ρ} {row : ρ} (before : Sound advance valid state rows)
    (next : valid (rows.foldl advance state) row) : Sound advance valid state (rows ++ [row]) :=
  append.mpr ⟨before, next, trivial⟩

end Sound

/-- Every row names the code of the row before it. -/
def Linked (name code : ρ → κ) : κ → List ρ → Prop :=
  Sound (fun _ row => code row) fun previous row => name row = previous

section Linked

variable {name code : ρ → κ} {root : κ} {rows : List ρ}

/-- The code that some first rows lead to is found at their number. -/
theorem foldl_code (first rest : List ρ) : (root :: (first ++ rest).map code)[first.length]? =
      some (first.foldl (fun _ row => code row) root) := by
  induction first generalizing root with
  | nil => rfl
  | cons row first ih => exact ih

/-- Where all codes differ, first rows that lead to one code are the same rows. -/
theorem same_place (distinct : (root :: rows.map code).Nodup) {first second left right : List ρ}
    (one : rows = first ++ left) (two : rows = second ++ right)
    (same : first.foldl (fun _ row => code row) root =
      second.foldl (fun _ row => code row) root) : first = second ∧ left = right := by
  have atFirst := @foldl_code _ _ code root first left
  have atSecond := @foldl_code _ _ code root second right
  rw [← one] at atFirst
  rw [← two, ← same, ← atFirst] at atSecond
  have inside : first.length < (root :: rows.map code).length := by
    rw [one, length_cons, length_map, length_append]
    omega
  have lengths : first.length = second.length := (List.getElem?_inj inside distinct).mp atSecond.symm
  exact append_inj (one.symm.trans two) lengths

/-- Linked rows out of linked rows whose codes all differ are the first of them. -/
theorem Linked.initial (linked : Linked name code root rows)
    (distinct : (root :: rows.map code).Nodup) {left : List ρ} (chain : Linked name code root left)
    (among : ∀ row ∈ left, row ∈ rows) : left <+: rows := by
  induction left using List.reverseRecOn with
  | nil => exact List.nil_prefix
  | append_singleton before last ih =>
    obtain ⟨chained, named, -⟩ := Sound.append.mp chain
    obtain ⟨rest, split⟩ := ih chained fun row member =>
      among row (mem_append_left _ member)
    obtain ⟨first, second, place⟩ := append_of_mem (among last (mem_append_right _ (mem_singleton_self last)))
    obtain ⟨-, there, -⟩ := Sound.append.mp (place ▸ linked)
    -- The row names what the rows before it lead to, in both sequences.
    obtain ⟨same, follows⟩ := same_place distinct split.symm place (named.symm.trans there)
    exact ⟨second, by rw [← split, follows, append_assoc, singleton_append]⟩

end Linked

end Dash.Foundation
