import Mathlib.Algebra.BigOperators.Group.List.Basic
import Mathlib.Algebra.Ring.Int.Defs
import Mathlib.Data.List.Dedup
import Mathlib.Data.List.Induction
import Mathlib.Data.List.Nodup

/-! Tables as lists of rows with a key; totals over the rows of one owner, and the items of a list whose
keys are new.

An update by key changes the rows of one key in place. Where the keys are distinct, a row is the one its
key finds. Where rows are upserted and a list names a key more than once, the last row stands.
-/

set_option autoImplicit false

namespace Dash.Foundation

open List

variable {ρ κ : Type}

/-- `update ... where key = target` -/
def update [DecidableEq κ] (key : ρ → κ) (target : κ) (change : ρ → ρ) (rows : List ρ) : List ρ :=
  rows.map fun row => if key row = target then change row else row

/-- `insert ... on conflict(key) do update` of every column -/
def upsert [DecidableEq κ] (key : ρ → κ) (row : ρ) (rows : List ρ) : List ρ :=
  if key row ∈ rows.map key then update key (key row) (fun _ => row) rows else rows ++ [row]

namespace Table

variable {key : ρ → κ} {target : κ} {change : ρ → ρ} {rows : List ρ}

theorem same_row (distinct : (rows.map key).Nodup) {first second : ρ} (one : first ∈ rows)
    (other : second ∈ rows) (same : key first = key second) : first = second :=
  inj_on_of_nodup_map distinct one other same

variable {row : ρ} {condition : ρ → Bool}

/-- The rows a condition selects are one, where it settles the key. -/
theorem filter_single (distinct : (rows.map key).Nodup) (member : row ∈ rows) (holds : condition row = true)
    (only : ∀ other ∈ rows, condition other = true → key other = key row) :
    rows.filter condition = [row] := by
  induction rows with
  | nil => cases member
  | cons head rest ih =>
    obtain ⟨absent, distinct⟩ := nodup_cons.mp distinct
    rcases mem_cons.mp member with rfl | later
    · rw [filter_cons_of_pos holds, filter_eq_nil_iff.mpr]
      intro other present selected
      exact absent (only other (mem_cons_of_mem _ present) selected ▸ mem_map_of_mem present)
    · rw [filter_cons_of_neg, ih distinct later fun other present =>
        only other (mem_cons_of_mem _ present)]
      intro selected
      exact absent (only head mem_cons_self selected ▸ mem_map_of_mem later)

/-- A row of a new key keeps the keys distinct. -/
theorem insert_keys (distinct : (rows.map key).Nodup) (fresh : key row ∉ rows.map key) :
    ((rows ++ [row]).map key).Nodup := by
  rw [map_append, map_singleton]
  refine distinct.append (nodup_singleton _) fun other member last => fresh ?_
  rwa [mem_singleton.mp last] at member

variable [DecidableEq κ]

theorem find_none {wanted : κ} : rows.find? (fun other => key other = wanted) = none ↔ wanted ∉ rows.map key := by
  simp [List.find?_eq_none]

theorem find_mem (distinct : (rows.map key).Nodup) (member : row ∈ rows) :
    rows.find? (fun other => key other = key row) = some row := by
  cases found : rows.find? fun other => key other = key row with
  | none => exact absurd (List.find?_eq_none.mp found row member) (by simp)
  | some other =>
    have same : key other = key row := by simpa using List.find?_some found
    rw [same_row distinct (List.mem_of_find?_eq_some found) member same]

theorem update_keys (kept : ∀ row, key (change row) = key row) :
    (update key target change rows).map key = rows.map key := by
  rw [update, map_map]
  exact map_congr_left fun row _ => by by_cases key row = target <;> simp_all

theorem mem_update : row ∈ update key target change rows ↔
      (∃ old ∈ rows, key old = target ∧ change old = row) ∨ (row ∈ rows ∧ key row ≠ target) := by
  rw [update, mem_map]
  constructor
  · rintro ⟨old, member, same⟩
    by_cases hit : key old = target
    · rw [if_pos hit] at same
      exact .inl ⟨old, member, hit, same⟩
    · rw [if_neg hit] at same
      subst same
      exact .inr ⟨member, hit⟩
  · rintro (⟨old, member, hit, same⟩ | ⟨member, miss⟩)
    · exact ⟨old, member, by rw [if_pos hit, same]⟩
    · exact ⟨row, member, if_neg miss⟩

/-- A condition that a change makes false selects the other rows. -/
theorem filter_update (gone : ∀ row ∈ rows, key row = target → condition (change row) = false) :
    (update key target change rows).filter condition = (rows.filter condition).filter fun row => key row ≠ target := by
  induction rows with
  | nil => rfl
  | cons row rest ih =>
    have tail := ih fun other member => gone other (mem_cons_of_mem _ member)
    rw [update] at tail ⊢
    rw [map_cons, filter_cons, tail]
    by_cases hit : key row = target
    · have away := gone row mem_cons_self hit
      cases holds : condition row <;> simp [hit, away, holds]
    · cases holds : condition row <;> simp [hit, holds]

/-- A condition that is false of a row and of what it becomes does not see the change. -/
theorem filter_update_same (never : ∀ row ∈ rows, key row = target →
      condition row = false ∧ condition (change row) = false) :
    (update key target change rows).filter condition = rows.filter condition := by
  rw [filter_update fun row member hit => (never row member hit).2]
  refine filter_eq_self.mpr fun row member => ?_
  obtain ⟨member, holds⟩ := mem_filter.mp member
  have apart : key row ≠ target := fun hit => by simp [(never row member hit).1] at holds
  simpa using apart

/-- With distinct keys an update changes one row. -/
theorem update_cases (distinct : (rows.map key).Nodup) (member : row ∈ rows) {after : ρ}
    (present : after ∈ update key (key row) change rows) :
    after = change row ∨ (after ∈ rows ∧ key after ≠ key row) := by
  rcases mem_update.mp present with ⟨old, oldMember, same, rfl⟩ | rest
  · exact .inl (congrArg change (same_row distinct oldMember member same))
  · exact .inr rest

theorem mem_changed (member : row ∈ rows) : change row ∈ update key (key row) change rows :=
  mem_update.mpr (.inl ⟨row, member, rfl, rfl⟩)

theorem mem_kept (member : row ∈ rows) (other : key row ≠ target) : row ∈ update key target change rows :=
  mem_update.mpr (.inr ⟨member, other⟩)

theorem find_update (kept : ∀ row, key row = target → key (change row) = target) (wanted : κ) :
    (update key target change rows).find? (fun row => key row = wanted) =
      if wanted = target then (rows.find? fun row => key row = wanted).map change
      else rows.find? fun row => key row = wanted := by
  induction rows with
  | nil => simp [update]
  | cons row rest ih =>
    simp only [update, map_cons, List.find?_cons] at ih ⊢
    by_cases hit : key row = target <;> by_cases found : key row = wanted <;>
      by_cases same : wanted = target <;> simp_all

theorem find_append (fresh : rows.find? (fun other => key other = key row) = none) (wanted : κ) :
    (rows ++ [row]).find? (fun other => key other = wanted) =
      if wanted = key row then some row else rows.find? fun other => key other = wanted := by
  rw [List.find?_append]
  by_cases same : wanted = key row
  · subst same
    simp [fresh]
  · simp [Ne.symm same, same]

theorem find_upsert (row : ρ) (rows : List ρ) (wanted : κ) :
    (upsert key row rows).find? (fun other => key other = wanted) =
      if wanted = key row then some row else rows.find? fun other => key other = wanted := by
  rw [upsert]
  split
  next known =>
    rw [find_update fun _ _ => rfl]
    by_cases same : wanted = key row
    · obtain ⟨old, member, hit⟩ := mem_map.mp known
      rw [if_pos same, if_pos same]
      cases found : rows.find? fun other => key other = wanted with
      | none => exact absurd (List.find?_eq_none.mp found old member) (by simp [hit, same])
      | some other => rfl
    · rw [if_neg same, if_neg same]
  next fresh =>
    refine find_append (List.find?_eq_none.mpr fun old member => ?_) wanted
    simpa using fun same : key old = key row => fresh (same ▸ mem_map_of_mem member)

theorem upsert_keys (distinct : (rows.map key).Nodup) : ((upsert key row rows).map key).Nodup:= by
  rw [upsert]
  split
  next known =>
    have same : ∀ old ∈ rows, key (if key old = key row then row else old) = key old := by
      intro old _
      split <;> simp_all
    rw [update, map_map]
    exact (map_congr_left same) ▸ distinct
  next fresh => exact insert_keys distinct fresh

theorem mem_upsert {row old : ρ} (member : old ∈ upsert key row rows) : old = row ∨ old ∈ rows := by
  rw [upsert] at member
  split at member
  next known =>
    rcases mem_update.mp member with ⟨_, _, _, same⟩ | ⟨kept, _⟩
    · exact .inl same.symm
    · exact .inr kept
  next fresh =>
    rcases mem_append.mp member with kept | new
    · exact .inr kept
    · exact .inl (mem_singleton.mp new)

/-- An update changes a total by the difference it makes to one row. -/
theorem sum_update (distinct : (rows.map key).Nodup) (member : row ∈ rows) (measure : ρ → Int) :
    ((update key (key row) change rows).map measure).sum + measure row =
      (rows.map measure).sum + measure (change row) := by
  induction rows with
  | nil => cases member
  | cons head rest ih =>
    obtain ⟨absent, distinct⟩ := nodup_cons.mp distinct
    rcases mem_cons.mp member with rfl | later
    · have others : update key (key row) change rest = rest := by
        refine (map_congr_left fun other present => ?_).trans (map_id rest)
        exact if_neg fun same : key other = key row => absent (same ▸ mem_map_of_mem present)
      have step : update key (key row) change (row :: rest) = change row :: rest := by
        rw [update, map_cons, if_pos rfl]
        exact congrArg (change row :: ·) others
      simp only [step, map_cons, sum_cons]
      omega
    · have other : key head ≠ key row := fun same =>
        absent (same ▸ mem_map_of_mem later)
      have earlier := ih distinct later
      have step : update key (key row) change (head :: rest) = head :: update key (key row) change rest := by
        rw [update, map_cons, if_neg other]
        rfl
      simp only [step, map_cons, sum_cons]
      omega

end Table

variable {ρ κ : Type} [DecidableEq κ]

/-- The last row of the key. -/
def lastOf (key : ρ → κ) (rows : List ρ) (wanted : κ) : Option ρ :=
  rows.reverse.find? fun row => key row = wanted

def upsertAll (key : ρ → κ) (news rows : List ρ) : List ρ :=
  news.foldl (fun rows row => upsert key row rows) rows

namespace Table

variable {key : ρ → κ} {news rows : List ρ}

theorem lastOf_append (row : ρ) (wanted : κ) :
    lastOf key (news ++ [row]) wanted = if wanted = key row then some row else lastOf key news wanted := by
  rw [lastOf, List.reverse_append, List.reverse_singleton, List.singleton_append, List.find?_cons]
  by_cases same : key row = wanted
  · simp [same]
  · simp [same, Ne.symm same, lastOf]

theorem lastOf_key {wanted : κ} {row : ρ} (found : lastOf key news wanted = some row) : key row = wanted := by
  simpa using List.find?_some found

theorem upsertAll_append (row : ρ) : upsertAll key (news ++ [row]) rows = upsert key row (upsertAll key news rows) :=
  List.foldl_append

theorem find_upsertAll (wanted : κ) : (upsertAll key news rows).find? (fun row => key row = wanted) =
      (lastOf key news wanted).or (rows.find? fun row => key row = wanted) := by
  induction news using List.reverseRecOn with
  | nil => rfl
  | append_singleton news row ih =>
    rw [upsertAll_append, find_upsert, lastOf_append, ih]
    split <;> rfl

theorem upsertAll_keys (distinct : (rows.map key).Nodup) : ((upsertAll key news rows).map key).Nodup := by
  induction news using List.reverseRecOn with
  | nil => exact distinct
  | append_singleton news row ih =>
    rw [upsertAll_append]
    exact upsert_keys ih

theorem mem_find (distinct : (rows.map key).Nodup) {row : ρ} :
    row ∈ rows ↔ rows.find? (fun other => key other = key row) = some row :=
  ⟨find_mem distinct, List.mem_of_find?_eq_some⟩

/-- A row is there when it is the last one listed of its key, or an old one of a key that
is not listed. -/
theorem mem_upsertAll (distinct : (rows.map key).Nodup) {row : ρ} :
    row ∈ upsertAll key news rows ↔ lastOf key news (key row) = some row ∨
      lastOf key news (key row) = none ∧ row ∈ rows := by
  rw [mem_find (upsertAll_keys distinct), find_upsertAll, mem_find distinct]
  cases lastOf key news (key row) with
  | none => simp
  | some listed => simp

theorem lastOf_map {σ : Type} (change : ρ → σ) {other : σ → κ} (same : ∀ row, other (change row) = key row)
    (wanted : κ) : lastOf other (news.map change) wanted = (lastOf key news wanted).map change := by
  rw [lastOf, ← List.map_reverse, List.find?_map, lastOf]
  refine congrArg (Option.map change) (congrArg (List.find? · news.reverse) (funext fun row => ?_))
  simp [same]

end Table

open List

variable {ρ κ ω : Type} [DecidableEq ω]

/-- `select sum(measure) from rows where owner = who` -/
def totalOf (owner : ρ → ω) (measure : ρ → Int) (rows : List ρ) (who : ω) : Int :=
  ((rows.filter fun row => owner row = who).map measure).sum

namespace Table

variable {owner : ρ → ω} {measure : ρ → Int} {rows : List ρ} {who : ω}

theorem totalOf_sum : totalOf owner measure rows who =
    (rows.map fun row => if owner row = who then measure row else 0).sum := by
  induction rows with
  | nil => rfl
  | cons row rest ih =>
    simp only [totalOf, map_cons, sum_cons, filter_cons, decide_eq_true_eq] at ih ⊢
    rw [← ih]
    by_cases own : owner row = who <;> simp [own]

theorem totalOf_append (row : ρ) : totalOf owner measure (rows ++ [row]) who =
    totalOf owner measure rows who + if owner row = who then measure row else 0 := by
  simp [totalOf_sum]

theorem totalOf_none (absent : ∀ row ∈ rows, owner row ≠ who) : totalOf owner measure rows who = 0 := by
  rw [totalOf, filter_eq_nil_iff.mpr fun row member => by simpa using absent row member]
  rfl

/-- An update that raises the measure of one row raises the total of its owner. -/
theorem totalOf_update [DecidableEq κ] {key : ρ → κ} {change : ρ → ρ}
    (distinct : (rows.map key).Nodup) {row : ρ} (member : row ∈ rows)
    (owned : owner (change row) = owner row) {seconds : Int}
    (raised : measure (change row) = measure row + seconds) :
    totalOf owner measure (update key (key row) change rows) who =
      totalOf owner measure rows who + if owner row = who then seconds else 0 := by
  have changed : ((update key (key row) change rows).map fun row =>
      if owner row = who then measure row else 0).sum + _ = _ := sum_update distinct member _
  simp only [owned, raised] at changed
  rw [totalOf_sum, totalOf_sum]
  by_cases own : owner row = who
  · simp only [own, if_true] at changed ⊢
    omega
  · simp only [own, if_false] at changed ⊢
    omega

end Table

variable {α β κ : Type} [DecidableEq κ]

def firsts (key : α → κ) (known : List κ) : List α → List α
  | [] => []
  | item :: rest => if key item ∈ known then firsts key known rest else item :: firsts key (key item :: known) rest

namespace Firsts

variable {key : α → κ} {known other : List κ} {items : List α}

theorem mem_keys {wanted : κ} :
    wanted ∈ (firsts key known items).map key ↔ wanted ∈ items.map key ∧ wanted ∉ known := by
  induction items generalizing known with
  | nil => simp [firsts]
  | cons item rest ih =>
    unfold firsts
    by_cases old : key item ∈ known
    · rw [if_pos old, ih, map_cons, mem_cons]
      refine and_congr_left fun new => (or_iff_right ?_).symm
      exact fun same => new (same ▸ old)
    · rw [if_neg old, map_cons, mem_cons, ih, map_cons, mem_cons, mem_cons, not_or]
      by_cases same : wanted = key item
      · simp [same, old]
      · simp [same]

/-- What is known counts for the keys of the items only. -/
theorem congr (same : ∀ item ∈ items, key item ∈ known ↔ key item ∈ other) :
    firsts key known items = firsts key other items := by
  induction items generalizing known other with
  | nil => rfl
  | cons item rest ih =>
    obtain ⟨head, tail⟩ := forall_mem_cons.mp same
    unfold firsts
    by_cases old : key item ∈ known
    · rw [if_pos old, if_pos (head.mp old), ih tail]
    · rw [if_neg old, if_neg fun present => old (head.mpr present)]
      refine congrArg _ (ih fun next member => ?_)
      rw [mem_cons, mem_cons, tail next member]

theorem congr_key {similar : α → κ} (same : ∀ item ∈ items, key item = similar item) :
    firsts key known items = firsts similar known items := by
  induction items generalizing known with
  | nil => rfl
  | cons item rest ih =>
    obtain ⟨head, tail⟩ := forall_mem_cons.mp same
    rw [firsts, firsts, head, ih tail, ih tail]

theorem map (change : β → α) (items : List β) :
    firsts key known (items.map change) = (firsts (fun item => key (change item)) known items).map change := by
  induction items generalizing known with
  | nil => rfl
  | cons item rest ih =>
    rw [map_cons, firsts, firsts]
    split
    · exact ih
    · rw [ih, map_cons]

theorem sublist : (firsts key known items).Sublist items := by
  induction items generalizing known with
  | nil => exact .slnil
  | cons item rest ih =>
    unfold firsts
    split
    · exact ih.cons item
    · exact ih.cons_cons item

end Firsts

end Dash.Foundation
