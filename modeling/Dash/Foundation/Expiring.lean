import Mathlib.Data.List.Basic
import Mathlib.Order.Lattice

/-! A set of used keys that forgets each of them at its expiry.

An attempt brings the time it has read, drops what has expired by that time, and passes when its key
is not there. Which attempts pass depends on the order in which they arrive and on the times they
bring, and a key can pass again after an attempt has brought a time past its expiry.
-/

set_option autoImplicit false

namespace Dash.Foundation

open List

variable {κ τ : Type} [LinearOrder τ]

/-- An attempt without a key only drops what has expired. -/
structure Attempt (κ τ : Type) where
  key : Option κ
  (expires now : τ)

namespace Expiring

def purge (now : τ) (used : List (κ × τ)) : List (κ × τ) := used.filter fun entry => now < entry.2

/-- The key is used, until the limit. -/
def Used (key : κ) (limit : τ) (used : List (κ × τ)) : Prop :=
  (key, limit) ∈ used ∧ ∀ entry ∈ used, entry.1 = key → entry.2 = limit

def Unused (key : κ) (used : List (κ × τ)) : Prop := ∀ entry ∈ used, entry.1 ≠ key

variable {key : κ} {limit : τ} {used : List (κ × τ)}

theorem Unused.purge (unused : Unused key used) (now : τ) : Unused key (purge now used) :=
  fun entry member => unused entry (mem_of_mem_filter member)

theorem Used.purge_early (present : Used key limit used) {now : τ} (early : now < limit) :
    Used key limit (purge now used) :=
  ⟨mem_filter.mpr ⟨present.1, decide_eq_true early⟩, fun entry member => present.2 entry (mem_of_mem_filter member)⟩

theorem Used.purge_late (present : Used key limit used) {now : τ} (late : ¬ now < limit) :
    Unused key (purge now used) := by
  intro entry member same
  obtain ⟨listed, kept⟩ := mem_filter.mp member
  rw [present.2 entry listed same] at kept
  exact late (of_decide_eq_true kept)

variable [DecidableEq κ]

/-- The attempt passes against what is left after the purge. -/
def passes (used : List (κ × τ)) (attempt : Attempt κ τ) : Bool :=
  match attempt.key with
  | some key => decide (key ∉ (purge attempt.now used).map Prod.fst)
  | none => false

def attend (used : List (κ × τ)) (attempt : Attempt κ τ) : List (κ × τ) :=
  match attempt.key with
  | some key =>
    if passes used attempt then purge attempt.now used ++ [(key, attempt.expires)]
    else purge attempt.now used
  | none => purge attempt.now used

/-- The keys of the attempts that pass, in their order. -/
def passed (used : List (κ × τ)) : List (Attempt κ τ) → List κ
  | [] => []
  | attempt :: rest =>
    (if passes used attempt then attempt.key.toList else []) ++ passed (attend used attempt) rest

/-- No attempt at the key comes with or after one that brings a time from the limit on. -/
def Quiet (key : κ) (limit : τ) : List (Attempt κ τ) → Prop
  | [] => True
  | attempt :: rest =>
    if attempt.now < limit then Quiet key limit rest
    else ∀ later ∈ attempt :: rest, later.key ≠ some key

/-- After the first attempt at the key, its expiry is not reached before the last one. -/
def Covered (key : κ) : List (Attempt κ τ) → Prop
  | [] => True
  | attempt :: rest =>
    if attempt.key = some key then Quiet key attempt.expires rest else Covered key rest

variable {attempt : Attempt κ τ}

theorem passes_unused (unused : Unused key (purge attempt.now used))
    (own : attempt.key = some key) : passes used attempt = true := by
  rw [passes, own]
  apply decide_eq_true
  intro listed
  obtain ⟨entry, member, same⟩ := mem_map.mp listed
  exact unused entry member same

theorem passes_used (present : Used key limit (purge attempt.now used))
    (own : attempt.key = some key) : passes used attempt = false := by
  rw [passes, own]
  exact decide_eq_false fun absent => absent (mem_map_of_mem present.1)

/-- An attempt at another key leaves the key as the purge does. -/
theorem attend_other (other : attempt.key ≠ some key) : ∀ entry, entry.1 = key →
      (entry ∈ attend used attempt ↔ entry ∈ purge attempt.now used) := by
  intro entry same
  rw [attend]
  cases name : attempt.key with
  | none => rfl
  | some wanted =>
    have apart : entry ≠ (wanted, attempt.expires) := by
      rintro rfl
      exact other (name.trans (congrArg some same))
    by_cases pass : passes used attempt <;> simp [pass, apart]

theorem Unused.attend (unused : Unused key (Expiring.purge attempt.now used))
    (other : attempt.key ≠ some key) : Unused key (attend used attempt) := by
  intro entry member same
  exact unused entry ((attend_other other entry same).mp member) same

theorem Used.attend (present : Used key limit (purge attempt.now used)) :
    attempt.key ≠ some key → Used key limit (attend used attempt) := by
  intro other
  refine ⟨(attend_other other _ rfl).mpr present.1, fun entry member same => ?_⟩
  exact present.2 entry ((attend_other other entry same).mp member) same

/-- The attempt that finds the key unused leaves it used. -/
theorem attend_own (unused : Unused key (purge attempt.now used))
    (own : attempt.key = some key) : Used key attempt.expires (attend used attempt) := by
  have pass := passes_unused unused own
  simp only [attend, own, pass, if_true]
  refine ⟨by simp, fun entry member same => ?_⟩
  rcases mem_append.mp member with old | new
  · exact absurd same (unused entry old)
  · rw [mem_singleton.mp new]

theorem attend_refused (present : Used key limit (purge attempt.now used))
    (own : attempt.key = some key) : Used key limit (attend used attempt) := by
  have refused := passes_used present own
  simpa [attend, own, refused] using present

theorem count_passed_cons (key : κ) (used : List (κ × τ)) (attempt : Attempt κ τ) (rest : List (Attempt κ τ)) :
    (passed used (attempt :: rest)).count key =
      (if passes used attempt ∧ attempt.key = some key then 1 else 0) +
        (passed (attend used attempt) rest).count key := by
  rw [passed, count_append]
  congr 1
  cases attempt.key with
  | none => by_cases passes used attempt <;> simp_all
  | some other =>
    by_cases passes used attempt <;> by_cases same : other = key <;> simp_all

/-- A key that is not used does not pass when nothing attempts it. -/
theorem passed_unused (unused : Unused key used) (attempts : List (Attempt κ τ)) :
    (passed used attempts).count key = 0 ↔ ∀ attempt ∈ attempts, attempt.key ≠ some key := by
  induction attempts generalizing used with
  | nil => simp [passed]
  | cons attempt rest ih =>
    have left := unused.purge attempt.now
    rw [count_passed_cons]
    by_cases own : attempt.key = some key
    · simp [passes_unused left own, own]
    · have tail := ih (left.attend own)
      simp only [own, and_false, if_false, Nat.zero_add, tail, mem_cons, forall_eq_or_imp]
      simp [own]

/-- A key that is used does not pass as long as its expiry is not brought before an attempt. -/
theorem passed_used (present : Used key limit used) {attempts : List (Attempt κ τ)} :
    (passed used attempts).count key = 0 ↔ Quiet key limit attempts := by
  induction attempts generalizing used with
  | nil => simp [passed, Quiet]
  | cons attempt rest ih =>
    rw [count_passed_cons, Quiet]
    by_cases early : attempt.now < limit
    · have left := present.purge_early early
      rw [if_pos early]
      by_cases own : attempt.key = some key
      · rw [passes_used left own, ← ih (attend_refused left own)]
        simp
      · rw [← ih (left.attend own)]
        simp [own]
    · have left := present.purge_late early
      rw [if_neg early]
      by_cases own : attempt.key = some key
      · simp [passes_unused left own, own]
      · have tail := passed_unused (left.attend own) rest
        simp only [own, and_false, if_false, Nat.zero_add, tail, mem_cons, forall_eq_or_imp]
        simp [own]

/-- A key that is not used passes at most once exactly when it stays covered. -/
theorem passed_once (unused : Unused key used) {attempts : List (Attempt κ τ)} :
    (passed used attempts).count key ≤ 1 ↔ Covered key attempts := by
  induction attempts generalizing used with
  | nil => simp [passed, Covered]
  | cons attempt rest ih =>
    have left := unused.purge attempt.now
    rw [count_passed_cons, Covered]
    by_cases own : attempt.key = some key
    · rw [if_pos own, ← passed_used (attend_own left own)]
      simp only [passes_unused left own, own, and_self, if_true]
      omega
    · rw [if_neg own, ← ih (left.attend own)]
      simp [own]

/-- In whatever order the attempts arrive, a key passes at most once exactly when no time from its
first expiry on is brought before an attempt at it. -/
theorem at_most_once (key : κ) (attempts : List (Attempt κ τ)) :
    (passed ([] : List (κ × τ)) attempts).count key ≤ 1 ↔ Covered key attempts :=
  passed_once (by simp [Unused])

end Expiring

end Dash.Foundation
