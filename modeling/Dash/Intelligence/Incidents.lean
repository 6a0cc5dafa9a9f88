import Dash.Foundation.Table
import Dash.Intelligence.Ledger

/-! What the incident views compute, from the events in their order.

Both read the events of one key in the order of time and sequence. The fold names the
last opening, and a resolution only if nothing was opened after it.
-/

set_option autoImplicit false

namespace Dash.Intelligence

open Dash.Python Dash.Foundation List

variable {F T D : Type}

inductive IncidentStatus where
  | opened | resolved
  deriving DecidableEq, Repr

/-- What `status` collects of one incident. -/
structure Incident (T D : Type) where
  incidentKey : String
  opened : Option (Event T D)
  resolved : Option (Event T D)

def Incident.status (incident : Incident T D) : IncidentStatus :=
  if incident.resolved.isSome then .resolved else .opened

def Incident.note (incident : Incident T D) (event : Event T D) : Incident T D :=
  match event.kind with
  | .incidentOpen => { incident with opened := some event, resolved := none }
  | .incidentResolved => { incident with resolved := some event }
  | _ => incident

/-- `incidents.setdefault(key, ...)`, and what the event says. -/
def track (incidents : List (Incident T D)) (event : Event T D) : List (Incident T D) :=
  match event.incidentKey with
  | none => incidents
  | some key =>
    if incidents.any fun incident => incident.incidentKey = key then
      incidents.map fun incident =>
        if incident.incidentKey = key then incident.note event else incident
    else incidents ++ [(⟨key, none, none⟩ : Incident T D).note event]

structure Report (T D : Type) where
  openIncidents : List (Incident T D)
  incidents : List (Incident T D)

structure Capsule (T D : Type) where
  incidentKey : String
  status : IncidentStatus
  opened : Event T D
  resolved : Option (Event T D)

variable [LinearOrder T]

/-- `order by occurred_at,sequence` -/
def Event.Earlier (first second : Event T D) : Prop :=
  first.occurredAt < second.occurredAt ∨
    (first.occurredAt = second.occurredAt ∧ first.sequence ≤ second.sequence)

instance : DecidableRel (Event.Earlier : Event T D → Event T D → Prop) := fun first second =>
  inferInstanceAs (Decidable (first.occurredAt < second.occurredAt ∨
    (first.occurredAt = second.occurredAt ∧ first.sequence ≤ second.sequence)))

def inOrder (events : List (Event T D)) : List (Event T D) := events.insertionSort Event.Earlier

namespace Platform

variable (rt : Platform F T D)

def newestFirst (incidents : List (String × Incident T D)) : List (Incident T D) :=
  (incidents.insertionSort fun first second => second.1 ≤ first.1).map Prod.snd

def stamped : List (Incident T D) → Result (List (String × Incident T D))
  | [] => .ok []
  | incident :: rest =>
    match incident.opened with
    | none => stamped rest
    | some event => do
      let time ← rt.iso event.occurredAt
      let others ← stamped rest
      .ok ((time, incident) :: others)

/-- `correlate`, of which only what it raises matters here. -/
def correlate : List (Incident T D) → Result Unit
  | [] => .ok ()
  | incident :: rest => do
    let _ ← rt.validateIncidentKey (.str incident.incidentKey)
    correlate rest

def relevant (limit : Nat) (incidents : List (Incident T D)) : List (Incident T D) :=
  let current := incidents.filter fun incident => incident.status = .opened
  current ++ (incidents.filter fun incident => incident.status ≠ .opened).take (limit - current.length)

def status (limit : Value F) (db : Db T D) : Result (Report T D) := do
  let limit ← rt.int (rt.orElse limit (.int rt.statusEventLimit))
  let limit := (max 1 (min limit 1000)).toNat
  let rows := inOrder (db.events.filter fun event => event.incidentKey.isSome)
  let incidents ← rt.stamped (rows.foldl track [])
  let relevant := relevant limit (newestFirst incidents)
  rt.correlate relevant
  .ok ⟨relevant.filter fun incident => incident.status = .opened, relevant.take limit⟩

def capsule (key : Value F) (db : Db T D) : Result (Capsule T D) := do
  let key ← rt.validateIncidentKey key
  let rows := inOrder (db.events.filter fun event => event.incidentKey = some key)
  if rows = [] then valueError "change-intelligence incident does not exist"
  else
    match rows.reverse.find? fun event => event.kind = .incidentOpen with
    | none => valueError "change-intelligence incident has no open event"
    | some opened =>
      let resolved := rows.reverse.find? fun event =>
        event.kind = .incidentResolved ∧ opened.occurredAt ≤ event.occurredAt
      .ok ⟨key, if resolved.isSome then .resolved else .opened, opened, resolved⟩

end Platform

end Dash.Intelligence

namespace Dash.Intelligence

open Dash.Python Dash.Foundation List

variable {F T D : Type}

def about (key : String) (events : List (Event T D)) : List (Event T D) :=
  events.filter fun event => event.incidentKey = some key

def summary (key : String) (events : List (Event T D)) : Incident T D :=
  (about key events).foldl Incident.note ⟨key, none, none⟩

@[simp] theorem note_key (incident : Incident T D) (event : Event T D) :
    (incident.note event).incidentKey = incident.incidentKey := by
  unfold Incident.note
  split <;> rfl

theorem summary_snoc (key : String) (events : List (Event T D)) (event : Event T D) : summary key (events ++ [event]) =
      if event.incidentKey = some key then (summary key events).note event
      else summary key events := by
  rw [summary, about, filter_append]
  by_cases same : event.incidentKey = some key <;> simp [same, summary, about]

@[simp] theorem summary_key (key : String) (events : List (Event T D)) : (summary key events).incidentKey = key := by
  induction events using List.reverseRecOn with
  | nil => rfl
  | append_singleton events event ih =>
    rw [summary_snoc]
    split
    · rw [note_key, ih]
    · exact ih

structure Tracked (rows : List (Event T D)) (incidents : List (Incident T D)) : Prop where
  distinct : (incidents.map Incident.incidentKey).Nodup
  summed : ∀ incident ∈ incidents, incident = summary incident.incidentKey rows
  known : ∀ event ∈ rows, ∀ key, event.incidentKey = some key → key ∈ incidents.map Incident.incidentKey
  heard : ∀ incident ∈ incidents, ∃ event ∈ rows, event.incidentKey = some incident.incidentKey

variable {event : Event T D} {key : String}

theorem track_keys {incidents : List (Incident T D)}
    (named : event.incidentKey = some key) (present : key ∈ incidents.map Incident.incidentKey) :
    track incidents event = incidents.map fun incident =>
      if incident.incidentKey = key then incident.note event else incident := by
  have any : incidents.any (fun incident => incident.incidentKey = key) = true := by
    obtain ⟨incident, member, same⟩ := mem_map.mp present
    exact any_eq_true.mpr ⟨incident, member, by simpa using same⟩
  simp [track, named, any]

theorem track_new {incidents : List (Incident T D)}
    (named : event.incidentKey = some key) (absent : key ∉ incidents.map Incident.incidentKey) :
    track incidents event = incidents ++ [(⟨key, none, none⟩ : Incident T D).note event] := by
  have any : incidents.any (fun incident => incident.incidentKey = key) = false := by
    rw [any_eq_false]
    intro incident member same
    exact absent (of_decide_eq_true same ▸ mem_map_of_mem member)
  simp [track, named, any]

theorem summary_absent {rows : List (Event T D)} (absent : ∀ event ∈ rows, event.incidentKey ≠ some key) :
    summary key rows = ⟨key, none, none⟩ := by
  rw [summary, about, filter_eq_nil_iff.mpr]
  · rfl
  · exact fun event member => by simpa using absent event member

theorem tracked (rows : List (Event T D)) : Tracked rows (rows.foldl track []) := by
  induction rows using List.reverseRecOn with
  | nil => exact {
      distinct := nodup_nil
      summed := fun _ member => (not_mem_nil member).elim
      known := fun _ member => (not_mem_nil member).elim
      heard := fun _ member => (not_mem_nil member).elim }
  | append_singleton rows event ih =>
    rw [foldl_append, foldl_cons, foldl_nil]
    cases named : event.incidentKey with
    | none =>
      have same : track (rows.foldl track []) event = rows.foldl track [] := by
        simp only [track, named]
      rw [same]
      refine ⟨ih.distinct, fun incident member => ?_, fun other member key otherKey => ?_, fun incident member => ?_⟩
      · rw [summary_snoc, named, if_neg (by simp)]
        exact ih.summed incident member
      · rcases mem_append.mp member with before | last
        · exact ih.known other before key otherKey
        · rw [mem_singleton.mp last, named] at otherKey
          cases otherKey
      · obtain ⟨other, present, found⟩ := ih.heard incident member
        exact ⟨other, mem_append_left _ present, found⟩
    | some key =>
      by_cases present : key ∈ (rows.foldl track []).map Incident.incidentKey
      · -- the key is known: its incident notes the event, the others stay
        rw [track_keys named present]
        have keys : ((rows.foldl track []).map fun incident =>
            if incident.incidentKey = key then incident.note event else incident).map
              Incident.incidentKey = (rows.foldl track []).map Incident.incidentKey := by
          rw [map_map]
          refine map_congr_left fun incident _ => ?_
          simp only [Function.comp]
          split <;> simp
        refine ⟨keys ▸ ih.distinct, fun incident member => ?_, fun other member otherKey found => ?_,
          fun incident member => ?_⟩
        · obtain ⟨old, oldMember, rfl⟩ := mem_map.mp member
          have summed := ih.summed old oldMember
          split
          · next same =>
            rw [note_key, summary_snoc, if_pos (same ▸ named), ← summed]
          · next other =>
            rw [summary_snoc, if_neg (by simpa [named] using Ne.symm other), ← summed]
        · rw [keys]
          rcases mem_append.mp member with before | last
          · exact ih.known other before otherKey found
          · rw [mem_singleton.mp last, named] at found
            exact Option.some.inj found ▸ present
        · obtain ⟨old, oldMember, rfl⟩ := mem_map.mp member
          obtain ⟨other, otherMember, found⟩ := ih.heard old oldMember
          refine ⟨other, mem_append_left _ otherMember, ?_⟩
          split
          · rw [note_key, found]
          · exact found
      · -- no event before has the key
        rw [track_new named present]
        have unheard : ∀ other ∈ rows, other.incidentKey ≠ some key := fun other member found =>
          present (ih.known other member key found)
        refine ⟨?_, fun incident member => ?_, fun other member otherKey found => ?_, fun incident member => ?_⟩
        · apply Table.insert_keys ih.distinct
          rw [note_key]
          exact present
        · rcases mem_append.mp member with before | last
          · have apart : incident.incidentKey ≠ key := fun same =>
              present (same ▸ mem_map_of_mem before)
            rw [summary_snoc, if_neg (by simpa [named] using Ne.symm apart)]
            exact ih.summed incident before
          · rw [mem_singleton.mp last, note_key, summary_snoc, if_pos named, summary_absent unheard]
        · rw [map_append, map_singleton, note_key]
          rcases mem_append.mp member with before | last
          · exact mem_append_left _ (ih.known other before otherKey found)
          · rw [mem_singleton.mp last, named] at found
            exact Option.some.inj found ▸ mem_append_right _ mem_cons_self
        · rcases mem_append.mp member with before | last
          · obtain ⟨other, otherMember, found⟩ := ih.heard incident before
            exact ⟨other, mem_append_left _ otherMember, found⟩
          · rw [mem_singleton.mp last, note_key]
            exact ⟨event, mem_append_right _ mem_cons_self, named⟩

variable [LinearOrder T]

def Event.Before (first second : Event T D) : Prop :=
  first.occurredAt < second.occurredAt ∨ (first.occurredAt = second.occurredAt ∧ first.sequence < second.sequence)

theorem Event.Before.asymm {first second : Event T D} (before : first.Before second) : ¬ second.Before first := by
  rintro (earlier | ⟨same, less⟩)
  · rcases before with later | ⟨same, -⟩
    · exact absurd earlier (not_lt_of_gt later)
    · exact absurd same (ne_of_gt earlier)
  · rcases before with later | ⟨-, more⟩
    · exact absurd same (ne_of_gt later)
    · exact absurd less (Nat.not_lt_of_gt more)

def Numbered (events : List (Event T D)) : Prop :=
  events.Pairwise fun first second => first.sequence < second.sequence

variable {events : List (Event T D)}

omit [LinearOrder T] in
theorem Numbered.sequences (numbered : Numbered events) : (events.map Event.sequence).Nodup := by
  rw [nodup_iff_pairwise_ne, pairwise_map]
  exact numbered.imp fun less => Nat.ne_of_lt less

instance : Std.Total (Event.Earlier : Event T D → Event T D → Prop) where
  total first second := by
    unfold Event.Earlier
    rcases lt_trichotomy first.occurredAt second.occurredAt with less | same | more
    · exact .inl (.inl less)
    · rcases Nat.le_total first.sequence second.sequence with le | ge
      · exact .inl (.inr ⟨same, le⟩)
      · exact .inr (.inr ⟨same.symm, ge⟩)
    · exact .inr (.inl more)

instance : IsTrans (Event T D) Event.Earlier where
  trans first second third one other := by
    unfold Event.Earlier at *
    rcases one with less | ⟨same, le⟩
    · rcases other with more | ⟨equal, -⟩
      · exact .inl (less.trans more)
      · exact .inl (equal ▸ less)
    · rcases other with more | ⟨equal, less⟩
      · exact .inl (same ▸ more)
      · exact .inr ⟨same.trans equal, le.trans less⟩

theorem inOrder_before (numbered : Numbered events) : (inOrder events).Pairwise Event.Before := by
  have sorted : (inOrder events).Pairwise Event.Earlier := pairwise_insertionSort _ events
  have perm := perm_insertionSort Event.Earlier events
  have apart : (inOrder events).Pairwise fun first second => first.sequence ≠ second.sequence := by
    rw [← pairwise_map (f := Event.sequence) (R := (· ≠ ·)), ← nodup_iff_pairwise_ne]
    exact (perm.map Event.sequence).nodup_iff.mpr numbered.sequences
  refine (sorted.and apart).imp fun both => ?_
  rcases both.1 with less | ⟨same, le⟩
  · exact .inl less
  · exact .inr ⟨same, Nat.lt_of_le_of_ne le both.2⟩

theorem Event.Before.trans {first second third : Event T D} (one : first.Before second)
    (other : second.Before third) : first.Before third := by
  rcases one with less | ⟨same, less⟩
  · rcases other with more | ⟨equal, -⟩
    · exact .inl (less.trans more)
    · exact .inl (equal ▸ less)
  · rcases other with more | ⟨equal, more⟩
    · exact .inl (same ▸ more)
    · exact .inr ⟨same.trans equal, less.trans more⟩

theorem inOrder_mem : event ∈ inOrder events ↔ event ∈ events :=
  (perm_insertionSort Event.Earlier events).mem_iff

/-- Sorting the events of one incident alone gives the same order. -/
theorem about_inOrder (numbered : Numbered events) (key : String) :
    about key (inOrder (events.filter fun event => event.incidentKey.isSome)) = inOrder (about key events) := by
  have filtered (condition : Event T D → Bool) : Numbered (events.filter condition) :=
    numbered.sublist filter_sublist
  have left : (about key (inOrder (events.filter fun event => event.incidentKey.isSome))).Pairwise
      Event.Before := (inOrder_before (filtered _)).sublist filter_sublist
  have right : (inOrder (about key events)).Pairwise Event.Before := inOrder_before (filtered _)
  apply @List.Perm.eq_of_pairwise _ Event.Before _ _ (fun _ _ _ _ one other => absurd other one.asymm) left right
  have same : about key (events.filter fun event => event.incidentKey.isSome) = about key events := by
    rw [about, about, filter_filter]
    refine filter_congr fun event _ => ?_
    by_cases named : event.incidentKey = some key <;> simp [named]
  have first := (perm_insertionSort Event.Earlier
    (events.filter fun event => event.incidentKey.isSome)).filter fun event =>
      event.incidentKey = some key
  rw [← about, ← about, same] at first
  exact first.trans (perm_insertionSort Event.Earlier (about key events)).symm

section Views

variable {key : String} {rows : List (Event T D)}

def Event.opens (event : Event T D) : Bool := event.kind = .incidentOpen

omit [LinearOrder T] in
/-- The fold names the last opening. -/
theorem summary_opened (key : String) (rows : List (Event T D)) :
    (summary key rows).opened = (about key rows).reverse.find? Event.opens := by
  induction rows using List.reverseRecOn with
  | nil => rfl
  | append_singleton rows event ih =>
    rw [summary_snoc, about, filter_append, ← about]
    by_cases named : event.incidentKey = some key
    · cases kind : event.kind <;> simp [named, Incident.note, kind, Event.opens, ih]
    · simp [named, ih]

theorem summary_resolved (sorted : rows.Pairwise Event.Before) : (summary key rows).resolved.isSome = true ↔
      ∃ event ∈ about key rows, event.kind = .incidentResolved ∧
        ∀ other ∈ about key rows, other.opens = true → other.Before event := by
  induction rows using List.reverseRecOn with
  | nil => simp [summary, about]
  | append_singleton rows event ih =>
    obtain ⟨before, -, last⟩ := pairwise_append.mp sorted
    rw [summary_snoc]
    by_cases named : event.incidentKey = some key
    · have listed : about key (rows ++ [event]) = about key rows ++ [event] := by
        simp [about, named]
      have earlier : ∀ other ∈ about key rows, other.Before event := fun other member =>
        last other (mem_filter.mp member).1 event mem_cons_self
      rw [if_pos named, listed]
      by_cases opens : event.kind = .incidentOpen
      · simp only [Incident.note, opens, Option.isSome_none, Bool.false_eq_true, false_iff]
        rintro ⟨found, member, resolved, after⟩
        have later := after event (mem_append_right _ mem_cons_self) (by simp [Event.opens, opens])
        rcases mem_append.mp member with old | same
        · exact later.asymm (earlier found old)
        · rw [mem_singleton.mp same, opens] at resolved
          cases resolved
      · have silent : event.opens = false := by simp [Event.opens, opens]
        by_cases resolves : event.kind = .incidentResolved
        · simp only [Incident.note, resolves, Option.isSome_some, true_iff]
          refine ⟨event, mem_append_right _ mem_cons_self, resolves, fun other member opened => ?_⟩
          rcases mem_append.mp member with old | same
          · exact earlier other old
          · rw [mem_singleton.mp same, silent] at opened
            cases opened
        · -- an event of another kind changes neither side
          have unchanged : (summary key rows).note event = summary key rows := by
            unfold Incident.note
            split <;> first | rfl | contradiction
          rw [unchanged, ih before]
          constructor
          · rintro ⟨found, member, resolved, after⟩
            refine ⟨found, mem_append_left _ member, resolved, fun other present opened => ?_⟩
            rcases mem_append.mp present with old | same
            · exact after other old opened
            · rw [mem_singleton.mp same, silent] at opened
              cases opened
          · rintro ⟨found, member, resolved, after⟩
            rcases mem_append.mp member with old | same
            · exact ⟨found, old, resolved, fun other present opened =>
                after other (mem_append_left _ present) opened⟩
            · exact absurd (mem_singleton.mp same ▸ resolved) resolves
    · have listed : about key (rows ++ [event]) = about key rows := by
        simp [about, named]
      rw [if_neg named, listed]
      exact ih before

end Views

end Dash.Intelligence
