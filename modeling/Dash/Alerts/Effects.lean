import Dash.Alerts.Store

/-! What the polls and acknowledgements of one alert say about it, and what they do to its row.

What is read off the whole history comes to the same as a machine that takes one sight after the other.
The two loops of a poll go over alerts with distinct fingerprints, so a poll takes every row one step.
-/

set_option autoImplicit false

namespace Dash.Alerts

inductive Seen where
  /-- A successful poll, with the state of the alert if it was in the response. -/
  | poll (state : Option Active)
  | acknowledge
  deriving DecidableEq, Repr

structure Sight (T : Type) where
  now : T
  what : Seen

structure Note (T : Type) where
  generation : Nat
  transition : Change
  state : State
  occurredAt : T

variable {T : Type}

def polls (history : List (Sight T)) : List (Option Active) :=
  history.filterMap fun sight => match sight.what with
    | .poll state => some state
    | .acknowledge => none

def current (history : List (Sight T)) : Option Active := (polls history).getLast?.join

def countRuns (polls : List (Option Active)) : Nat :=
  ((none :: polls).zip polls).countP fun pair => pair.1.isNone && pair.2.isSome

def runs (history : List (Sight T)) : Nat := countRuns (polls history)

def sinceAbsent (history : List (Sight T)) : List Seen :=
  (history.reverse.map Sight.what).takeWhile fun what => what ≠ .poll none

def latestRun (history : List (Sight T)) : List Seen :=
  ((history.reverse.map Sight.what).dropWhile fun what => what = .poll none).takeWhile fun what => what ≠ .poll none

/-- The transition a sight makes after the sights before it. -/
def change (before : List (Sight T)) (sight : Sight T) : Option (Note T) :=
  match sight.what, current before with
  | .poll (some state), none =>
    some ⟨runs before + 1, if runs before = 0 then .to state else .refiring, .active state, sight.now⟩
  | .poll (some state), some old =>
    if old = state then none else some ⟨runs before, .to state, .active state, sight.now⟩
  | .poll none, none => none
  | .poll none, some _ => some ⟨runs before, .resolved, .resolved, sight.now⟩
  | .acknowledge, none => none
  | .acknowledge, some state =>
    if .acknowledge ∈ latestRun before then none
    else some ⟨runs before, .acknowledged, .active state, sight.now⟩

def changes (past : List (Sight T)) : List (Sight T) → List (Note T)
  | [] => []
  | sight :: rest => (change past sight).toList ++ changes (past ++ [sight]) rest

theorem changes_append (past history : List (Sight T)) (sight : Sight T) : changes past (history ++ [sight]) =
      changes past history ++ (change (past ++ history) sight).toList := by
  induction history generalizing past with
  | nil => simp [changes]
  | cons first rest ih => simp [changes, ih]

theorem countRuns_append (polls : List (Option Active)) (state : Option Active) : countRuns (polls ++ [state]) =
      countRuns polls + if polls.getLast?.join = none ∧ state ≠ none then 1 else 0 := by
  have shape : ∀ first : Option Active, (first :: (polls ++ [state])).zip (polls ++ [state]) =
      (first :: polls).zip polls ++ [((first :: polls).getLast (by simp), state)] := by
    induction polls with
    | nil => simp
    | cons poll rest ih =>
      intro first
      simp_all
  rw [countRuns, shape, List.countP_append, ← countRuns]
  congr 1
  have last : (none :: polls).getLast (by simp) = polls.getLast?.join := by
    cases polls with
    | nil => rfl
    | cons poll rest => simp [List.getLast?_eq_getLast_of_ne_nil]
  rw [List.countP_singleton, last]
  cases polls.getLast?.join <;> cases state <;> simp

section

variable (history : List (Sight T)) (now : T)

@[simp] theorem current_poll (state : Option Active) : current (history ++ [⟨now, .poll state⟩]) = state := by
  simp [current, polls]

@[simp] theorem current_acknowledge : current (history ++ [⟨now, .acknowledge⟩]) = current history := by
  simp [current, polls]

theorem runs_poll (state : Option Active) : runs (history ++ [⟨now, .poll state⟩]) =
      runs history + if current history = none ∧ state ≠ none then 1 else 0 := by
  simp [runs, polls, current, countRuns_append]

@[simp] theorem runs_acknowledge : runs (history ++ [⟨now, .acknowledge⟩]) = runs history := by
  simp [runs, polls]

@[simp] theorem sinceAbsent_acknowledge :
    sinceAbsent (history ++ [⟨now, .acknowledge⟩]) = .acknowledge :: sinceAbsent history := by
  simp [sinceAbsent]

@[simp] theorem sinceAbsent_present (state : Active) : sinceAbsent (history ++ [⟨now, .poll (some state)⟩]) =
      .poll (some state) :: sinceAbsent history := by
  simp [sinceAbsent]

@[simp] theorem sinceAbsent_absent : sinceAbsent (history ++ [⟨now, .poll none⟩]) = [] := by
  simp [sinceAbsent]

@[simp] theorem latestRun_absent : latestRun (history ++ [⟨now, .poll none⟩]) = latestRun history := by
  simp [latestRun]

theorem latestRun_current (present : current history ≠ none) : latestRun history = sinceAbsent history := by
  induction history using List.reverseRecOn with
  | nil => exact absurd rfl present
  | append_singleton history sight _ =>
    obtain ⟨now, what⟩ := sight
    cases what with
    | acknowledge => simp [latestRun, sinceAbsent]
    | poll state =>
      cases state with
      | none => exact absurd (current_poll history now none) present
      | some state => simp [latestRun, sinceAbsent]

end

structure Life where
  state : State
  (generation occurrences : Nat)
  acknowledged : Bool

/-- The life of an alert after a sight, with the transition it makes. -/
def Life.step (life : Option Life) (sight : Sight T) : Option Life × List (Note T) :=
  match sight.what, life with
  | .poll (some state), none => (some ⟨.active state, 1, 1, false⟩,
      [⟨1, .to state, .active state, sight.now⟩])
  | .poll (some state), some life =>
    match life.state with
    | .resolved => (some ⟨.active state, life.generation + 1, life.occurrences + 1, false⟩,
        [⟨life.generation + 1, .refiring, .active state, sight.now⟩])
    | .active old => (some { life with state := .active state },
        if old = state then [] else [⟨life.generation, .to state, .active state, sight.now⟩])
  | .poll none, some life =>
    match life.state with
    | .resolved => (some life, [])
    | .active _ => (some { life with state := .resolved },
        [⟨life.generation, .resolved, .resolved, sight.now⟩])
  | .poll none, none => (none, [])
  | .acknowledge, none => (none, [])
  | .acknowledge, some life => (some { life with acknowledged := true },
      if life.acknowledged then [] else [⟨life.generation, .acknowledged, life.state, sight.now⟩])

inductive Lives : List (Sight T) → Option Life → List (Note T) → Prop where
  | start : Lives [] none []
  | step {history : List (Sight T)} {life : Option Life} {notes : List (Note T)}
      (past : Lives history life notes) (sight : Sight T)
      (allowed : sight.what = .acknowledge → ∃ known state, life = some known ∧ known.state = .active state) :
      Lives (history ++ [sight]) (Life.step life sight).1 (notes ++ (Life.step life sight).2)

structure Told (history : List (Sight T)) (life : Option Life) : Prop where
  unknown : life = none → runs history = 0 ∧ current history = none
  state : ∀ known, life = some known → known.state = match current history with
      | some state => .active state
      | none => .resolved
  counted : ∀ known, life = some known →
    known.generation = runs history ∧ known.occurrences = runs history ∧ runs history ≠ 0
  acknowledged : ∀ known, life = some known → (known.acknowledged = true ↔ .acknowledge ∈ latestRun history)
  /-- Nothing is acknowledged after the last poll without the alert. -/
  quiet : current history = none → .acknowledge ∉ sinceAbsent history

namespace Told

variable {history : List (Sight T)} {life : Option Life}

theorem start : Told ([] : List (Sight T)) none where
  unknown _ := ⟨rfl, rfl⟩
  state _ impossible := nomatch impossible
  counted _ impossible := nomatch impossible
  acknowledged _ impossible := nomatch impossible
  quiet _ := by simp [sinceAbsent]

theorem resolved {known : Life} (told : Told history (some known)) :
    known.state = .resolved ↔ current history = none := by
  rw [told.state known rfl]
  cases current history <;> simp

theorem active {known : Life} {state : Active} (told : Told history (some known)) :
    known.state = .active state ↔ current history = some state := by
  rw [told.state known rfl]
  cases current history <;> simp

/-- A poll with the alert starts a run or goes on with one. -/
theorem present (told : Told history life) (now : T) (state : Active) :
    Told (history ++ [⟨now, .poll (some state)⟩]) (Life.step life ⟨now, .poll (some state)⟩).1 := by
  have shown : current (history ++ [⟨now, .poll (some state)⟩]) = some state := current_poll ..
  have since := latestRun_current (history ++ [⟨now, .poll (some state)⟩]) (by simp [shown])
  rw [sinceAbsent_present] at since
  cases life with
  | none =>
    obtain ⟨zero, absent⟩ := told.unknown rfl
    have quiet := told.quiet absent
    constructor <;> simp_all [Life.step, runs_poll]
  | some known =>
    obtain ⟨generation, occurrences, some⟩ := told.counted known rfl
    cases stated : known.state with
    | resolved =>
      have absent := told.resolved.mp stated
      have quiet := told.quiet absent
      constructor <;> simp_all [Life.step, runs_poll]
    | active old =>
      have before := told.active.mp stated
      have run := latestRun_current history (by simp [before])
      have acknowledged := told.acknowledged known rfl
      constructor <;> simp_all [Life.step, runs_poll]

theorem absent (told : Told history life) (now : T) :
    Told (history ++ [⟨now, .poll none⟩]) (Life.step life ⟨now, .poll none⟩).1 := by
  cases life with
  | none =>
    obtain ⟨zero, absent⟩ := told.unknown rfl
    constructor <;> simp_all [Life.step, runs_poll]
  | some known =>
    obtain ⟨generation, occurrences, some⟩ := told.counted known rfl
    have acknowledged := told.acknowledged known rfl
    cases stated : known.state with
    | resolved => constructor <;> simp_all [Life.step, runs_poll]
    | active old => constructor <;> simp_all [Life.step, runs_poll]

theorem acknowledge {known : Life} {state : Active} (told : Told history (some known))
    (stated : known.state = .active state) (now : T) :
    Told (history ++ [⟨now, .acknowledge⟩]) (Life.step (some known) ⟨now, .acknowledge⟩).1 := by
  obtain ⟨generation, occurrences, some⟩ := told.counted known rfl
  have present := told.active.mp stated
  have since := latestRun_current (history ++ [⟨now, .acknowledge⟩]) (by simp [present])
  constructor <;> simp_all [Life.step]

end Told

namespace Lives

variable {history : List (Sight T)} {life : Option Life} {notes : List (Note T)}

theorem told (lives : Lives history life notes) : Told history life := by
  induction lives with
  | start => exact .start
  | @step history life notes past sight allowed ih =>
    obtain ⟨now, what⟩ := sight
    cases what with
    | acknowledge =>
      obtain ⟨known, state, rfl, stated⟩ := allowed rfl
      exact ih.acknowledge stated now
    | poll state =>
      cases state with
      | none => exact ih.absent now
      | some state => exact ih.present now state

theorem step_notes (told : Told history life) (sight : Sight T)
    (allowed : sight.what = .acknowledge → ∃ known state, life = some known ∧ known.state = .active state) :
    (Life.step life sight).2 = (change history sight).toList := by
  obtain ⟨now, what⟩ := sight
  cases what with
  | acknowledge =>
    obtain ⟨known, state, rfl, stated⟩ := allowed rfl
    have present := told.active.mp stated
    have acknowledged := told.acknowledged known rfl
    have counted := told.counted known rfl
    by_cases done : known.acknowledged = true <;> simp_all [Life.step, change]
  | poll state =>
    cases life with
    | none =>
      obtain ⟨zero, absent⟩ := told.unknown rfl
      cases state <;> simp [Life.step, change, zero, absent]
    | some known =>
      have counted := told.counted known rfl
      cases stated : known.state with
      | resolved =>
        have absent := told.resolved.mp stated
        cases state <;> simp_all [Life.step, change]
      | active old =>
        have present := told.active.mp stated
        cases state with
        | none => simp_all [Life.step, change]
        | some state => by_cases same : old = state <;> simp_all [Life.step, change]

theorem notes_eq (lives : Lives history life notes) : notes = changes [] history := by
  induction lives with
  | start => rfl
  | step past sight allowed ih =>
    rw [changes_append, ← ih, List.nil_append, step_notes past.told sight allowed]

end Lives

open Dash.Python Dash.Foundation
open Foundation.Transaction (bind_ok lift_ok pure_ok read_bind write_bind write_ok)

variable {F T : Type}

def Row.life (row : Row T) : Life :=
  ⟨row.state, row.generation, row.occurrences, row.acknowledgedAt.isSome⟩

def Db.life? (db : Db T) (fingerprint : String) : Option Life :=
  (db.alert? fingerprint).map Row.life

def Transition.toNote (row : Transition T) : Note T :=
  ⟨row.generation, row.transition, row.state, row.occurredAt⟩

def notesOf (fingerprint : String) (rows : List (Transition T)) : List (Note T) :=
  (rows.filter fun row => row.fingerprint = fingerprint).map Transition.toNote

@[simp] theorem notesOf_nil (fingerprint : String) : notesOf fingerprint ([] : List (Transition T)) = [] := rfl

@[simp] theorem notesOf_append (fingerprint : String) (first second : List (Transition T)) :
    notesOf fingerprint (first ++ second) = notesOf fingerprint first ++ notesOf fingerprint second := by
  simp [notesOf]

def stateOf (fingerprint : String) (alerts : List (Alert T)) : Option Active :=
  (alerts.find? fun alert => alert.fingerprint = fingerprint).map Alert.state

/-- One row to a fingerprint, and rows were resolved at these times only. -/
structure Sound (times : List T) (db : Db T) : Prop where
  distinct : (db.alerts.map Row.fingerprint).Nodup
  dated : ∀ row ∈ db.alerts, ∀ time, row.resolvedAt = some time → time ∈ times

theorem Sound.mono {times more : List T} {db : Db T} (sound : Sound times db)
    (wider : ∀ time ∈ times, time ∈ more) : Sound more db :=
  ⟨sound.distinct, fun row member time dated => wider time (sound.dated row member time dated)⟩

structure Touches (times : List T) (fingerprint : String) (db after : Db T)
    (made : List (Transition T)) : Prop where
  sound : Sound times db → Sound times after
  others : ∀ other, other ≠ fingerprint → after.alert? other = db.alert? other ∧ notesOf other made = []

/-- A loop over distinct fingerprints runs one round for each, on the row as it was. -/
theorem each_touches {α : Type} {times : List T} (key : α → String)
    (body : α → Transaction (Db T) Exception (List (Transition T)))
    (round : ∀ item db made after, Sound times db → body item db = .ok (made, after) →
      Touches times (key item) db after made) :
    ∀ {items : List α} {db after : Db T} {lists : List (List (Transition T))}, (items.map key).Nodup → Sound times db →
      Transaction.each body items db = .ok (lists, after) →
      Sound times after ∧
      (∀ other ∉ items.map key, after.alert? other = db.alert? other ∧ notesOf other lists.flatten = []) ∧
      ∀ item ∈ items, ∃ start finish made, Sound times start ∧ body item start = .ok (made, finish) ∧
        start.alert? (key item) = db.alert? (key item) ∧
        after.alert? (key item) = finish.alert? (key item) ∧
        notesOf (key item) lists.flatten = notesOf (key item) made := by
  intro items
  induction items with
  | nil =>
    intro db after lists _ sound done
    simp only [Transaction.each, pure_ok, Prod.mk.injEq] at done
    obtain ⟨rfl, rfl⟩ := done
    exact ⟨sound, fun _ _ => ⟨rfl, rfl⟩, fun _ impossible => by cases impossible⟩
  | cons item rest ih =>
    intro db after lists distinct sound done
    obtain ⟨fresh, distinct⟩ := List.nodup_cons.mp distinct
    simp only [Transaction.each, bind_ok, pure_ok, Prod.mk.injEq] at done
    obtain ⟨made, middle, first, others, last, loop, rfl, rfl⟩ := done
    have touched := round item db made middle sound first
    obtain ⟨final, untouched, rounds⟩ := ih distinct (touched.sound sound) loop
    refine ⟨final, ?_, ?_⟩
    · intro other absent
      simp only [List.map_cons, List.mem_cons, not_or] at absent
      obtain ⟨kept, quiet⟩ := untouched other absent.2
      obtain ⟨before, silent⟩ := touched.others other absent.1
      exact ⟨kept.trans before, by simp [quiet, silent]⟩
    · intro chosen member
      rcases List.mem_cons.mp member with rfl | later
      · obtain ⟨kept, quiet⟩ := untouched (key chosen) fresh
        exact ⟨db, middle, made, sound, first, rfl, kept, by simp [quiet]⟩
      · obtain ⟨start, finish, own, good, ran, before, end_, notes⟩ := rounds chosen later
        have apart : key chosen ≠ key item := fun same =>
          fresh (same ▸ List.mem_map_of_mem later)
        obtain ⟨kept, silent⟩ := touched.others (key chosen) apart
        exact ⟨start, finish, own, good, ran, before.trans kept, end_, by simp [silent, notes]⟩

variable {db after : Db T}

theorem alert_upsert {row : Row T} (done : Platform.upsert row db = .ok ((), after)) (fingerprint : String) :
    after.alert? fingerprint =
      if fingerprint = row.fingerprint then some row else db.alert? fingerprint := by
  simp only [Platform.upsert, write_ok, Prod.mk.injEq, true_and] at done
  subst done
  exact Table.find_upsert row db.alerts fingerprint

theorem alert_update {target : String} {change : Row T → Row T}
    (same : after.alerts = update Row.fingerprint target change db.alerts)
    (kept : ∀ row, (change row).fingerprint = row.fingerprint) :
    after.alerts.map Row.fingerprint = db.alerts.map Row.fingerprint ∧ ∀ fingerprint, after.alert? fingerprint =
        if fingerprint = target then (db.alert? fingerprint).map change
        else db.alert? fingerprint := by
  constructor
  · rw [same, Table.update_keys kept]
  · intro fingerprint
    rw [Db.alert?, same]
    exact Table.find_update (fun row hit => (kept row).trans hit) fingerprint

theorem upsert_sound {times : List T} {row : Row T} (sound : Sound times db)
    (active : row.resolvedAt = none) (done : Platform.upsert row db = .ok ((), after)) :
    Sound times after := by
  simp only [Platform.upsert, write_ok, Prod.mk.injEq, true_and] at done
  subst done
  refine ⟨Table.upsert_keys sound.distinct, fun old member time dated => ?_⟩
  rcases Table.mem_upsert member with rfl | kept
  · exact absurd (active.symm.trans dated) (by simp)
  · exact sound.dated old kept time dated

namespace Platform

variable [LinearOrder T] (rt : Platform F T)

variable {db after : Db T}

theorem transition_effect {alert : Subject} {change : Change} {occurredAt : T}
    {actor note : Option String} {row : Transition T}
    (done : rt.transition alert change occurredAt actor note db = .ok (row, after)) :
    after.alerts = db.alerts ∧ after.metadata = db.metadata ∧ row.fingerprint = alert.fingerprint ∧
      row.toNote = ⟨alert.generation, change, alert.state, occurredAt⟩ := by
  simp only [transition, read_bind, write_bind, bind_ok, lift_ok, pure_ok, Prod.mk.injEq] at done
  obtain ⟨_, _, ⟨_, rfl⟩, rfl, rfl⟩ := done
  exact ⟨rfl, rfl, rfl, rfl⟩

/-- A round over the response takes the row of its alert one step. -/
theorem observe_effect {existing : List (Row T)} {times : List T} {now : T} {alert : Alert T}
    {made : List (Transition T)}
    (done : rt.observe existing now alert db = .ok (made, after)) :
    Touches times alert.fingerprint db after made ∧ (after.life? alert.fingerprint, notesOf alert.fingerprint made) =
        Life.step ((existing.find? fun row => row.fingerprint = alert.fingerprint).map Row.life)
          ⟨now, .poll (some alert.state)⟩ := by
  simp only [observe, bind_ok, lift_ok] at done
  obtain ⟨labelsJson, _, ⟨_, rfl⟩, annotationsJson, _, ⟨_, rfl⟩, _, middle, wrote, rest⟩ := done
  generalize priorIs : (existing.find? fun row => row.fingerprint = alert.fingerprint) = prior
    at wrote rest ⊢
  have named : (next prior alert labelsJson annotationsJson now).1.fingerprint = alert.fingerprint := by
    cases prior with
    | none => rfl
    | some old => by_cases ended : old.state = .resolved <;> simp [next, ended]
  have active : (next prior alert labelsJson annotationsJson now).1.resolvedAt = none := by
    cases prior with
    | none => rfl
    | some old => by_cases ended : old.state = .resolved <;> simp [next, ended]
  have rows := alert_upsert wrote
  rw [named] at rows
  -- what a written transition adds to the row it is about
  have finish : after.alerts = middle.alerts ∧ (∀ other, other ≠ alert.fingerprint → notesOf other made = []) ∧
      notesOf alert.fingerprint made = ((next prior alert labelsJson annotationsJson now).2.map fun change =>
        ⟨(next prior alert labelsJson annotationsJson now).1.generation, change, .active alert.state, now⟩).toList := by
    cases turn : (next prior alert labelsJson annotationsJson now).2 with
    | none =>
      simp only [turn] at rest
      simp only [pure_ok, Prod.mk.injEq] at rest
      obtain ⟨rfl, rfl⟩ := rest
      exact ⟨rfl, fun _ _ => rfl, rfl⟩
    | some change =>
      simp only [turn, bind_ok, pure_ok, Prod.mk.injEq] at rest
      obtain ⟨row, final, wrote, rfl, rfl⟩ := rest
      obtain ⟨kept, _, about, note⟩ := rt.transition_effect wrote
      refine ⟨kept, fun other apart => ?_, ?_⟩
      · simp [notesOf, about, Ne.symm apart]
      · simp [notesOf, about, note]
  obtain ⟨kept, others, own⟩ := finish
  refine ⟨⟨fun sound => ?_, fun other apart => ⟨?_, others other apart⟩⟩, ?_⟩
  · have good := upsert_sound sound active wrote
    exact ⟨kept ▸ good.distinct, kept ▸ good.dated⟩
  · rw [Db.alert?, kept]
    exact (rows other).trans (if_neg apart)
  · have found : after.alert? alert.fingerprint = some (next prior alert labelsJson annotationsJson now).1 := by
      rw [Db.alert?, kept]
      exact (rows alert.fingerprint).trans (if_pos rfl)
    rw [Db.life?, found, own]
    cases prior with
    | none => rfl
    | some old =>
      cases stated : old.state with
      | resolved => simp [next, Life.step, Row.life, stated]
      | active state =>
        by_cases same : state = alert.state <;> simp [next, Life.step, Row.life, stated, same]

/-- A round over the rows resolves one that the response does not have. -/
theorem resolve_effect {incoming : List (Alert T)} {times : List T} {now : T} {prior : Row T}
    {made : List (Transition T)} (member : now ∈ times)
    (done : rt.resolve incoming now prior db = .ok (made, after)) :
    Touches times prior.fingerprint db after made ∧ (prior.fingerprint ∈ incoming.map Alert.fingerprint →
        after.alert? prior.fingerprint = db.alert? prior.fingerprint ∧ notesOf prior.fingerprint made = []) ∧
      (prior.fingerprint ∉ incoming.map Alert.fingerprint → db.alert? prior.fingerprint = some prior →
        (after.life? prior.fingerprint, notesOf prior.fingerprint made) =
          Life.step (some prior.life) ⟨now, .poll none⟩) := by
  rw [resolve] at done
  split at done
  next skipped =>
    simp only [pure_ok, Prod.mk.injEq] at done
    obtain ⟨rfl, rfl⟩ := done
    refine ⟨⟨id, fun _ _ => ⟨rfl, rfl⟩⟩, fun _ => ⟨rfl, rfl⟩, fun absent found => ?_⟩
    have ended := skipped.resolve_left absent
    simp [Db.life?, found, Life.step, Row.life, ended]
  next goes =>
    rw [not_or] at goes
    simp only [write_bind, bind_ok, pure_ok, Prod.mk.injEq] at done
    obtain ⟨row, final, wrote, rfl, rfl⟩ := done
    obtain ⟨kept, _, about, note⟩ := rt.transition_effect wrote
    dsimp only at kept
    obtain ⟨keys, rows⟩ := alert_update kept fun _ => rfl
    refine ⟨⟨fun sound => ?_, fun other apart => ⟨?_, ?_⟩⟩, fun present => absurd present goes.1, fun _ found => ?_⟩
    · constructor
      · exact keys ▸ sound.distinct
      · intro old present time dated
        rw [kept] at present
        rcases Table.mem_update.mp present with ⟨_, _, _, rfl⟩ | ⟨same, _⟩
        · cases dated
          exact member
        · exact sound.dated old same time dated
    · exact (rows other).trans (if_neg apart)
    · simp [notesOf, about, Ne.symm apart]
    · have ended : final.alert? prior.fingerprint =
          some { prior with state := .resolved, resolvedAt := some now, lastSeen := now } := by
        rw [rows, if_pos rfl, found]
        rfl
      rw [Db.life?, ended]
      cases stated : prior.state with
      | resolved => exact absurd stated goes.2
      | active state => simp [notesOf, about, note, Life.step, Row.life, stated]

end Platform

end Dash.Alerts
