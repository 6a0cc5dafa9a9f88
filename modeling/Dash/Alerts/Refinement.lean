import Dash.Alerts.Effects
import Dash.Python.Plain

/-! The inbox tells of every alert what the history of the polls tells. -/

set_option autoImplicit false

namespace Dash.Alerts

open Dash.Python Dash.Foundation List
open Foundation.Transaction (bind_ok check_bind lift_ok pure_ok read_bind write_bind write_ok)

variable {F T : Type}

inductive Call (F T : Type) where
  | sync (response : Value F) (now : T)
  | recordPollError (error : Value F) (now : T)
  | acknowledge (fingerprint actor note : Value F) (now : T)

def Call.now : Call F T → T
  | .sync _ now => now
  | .recordPollError _ now => now
  | .acknowledge _ _ _ now => now

inductive Happening (T : Type) where
  /-- A successful `sync`, with the alerts of its response. -/
  | polled (now : T) (alerts : List (String × Active))
  /-- A call that raised, or `record_poll_error`. -/
  | failed
  /-- A successful `acknowledge`. -/
  | acknowledged (now : T) (fingerprint : String)

def Happening.sight (fingerprint : String) : Happening T → Option (Sight T)
  | .polled now alerts => some ⟨now, .poll (alerts.lookup fingerprint)⟩
  | .failed => none
  | .acknowledged now other => if other = fingerprint then some ⟨now, .acknowledge⟩ else none

def sights (fingerprint : String) (history : List (Happening T)) : List (Sight T) :=
  history.filterMap (Happening.sight fingerprint)

def lastPoll (history : List (Happening T)) : Option (List (String × Active)) :=
  history.reverse.findSome? fun happening => match happening with
    | .polled _ alerts => some alerts
    | _ => none

/-- A database with everything that happened to it and the transitions that were emitted. -/
structure Run (T : Type) where
  db : Db T
  history : List (Happening T)
  emitted : List (Transition T)

namespace Platform

variable [LinearOrder T] (rt : Platform F T)

def shown (response : Value F) : List (String × Active) :=
  match rt.incoming response with
  | .ok alerts => alerts.map fun alert => (alert.fingerprint, alert.state)
  | .error _ => []

def perform (run : Run T) : Call F T → Run T
  | .sync response now =>
    match rt.sync response now run.db with
    | .ok (result, after) => ⟨after, run.history ++ [.polled now (rt.shown response)],
        run.emitted ++ result.transitions⟩
    | .error _ => { run with history := run.history ++ [.failed] }
  | .recordPollError error now =>
    { run with
      db := (rt.recordPollError error now).commit run.db
      history := run.history ++ [.failed] }
  | .acknowledge fingerprint actor note now =>
    match rt.acknowledge fingerprint actor note now run.db with
    | .ok (made, after) => ⟨after, run.history ++ [.acknowledged now (rt.wanted fingerprint)],
        run.emitted ++ made.toList⟩
    | .error _ => { run with history := run.history ++ [.failed] }

def run (calls : List (Call F T)) : Run T := calls.foldl rt.perform ⟨Db.initial, [], []⟩

/-- Times do not decrease, and no call comes after the retention period of an earlier one. -/
def Timely (calls : List (Call F T)) : Prop :=
  calls.Pairwise fun earlier later => earlier.now ≤ later.now ∧ rt.cutoff later.now ≤ earlier.now

variable {response : Value F}

theorem incoming_read {alerts : List (Alert T)} (done : rt.incoming response = .ok alerts) :
    (∃ rows, rt.normalizeAlerts rows = .ok alerts) ∧ (alerts.map Alert.fingerprint).Nodup := by
  unfold incoming at done
  extract_lets success at done
  rw [result_refuse] at done
  obtain ⟨_, done⟩ := done
  split at done
  next rows _ =>
    rw [result_refuse] at done
    obtain ⟨normalized, each, done⟩ := result_bind.mp done.2
    split at done
    next distinct =>
      cases done
      exact ⟨⟨rows, each⟩, distinct⟩
    next => cases done
  next => cases done

variable {db after : Db T} {times : List T} {now : T}

theorem prune_alerts (sound : Sound times db)
    (recent : ∀ time ∈ times, rt.cutoff now ≤ time) (done : rt.prune now db = .ok ((), after)) :
    after.alerts = db.alerts := by
  simp only [prune, write_ok, Prod.mk.injEq, true_and] at done
  subst done
  refine filter_eq_self.mpr fun row member => ?_
  cases dated : row.resolvedAt with
  | none => simp [expired, dated]
  | some time =>
    have late := recent time (sound.dated row member time dated)
    simp [expired, dated, not_lt.mpr late]

theorem lookup_shown {alerts : List (Alert T)} (done : rt.incoming response = .ok alerts) (fingerprint : String) :
    (rt.shown response).lookup fingerprint = stateOf fingerprint alerts := by
  rw [shown, done, stateOf]
  clear done
  induction alerts with
  | nil => rfl
  | cons alert rest ih =>
    simp only [map_cons, lookup_cons, List.find?_cons]
    by_cases same : alert.fingerprint = fingerprint
    · simp [same]
    · have other : (fingerprint == alert.fingerprint) = false := by simpa using Ne.symm same
      simp only [other, same, decide_false]
      exact ih

structure Polled (response : Value F) (now : T) (db after : Db T) (result : Synced T) where
  alerts : List (Alert T)
  seen : List (List (Transition T))
  gone : List (List (Transition T))
  (middle late : Db T)
  metadata : Metadata T
  normalized : rt.incoming response = .ok alerts
  first : Transaction.each (rt.observe db.alerts now) alerts db = .ok (seen, middle)
  second : Transaction.each (rt.resolve alerts now) db.alerts middle = .ok (gone, late)
  pruned : rt.prune now { late with metadata } = .ok ((), after)
  transitions : result.transitions = seen.flatten ++ gone.flatten

theorem sync_parts {result : Synced T} (done : rt.sync response now db = .ok (result, after)) :
    Nonempty (rt.Polled response now db after result) := by
  rw [sync, bind_ok] at done
  obtain ⟨alerts, _, normalized, done⟩ := done
  rw [lift_ok] at normalized
  obtain ⟨normalized, rfl⟩ := normalized
  rw [read_bind, bind_ok] at done
  obtain ⟨seen, middle, first, done⟩ := done
  rw [bind_ok] at done
  obtain ⟨gone, late, second, done⟩ := done
  rw [write_bind, bind_ok] at done
  obtain ⟨_, final, pruned, done⟩ := done
  rw [pure_ok, Prod.mk.injEq] at done
  obtain ⟨rfl, rfl⟩ := done
  exact ⟨⟨alerts, seen, gone, middle, late, _, normalized, first, second, pruned, rfl⟩⟩

/-- A successful poll takes every alert one step of its life. -/
theorem sync_effect {result : Synced T} (sound : Sound times db) (member : now ∈ times)
    (recent : ∀ time ∈ times, rt.cutoff now ≤ time)
    (done : rt.sync response now db = .ok (result, after)) :
    Sound times after ∧ ∀ fingerprint, (after.life? fingerprint, notesOf fingerprint result.transitions) =
        Life.step (db.life? fingerprint) ⟨now, .poll ((rt.shown response).lookup fingerprint)⟩ := by
  obtain ⟨alerts, seen, gone, middle, late, metadata, normalized, first, second, pruned, made⟩ :=
    rt.sync_parts done
  have fresh := (rt.incoming_read normalized).2
  obtain ⟨middleSound, seenOthers, seenRounds⟩ := each_touches Alert.fingerprint
    (rt.observe db.alerts now) (fun _ _ _ _ _ ran => (rt.observe_effect ran).1) fresh sound first
  obtain ⟨lateSound, goneOthers, goneRounds⟩ := each_touches Row.fingerprint
    (rt.resolve alerts now) (fun _ _ _ _ _ ran => (rt.resolve_effect member ran).1) sound.distinct middleSound second
  have counted : Sound times { late with metadata } := ⟨lateSound.distinct, lateSound.dated⟩
  have kept := rt.prune_alerts counted recent pruned
  dsimp only at kept
  refine ⟨⟨kept ▸ lateSound.distinct, kept ▸ lateSound.dated⟩, fun fingerprint => ?_⟩
  have settled : after.alert? fingerprint = late.alert? fingerprint := by
    rw [Db.alert?, kept]
    rfl
  rw [Db.life?, settled, made, notesOf_append, rt.lookup_shown normalized, stateOf]
  -- an alert of the response is settled by the first loop, another one by the second
  cases found : alerts.find? fun alert => alert.fingerprint = fingerprint with
  | some alert =>
    have inside := List.mem_of_find?_eq_some found
    have named : alert.fingerprint = fingerprint := by simpa using List.find?_some found
    subst named
    obtain ⟨start, finish, own, _, ran, _, ended, notes⟩ := seenRounds alert inside
    have effect : Touches times alert.fingerprint _ _ _ ∧ _ := rt.observe_effect ran
    have step := effect.2
    have quiet : late.alert? alert.fingerprint = middle.alert? alert.fingerprint ∧
        notesOf alert.fingerprint gone.flatten = [] := by
      by_cases known : alert.fingerprint ∈ db.alerts.map Row.fingerprint
      · obtain ⟨row, present, same⟩ := mem_map.mp known
        obtain ⟨begin, finish, made, _, ran, before, after, notes⟩ := goneRounds row present
        have skipped := (rt.resolve_effect member ran).2.1 (same ▸ mem_map_of_mem inside)
        rw [same] at before after notes skipped
        exact ⟨after.trans (skipped.1.trans before), notes.trans skipped.2⟩
      · exact goneOthers _ known
    rw [quiet.1, quiet.2, ended, notes, append_nil]
    exact step
  | none =>
    have absent : fingerprint ∉ alerts.map Alert.fingerprint := Table.find_none.mp found
    obtain ⟨untouched, silent⟩ := seenOthers fingerprint absent
    rw [silent, nil_append]
    cases prior : db.alert? fingerprint with
    | none =>
      have unknown : fingerprint ∉ db.alerts.map Row.fingerprint := Table.find_none.mp prior
      obtain ⟨still, quiet⟩ := goneOthers fingerprint unknown
      rw [still, untouched, quiet, Db.life?, prior]
      rfl
    | some row =>
      have inside := List.mem_of_find?_eq_some prior
      have named : row.fingerprint = fingerprint := by simpa using List.find?_some prior
      subst named
      obtain ⟨begin, finish, made, _, ran, before, ended, notes⟩ := goneRounds row inside
      have step := (rt.resolve_effect member ran).2.2 absent (before.trans (untouched.trans prior))
      rw [ended, notes, Db.life?, prior]
      exact step

/-- An acknowledgement is a sight of its alert, which is active, and of no other. -/
theorem acknowledge_effect {fingerprint actor note : Value F} {made : Option (Transition T)} (sound : Sound times db)
    (done : rt.acknowledge fingerprint actor note now db = .ok (made, after)) :
    Sound times after ∧ (∃ life state, db.life? (rt.wanted fingerprint) = some life ∧ life.state = .active state) ∧
      (after.life? (rt.wanted fingerprint), notesOf (rt.wanted fingerprint) made.toList) =
        Life.step (db.life? (rt.wanted fingerprint)) ⟨now, .acknowledge⟩ ∧
      ∀ other, other ≠ rt.wanted fingerprint → after.life? other = db.life? other ∧ notesOf other made.toList = [] := by
  rw [acknowledge, check_bind] at done
  obtain ⟨_, done⟩ := done
  rw [read_bind] at done
  generalize rt.wanted fingerprint = wanted at done ⊢
  cases found : db.alert? wanted with
  | none => simp [found] at done
  | some alert =>
    simp only [found] at done
    split at done
    next => simp at done
    next live =>
      have active : ∃ state, alert.state = .active state := by
        cases stated : alert.state with
        | resolved => exact absurd stated live
        | active state => exact ⟨state, rfl⟩
      obtain ⟨state, stated⟩ := active
      split at done
      next again =>
        rw [pure_ok, Prod.mk.injEq] at done
        obtain ⟨rfl, rfl⟩ := done
        refine ⟨sound, ⟨alert.life, state, by rw [Db.life?, found]; rfl, stated⟩, ?_, fun _ _ => ⟨rfl, rfl⟩⟩
        simp [Db.life?, found, Life.step, Row.life, again]
      next first =>
        simp only [write_bind, bind_ok, pure_ok, Prod.mk.injEq] at done
        obtain ⟨row, final, wrote, rfl, rfl⟩ := done
        obtain ⟨kept, _, about, shown⟩ := rt.transition_effect wrote
        dsimp only at kept
        obtain ⟨keys, rows⟩ := alert_update kept fun _ => rfl
        refine ⟨⟨keys ▸ sound.distinct, fun old present time dated => ?_⟩,
          ⟨alert.life, state, by rw [Db.life?, found]; rfl, stated⟩, ?_, fun other apart => ?_⟩
        · rw [kept] at present
          rcases Table.mem_update.mp present with ⟨before, inside, _, rfl⟩ | ⟨same, _⟩
          · exact sound.dated before inside time dated
          · exact sound.dated old same time dated
        · have settled := rows wanted
          rw [if_pos rfl, found] at settled
          change (final.alert? wanted |>.map Row.life, _) = _
          rw [settled]
          simp [Db.life?, found, Life.step, Row.life, notesOf, about, shown, first]
        · constructor
          · change (final.alert? other).map Row.life = _
            rw [rows, if_neg apart]
            rfl
          · simp [notesOf, about, Ne.symm apart]

end Platform

/-- What the rows and the transitions say, next to the history. -/
structure Refines (run : Run T) : Prop where
  /-- The alerts that are not resolved are those of the last successful poll. -/
  shown : ∀ alerts, lastPoll run.history = some alerts → ∀ fingerprint state,
    (∃ row ∈ run.db.alerts, row.fingerprint = fingerprint ∧ row.state = .active state) ↔
      (fingerprint, state) ∈ alerts
  known : ∀ fingerprint, (∃ row ∈ run.db.alerts, row.fingerprint = fingerprint) ↔
    runs (sights fingerprint run.history) ≠ 0
  counted : ∀ row ∈ run.db.alerts, row.generation = runs (sights row.fingerprint run.history) ∧
      row.occurrences = runs (sights row.fingerprint run.history)
  acknowledged : ∀ row ∈ run.db.alerts, row.acknowledgedAt.isSome = true ↔
    .acknowledge ∈ latestRun (sights row.fingerprint run.history)
  emitted : ∀ fingerprint, notesOf fingerprint run.emitted = changes [] (sights fingerprint run.history)

/-- Every alert lived through its own part of the history. -/
structure Follows (times : List T) (run : Run T) : Prop where
  sound : Sound times run.db
  lives : ∀ fingerprint, Lives (sights fingerprint run.history) (run.db.life? fingerprint)
    (notesOf fingerprint run.emitted)
  distinct : ∀ alerts, lastPoll run.history = some alerts → (alerts.map Prod.fst).Nodup

@[simp] theorem sights_append (fingerprint : String) (history : List (Happening T)) (happening : Happening T) :
    sights fingerprint (history ++ [happening]) =
      sights fingerprint history ++ (happening.sight fingerprint).toList := by
  cases seen : happening.sight fingerprint <;> simp [sights, seen]

theorem current_sights (fingerprint : String) (history : List (Happening T)) :
    current (sights fingerprint history) = (lastPoll history).bind fun alerts => alerts.lookup fingerprint := by
  induction history using List.reverseRecOn with
  | nil => rfl
  | append_singleton history happening ih =>
    rw [sights_append]
    cases happening with
    | polled now alerts => simp [Happening.sight, lastPoll]
    | failed => simpa [Happening.sight, lastPoll] using ih
    | acknowledged now other =>
      by_cases same : other = fingerprint <;> simpa [Happening.sight, lastPoll, same] using ih

theorem lookup_mem {α : Type} {entries : List (String × α)} (distinct : (entries.map Prod.fst).Nodup)
    {name : String} {value : α} : entries.lookup name = some value ↔ (name, value) ∈ entries := by
  induction entries with
  | nil => simp
  | cons entry rest ih =>
    obtain ⟨fresh, distinct⟩ := nodup_cons.mp distinct
    rw [lookup_cons, mem_cons]
    by_cases same : name = entry.1
    · have absent : (name, value) ∉ rest := fun member => fresh (same ▸ mem_map_of_mem member)
      subst same
      simp [absent, Prod.ext_iff, eq_comm]
    · have other : (name == entry.1) = false := by simpa using same
      simp [other, Prod.ext_iff, same, ih distinct]

namespace Follows

variable {times : List T} {run : Run T}

theorem life_mem (follows : Follows times run) {row : Row T} (member : row ∈ run.db.alerts) :
    run.db.life? row.fingerprint = some row.life := by
  rw [Db.life?, Db.alert?, Table.find_mem follows.sound.distinct member]
  rfl

theorem of_life {fingerprint : String} {life : Life} (found : run.db.life? fingerprint = some life) :
    ∃ row ∈ run.db.alerts, row.fingerprint = fingerprint ∧ row.life = life := by
  obtain ⟨row, present, rfl⟩ := Option.map_eq_some_iff.mp found
  exact ⟨row, List.mem_of_find?_eq_some present, by simpa using List.find?_some present, rfl⟩

theorem refines (follows : Follows times run) : Refines run where
  shown alerts last fingerprint state := by
    have told := (follows.lives fingerprint).told
    have now := current_sights fingerprint run.history
    rw [last, Option.bind_some] at now
    rw [← lookup_mem (follows.distinct alerts last), ← now]
    constructor
    · rintro ⟨row, member, rfl, active⟩
      rw [follows.life_mem member] at told
      exact told.active.mp active
    · intro present
      cases life : run.db.life? fingerprint with
      | none => simp [(told.unknown life).2] at present
      | some known =>
        obtain ⟨row, member, named, rfl⟩ := of_life life
        rw [life] at told
        exact ⟨row, member, named, told.active.mpr present⟩
  known fingerprint := by
    have told := (follows.lives fingerprint).told
    constructor
    · rintro ⟨row, member, rfl⟩
      exact (told.counted _ (follows.life_mem member)).2.2
    · intro some
      cases life : run.db.life? fingerprint with
      | none => exact absurd (told.unknown life).1 some
      | some known =>
        obtain ⟨row, member, named, _⟩ := of_life life
        exact ⟨row, member, named⟩
  counted row member := by
    have counted := (follows.lives row.fingerprint).told.counted _ (follows.life_mem member)
    exact ⟨counted.1, counted.2.1⟩
  acknowledged row member :=
    (follows.lives row.fingerprint).told.acknowledged _ (follows.life_mem member)
  emitted fingerprint := (follows.lives fingerprint).notes_eq

end Follows

namespace Platform

variable [LinearOrder T] (rt : Platform F T)

theorem shown_distinct (response : Value F) : ((rt.shown response).map Prod.fst).Nodup := by
  rw [shown]
  cases known : rt.incoming response with
  | error why => exact nodup_nil
  | ok alerts =>
    rw [map_map]
    exact (rt.incoming_read known).2

theorem failed_alerts (run : Run T) (call : Call F T)
    (failed : (rt.perform run call).history = run.history ++ [.failed]) :
    (rt.perform run call).db.alerts = run.db.alerts ∧ (rt.perform run call).emitted = run.emitted := by
  cases call with
  | sync response now =>
    simp only [perform] at failed ⊢
    split at failed
    next => simp at failed
    next why same => exact ⟨rfl, rfl⟩
  | recordPollError error now => exact ⟨rfl, rfl⟩
  | acknowledge fingerprint actor note now =>
    simp only [perform] at failed ⊢
    split at failed
    next => simp at failed
    next why same => exact ⟨rfl, rfl⟩

theorem perform_follows {times : List T} {run : Run T} (follows : Follows times run)
    (call : Call F T) (recent : ∀ time ∈ times, rt.cutoff call.now ≤ time) :
    Follows (times ++ [call.now]) (rt.perform run call) := by
  have wider := follows.sound.mono fun time member => mem_append_left [call.now] member
  have failure : Follows (times ++ [call.now]) { run with history := run.history ++ [.failed] } := by
    refine ⟨wider, fun fingerprint => ?_, ?_⟩
    · simpa [Happening.sight] using follows.lives fingerprint
    · simpa [lastPoll] using follows.distinct
  cases call with
  | recordPollError error now => exact ⟨⟨wider.distinct, wider.dated⟩, failure.lives, failure.distinct⟩
  | sync response now =>
    simp only [perform]
    split
    next result after done =>
      have recent : ∀ time ∈ times ++ [now], rt.cutoff now ≤ time := by
        intro time member
        rcases mem_append.mp member with earlier | same
        · exact recent time earlier
        · exact mem_singleton.mp same ▸ rt.cutoff_le now
      obtain ⟨sound, effect⟩ := rt.sync_effect wider (by simp [Call.now]) recent done
      refine ⟨sound, fun fingerprint => ?_, fun alerts last => ?_⟩
      · have step := effect fingerprint
        have lived := (follows.lives fingerprint).step ⟨now, .poll ((rt.shown response).lookup fingerprint)⟩ (by simp)
        rw [← step] at lived
        simpa [Happening.sight] using lived
      · obtain rfl : rt.shown response = alerts := by simpa [lastPoll] using last
        exact rt.shown_distinct response
    next why failed => exact failure
  | acknowledge fingerprint actor note now =>
    simp only [perform]
    split
    next made after done =>
      obtain ⟨sound, ⟨life, state, known, active⟩, effect, others⟩ := rt.acknowledge_effect wider done
      refine ⟨sound, fun other => ?_, fun alerts last => ?_⟩
      · by_cases same : rt.wanted fingerprint = other
        · subst same
          have lived := (follows.lives (rt.wanted fingerprint)).step ⟨now, .acknowledge⟩
            fun _ => ⟨life, state, known, active⟩
          rw [← effect] at lived
          simpa [Happening.sight] using lived
        · obtain ⟨kept, silent⟩ := others other (Ne.symm same)
          simpa [Happening.sight, same, kept, silent] using follows.lives other
      · exact follows.distinct alerts (by simpa [lastPoll] using last)
    next why failed => exact failure

theorem run_follows (calls : List (Call F T)) (timely : rt.Timely calls) :
    Follows (calls.map Call.now) (rt.run calls) := by
  induction calls using List.reverseRecOn with
  | nil => exact ⟨⟨nodup_nil, by simp [run, Db.initial]⟩, fun _ => .start, by simp [run, lastPoll]⟩
  | append_singleton calls call ih =>
    obtain ⟨earlier, _, recent⟩ := pairwise_append.mp timely
    rw [run, foldl_append, map_append]
    refine rt.perform_follows (ih earlier) call fun time member => ?_
    obtain ⟨old, before, rfl⟩ := mem_map.mp member
    exact (recent old before call mem_cons_self).2

/-- Inside the retention period the inbox is what the poll history says, and failed calls leave
the alerts alone. -/
theorem inbox_refines_polls (calls : List (Call F T)) (timely : rt.Timely calls) :
    Refines (rt.run calls) ∧ ∀ call : Call F T,
      (rt.perform (rt.run calls) call).history = (rt.run calls).history ++ [.failed] →
        (rt.perform (rt.run calls) call).db.alerts = (rt.run calls).db.alerts ∧
          (rt.perform (rt.run calls) call).emitted = (rt.run calls).emitted :=
  ⟨(rt.run_follows calls timely).refines, rt.failed_alerts (rt.run calls)⟩

end Platform

def diskFull : String := "60cb8168a96594ece7ed1d659710fda19100f49c3c36c117476e797b0c410a25"

def plainInbox : Platform FloatText Int where
  toRuntime := plainRuntime
  sensitive _ := false
  sha256 text := if text = "\x7b\"alertname\":\"DiskFull\"\x7d" then diskFull else ""
  fromIso _ := none
  iso seconds := .ok (toString seconds)
  cutoff now := now - 90 * 86400
  cutoff_le now := by omega
  historyLimit := 2000

def pollOf (alerts : List (Value FloatText)) (now : Int) : Call FloatText Int :=
  .sync (.object [("status", .str "success"), ("data", .object [("alerts", .list alerts)])]) now

def diskAlert (state : String) : Value FloatText :=
  .object [("labels", .object [("alertname", .str "DiskFull")]), ("state", .str state)]

def comesBack : List (Call FloatText Int) := [
  pollOf [diskAlert "pending"] 0,
  pollOf [diskAlert "firing"] 30,
  .acknowledge (.str diskFull) (.str "operator") .none 40,
  .recordPollError (.str "timed out") 60,
  pollOf [] 90,
  pollOf [diskAlert "firing"] 120]

theorem inbox_refines_polls_comesBack : plainInbox.Timely comesBack ∧ Refines (plainInbox.run comesBack) := by
  have timely : plainInbox.Timely comesBack := by
    unfold Platform.Timely
    decide
  exact ⟨timely, (plainInbox.inbox_refines_polls comesBack timely).1⟩

end Dash.Alerts
