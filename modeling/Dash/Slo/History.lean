import Dash.Slo.Effects

/-! The incidents of one objective, read off its samples.

The first half says what the samples ask for. The second half takes one sample after the
other and keeps a list of incidents, which comes to the same.
-/

set_option autoImplicit false

namespace Dash.Slo

open List

variable {F : Type}

structure Reading (F : Type) where
  now : F
  (good excluded : Bool)

def Reading.bad (reading : Reading F) : Bool := !reading.good && !reading.excluded

def Reading.heals (reading : Reading F) : Bool := reading.good && !reading.excluded

structure Episode (F : Type) where
  openedAt : F
  resolvedAt : Option F
  failureCount : Nat

def Episode.isOpen (episode : Episode F) : Bool := episode.resolvedAt.isNone

def allBad (failures : Nat) (samples : List (Reading F)) : Bool :=
  let recent := samples.reverse.take failures
  decide (failures ≤ recent.length) && recent.all Reading.bad

theorem allBad_last {failures : Nat} {samples : List (Reading F)} {reading : Reading F}
    (positive : 0 < failures) (streaks : allBad failures (samples ++ [reading]) = true) :
    reading.bad = true := by
  obtain ⟨count, rfl⟩ := Nat.exists_eq_succ_of_ne_zero positive.ne'
  simp only [allBad, reverse_append, reverse_singleton, singleton_append,
    take_succ_cons, all_cons, Bool.and_eq_true] at streaks
  exact streaks.2.1

variable [LinearOrder F]

def retained (cutoff : F → F) (history : List (Reading F)) : List (Reading F) :=
  history.filter fun reading => history.all fun later => cutoff later.now ≤ reading.now

def endsStreak (failures : Nat) (cutoff : F → F) (before : List (Reading F)) (reading : Reading F) : Bool :=
  allBad failures (retained cutoff before ++ [reading])

/-- An incident began with a sample, and went on until the first good one that counts. -/
def Episode.Fits (failures : Nat) (history : List (Reading F)) (episode : Episode F) : Prop :=
  ∃ before opening after, history = before ++ opening :: after ∧ opening.now = episode.openedAt ∧
    match episode.resolvedAt with
    | none => (∀ reading ∈ after, reading.heals = false) ∧
        episode.failureCount = failures + after.countP Reading.bad
    | some time => ∃ during healing rest, after = during ++ healing :: rest ∧
        healing.heals = true ∧ healing.now = time ∧
        (∀ reading ∈ during, reading.heals = false) ∧
        episode.failureCount = failures + during.countP Reading.bad

structure Lifecycle (failures : Nat) (cutoff : F → F) (history : List (Reading F))
    (episodes : List (Episode F)) : Prop where
  single : ∀ first ∈ episodes, ∀ second ∈ episodes, first.isOpen = true → second.isOpen = true → first = second
  fits : ∀ episode ∈ episodes, episode.Fits failures history
  /-- One is opened exactly where a streak ends and none is open. -/
  opened : ∀ before reading after, history = before ++ reading :: after →
    ((∃ episode ∈ episodes, episode.openedAt = reading.now) ↔
      endsStreak failures cutoff before reading = true ∧ ∀ episode ∈ episodes, episode.openedAt < reading.now →
          ∃ time, episode.resolvedAt = some time ∧ time < reading.now)

def Episode.close (now : F) (episode : Episode F) : Episode F :=
  if episode.isOpen then { episode with resolvedAt := some now } else episode

def Episode.fail (episode : Episode F) : Episode F :=
  if episode.isOpen then { episode with failureCount := episode.failureCount + 1 } else episode

def advance (failures : Nat) (streaks : Bool) (reading : Reading F) (episodes : List (Episode F)) :
    List (Episode F) :=
  if reading.excluded then episodes
  else if reading.good then episodes.map (Episode.close reading.now)
  else if episodes.any Episode.isOpen then episodes.map Episode.fail
  else if streaks then episodes ++ [⟨reading.now, none, failures⟩]
  else episodes

namespace Episode

variable {failures : Nat} {history : List (Reading F)} {episode : Episode F} {next : Reading F}

omit [LinearOrder F]

section

variable (fits : episode.Fits failures history)
include fits

theorem Fits.times : (∃ reading ∈ history, reading.now = episode.openedAt) ∧
      ∀ time, episode.resolvedAt = some time → ∃ reading ∈ history, reading.now = time := by
  obtain ⟨before, opening, after, rfl, began, rest⟩ := fits
  refine ⟨⟨opening, by simp, began⟩, fun time resolved => ?_⟩
  rw [resolved] at rest
  obtain ⟨during, healing, last, rfl, _, at_, _⟩ := rest
  exact ⟨healing, by simp, at_⟩

/-- A closed incident, and any incident over a sample that does not count, stays. -/
theorem Fits.stays (quiet : episode.isOpen = true → next.heals = false ∧ next.bad = false) :
    episode.Fits failures (history ++ [next]) := by
  obtain ⟨before, opening, after, rfl, began, rest⟩ := fits
  refine ⟨before, opening, after ++ [next], by simp, began, ?_⟩
  cases resolved : episode.resolvedAt with
  | none =>
    rw [resolved] at rest
    obtain ⟨heals, bad⟩ := quiet (by simp [isOpen, resolved])
    refine ⟨fun reading member => ?_, ?_⟩
    · rcases mem_append.mp member with old | new
      · exact rest.1 reading old
      · exact mem_singleton.mp new ▸ heals
    · simp [countP_append, bad, rest.2]
  | some time =>
    rw [resolved] at rest
    obtain ⟨during, healing, last, rfl, good⟩ := rest
    exact ⟨during, healing, last ++ [next], by simp, good⟩

theorem Fits.closes (heals : next.heals = true) : (episode.close next.now).Fits failures (history ++ [next]) := by
  by_cases opened : episode.isOpen = true
  · obtain ⟨before, opening, after, rfl, began, rest⟩ := fits
    have pending : episode.resolvedAt = none := by simpa [isOpen] using opened
    rw [pending] at rest
    rw [close, if_pos opened]
    exact ⟨before, opening, after ++ [next], by simp, began, after, next, [], by simp, heals, rfl, rest⟩
  · rw [close, if_neg opened]
    exact fits.stays fun impossible => absurd impossible opened

theorem Fits.fails (bad : next.bad = true) : episode.fail.Fits failures (history ++ [next]) := by
  by_cases opened : episode.isOpen = true
  · obtain ⟨before, opening, after, rfl, began, rest⟩ := fits
    have pending : episode.resolvedAt = none := by simpa [isOpen] using opened
    rw [pending] at rest
    have sick : next.heals = false := by
      simp only [Reading.bad, Reading.heals, Bool.and_eq_true, Bool.not_eq_true'] at bad ⊢
      simp [bad.1]
    rw [fail, if_pos opened]
    refine ⟨before, opening, after ++ [next], by simp, began, ?_⟩
    simp only [pending]
    refine ⟨fun reading member => ?_, ?_⟩
    · rcases mem_append.mp member with old | new
      · exact rest.1 reading old
      · exact mem_singleton.mp new ▸ sick
    · rw [countP_append, rest.2]
      simp [bad, Nat.add_assoc]
  · rw [fail, if_neg opened]
    exact fits.stays fun impossible => absurd impossible opened

end

theorem fits_new (history : List (Reading F)) (next : Reading F) (failures : Nat) :
    (⟨next.now, none, failures⟩ : Episode F).Fits failures (history ++ [next]) :=
  ⟨history, next, [], rfl, rfl, by simp, by simp⟩

end Episode

structure Continues (next : Reading F) (change : Episode F → Episode F) (extra : List (Episode F)) :
    Prop where
  openedAt : ∀ episode, (change episode).openedAt = episode.openedAt
  resolvedAt : ∀ episode, (change episode).resolvedAt = episode.resolvedAt ∨
    (episode.resolvedAt = none ∧ (change episode).resolvedAt = some next.now)
  extra : ∀ episode ∈ extra, episode.openedAt = next.now

/-- What was opened at an earlier sample, and what was closed before it, stays as it was. -/
theorem Continues.earlier {next reading : Reading F} {change : Episode F → Episode F}
    {episodes extra : List (Episode F)} (continues : Continues next change extra)
    (before : reading.now < next.now) :
    ((∃ episode ∈ episodes.map change ++ extra, episode.openedAt = reading.now) ↔
        ∃ episode ∈ episodes, episode.openedAt = reading.now) ∧
      ((∀ episode ∈ episodes.map change ++ extra, episode.openedAt < reading.now →
          ∃ time, episode.resolvedAt = some time ∧ time < reading.now) ↔
        ∀ episode ∈ episodes, episode.openedAt < reading.now →
          ∃ time, episode.resolvedAt = some time ∧ time < reading.now) := by
  have resolved : ∀ episode, (∃ time, (change episode).resolvedAt = some time ∧ time < reading.now) ↔
      ∃ time, episode.resolvedAt = some time ∧ time < reading.now := by
    intro episode
    rcases continues.resolvedAt episode with same | ⟨pending, closed⟩
    · rw [same]
    · rw [pending, closed]
      constructor
      · rintro ⟨time, same, early⟩
        cases same
        exact absurd early before.asymm
      · rintro ⟨time, impossible, _⟩
        cases impossible
  constructor
  · constructor
    · rintro ⟨episode, member, at_⟩
      rcases mem_append.mp member with old | new
      · obtain ⟨source, inside, rfl⟩ := mem_map.mp old
        exact ⟨source, inside, (continues.openedAt source).symm.trans at_⟩
      · exact absurd ((continues.extra episode new).symm.trans at_) before.ne'
    · rintro ⟨episode, member, at_⟩
      exact ⟨change episode, mem_append_left _ (mem_map_of_mem member), (continues.openedAt episode).trans at_⟩
  · constructor
    · intro all episode member early
      have closed := all (change episode) (mem_append_left _ (mem_map_of_mem member))
        ((continues.openedAt episode).trans_lt early)
      exact (resolved episode).mp closed
    · intro all episode member early
      rcases mem_append.mp member with old | new
      · obtain ⟨source, inside, rfl⟩ := mem_map.mp old
        exact (resolved source).mpr (all source inside ((continues.openedAt source).symm.trans_lt early))
      · rw [continues.extra episode new] at early
        exact absurd early before.asymm

namespace Lifecycle

variable {failures : Nat} {cutoff : F → F} {history : List (Reading F)}
  {episodes : List (Episode F)} {next : Reading F}

theorem start : Lifecycle failures cutoff [] [] where
  single _ impossible := nomatch impossible
  fits _ impossible := nomatch impossible
  opened before reading after impossible := by simp at impossible

section

variable (cycle : Lifecycle failures cutoff history episodes)
include cycle

/-- The last sample opens an incident if it ends a streak and none is open. -/
theorem extend (later : ∀ reading ∈ history, reading.now < next.now) (change : Episode F → Episode F)
    (extra : List (Episode F)) (continues : Continues next change extra)
    (single : ∀ first ∈ episodes.map change ++ extra, ∀ second ∈ episodes.map change ++ extra,
      first.isOpen = true → second.isOpen = true → first = second)
    (fits : ∀ episode ∈ episodes.map change ++ extra, episode.Fits failures (history ++ [next]))
    (last : extra ≠ [] ↔ endsStreak failures cutoff history next = true ∧
      ∀ episode ∈ episodes.map change ++ extra, episode.openedAt < next.now →
        ∃ time, episode.resolvedAt = some time ∧ time < next.now) :
    Lifecycle failures cutoff (history ++ [next]) (episodes.map change ++ extra) := by
  refine ⟨single, fits, fun before reading after whole => ?_⟩
  induction after using List.reverseRecOn with
  | nil =>
    obtain ⟨rfl, same⟩ := append_inj' whole rfl
    obtain rfl : next = reading := by simpa using same
    rw [← last]
    constructor
    · rintro ⟨episode, member, at_⟩
      rcases mem_append.mp member with old | new
      · obtain ⟨source, inside, rfl⟩ := mem_map.mp old
        obtain ⟨earlier, there, began⟩ := (cycle.fits source inside).times.1
        have early := later earlier there
        rw [began, ← continues.openedAt source, at_] at early
        exact absurd early (lt_irrefl _)
      · exact ne_nil_of_mem new
    · intro some
      obtain ⟨episode, new⟩ := exists_mem_of_ne_nil extra some
      exact ⟨episode, mem_append_right _ new, continues.extra episode new⟩
  | append_singleton after final _ =>
    have split : history = before ++ reading :: after := by
      have same : history ++ [next] = (before ++ reading :: after) ++ [final] := by simp [whole]
      exact (append_inj' same rfl).1
    have early := later reading (by simp [split])
    have kept : (_ ↔ ∃ episode ∈ episodes, episode.openedAt = reading.now) ∧ _ := continues.earlier early
    obtain ⟨some, closed⟩ := kept
    rw [some, closed]
    exact cycle.opened before reading after split

theorem all_closed (later : ∀ reading ∈ history, reading.now < next.now)
    (closed : episodes.any Episode.isOpen = false) :
    ∀ episode ∈ episodes, ∃ time, episode.resolvedAt = some time ∧ time < next.now := by
  intro episode member
  have resolved := any_eq_false.mp closed episode member
  cases at_ : episode.resolvedAt with
  | none => simp [Episode.isOpen, at_] at resolved
  | some time =>
    obtain ⟨reading, there, rfl⟩ := (cycle.fits episode member).times.2 time at_
    exact ⟨_, rfl, later reading there⟩

theorem advance (positive : 0 < failures) (later : ∀ reading ∈ history, reading.now < next.now) :
    Lifecycle failures cutoff (history ++ [next])
      (advance failures (endsStreak failures cutoff history next) next episodes) := by
  have streakBad : next.bad = false → endsStreak failures cutoff history next = false := by
    intro fine
    cases streaks : endsStreak failures cutoff history next with
    | false => rfl
    | true =>
      rw [allBad_last positive streaks] at fine
      cases fine
  have same : Continues next (id : Episode F → Episode F) [] := ⟨fun _ => rfl, fun _ => .inl rfl, by simp⟩
  -- the incidents stay as they are
  have still (quiet : ∀ episode ∈ episodes, episode.isOpen = true → next.heals = false ∧ next.bad = false)
      (off : endsStreak failures cutoff history next = false) :
      Lifecycle failures cutoff (history ++ [next]) episodes := by
    have stays := cycle.extend later id [] same (by simpa using cycle.single) (fun episode member => by
        have inside : episode ∈ episodes := by simpa using member
        exact (cycle.fits episode inside).stays (quiet episode inside)) (by simp [off])
    simpa using stays
  unfold Slo.advance
  split
  next excluded =>
    exact still (fun _ _ _ => by simp [Reading.heals, Reading.bad, excluded])
      (streakBad (by simp [Reading.bad, excluded]))
  next counts =>
    split
    next good =>
      have heals : next.heals = true := by simp [Reading.heals, good, counts]
      have closes : Continues next (Episode.close next.now) [] := by
        refine ⟨fun episode => ?_, fun episode => ?_, by simp⟩
        · unfold Episode.close
          split <;> rfl
        · cases opened : episode.resolvedAt with
          | none => simp [Episode.close, Episode.isOpen, opened]
          | some time => simp [Episode.close, Episode.isOpen, opened]
      have none_ : ∀ episode : Episode F, (episode.close next.now).isOpen = false := by
        intro episode
        cases opened : episode.resolvedAt with
        | none => simp [Episode.close, Episode.isOpen, opened]
        | some time => simp [Episode.close, Episode.isOpen, opened]
      have closed := cycle.extend later (Episode.close next.now) [] closes (fun first member _ _ open_ => by
          obtain ⟨source, _, rfl⟩ := mem_map.mp (by simpa using member)
          rw [none_] at open_
          cases open_)
        (fun episode member => by
          obtain ⟨source, inside, rfl⟩ := mem_map.mp (by simpa using member)
          exact (cycle.fits source inside).closes heals)
        (by simp [streakBad (by simp [Reading.bad, good])])
      simpa using closed
    next failed =>
      have bad : next.bad = true := by simp [Reading.bad, failed, counts]
      split
      next opened =>
        have fails : Continues next Episode.fail [] := by
          refine ⟨fun episode => ?_, fun episode => .inl ?_, by simp⟩ <;>
            unfold Episode.fail <;> split <;> rfl
        have stillOpen : ∀ episode : Episode F, episode.fail.isOpen = episode.isOpen := by
          intro episode
          unfold Episode.fail
          split <;> rfl
        obtain ⟨current, member, open_⟩ := any_eq_true.mp opened
        have failing := cycle.extend later Episode.fail [] fails (fun first one second other firstOpen secondOpen => by
            obtain ⟨left, inLeft, rfl⟩ := mem_map.mp (by simpa using one)
            obtain ⟨right, inRight, rfl⟩ := mem_map.mp (by simpa using other)
            rw [stillOpen] at firstOpen secondOpen
            rw [cycle.single left inLeft right inRight firstOpen secondOpen])
          (fun episode inside => by
            obtain ⟨source, there, rfl⟩ := mem_map.mp (by simpa using inside)
            exact (cycle.fits source there).fails bad)
          (by
            constructor
            · exact fun impossible => absurd rfl impossible
            · rintro ⟨_, all⟩
              obtain ⟨earlier, there, began⟩ := (cycle.fits current member).times.1
              obtain ⟨time, resolved, _⟩ := all current.fail (by simpa using ⟨current, member, rfl⟩)
                (by rw [fails.openedAt, ← began]; exact later earlier there)
              have pending := stillOpen current
              rw [open_] at pending
              simp [Episode.isOpen, resolved] at pending)
        simpa using failing
      next closed =>
        have none_ : episodes.any Episode.isOpen = false := by simpa using closed
        split
        next streaks =>
          have opens : Continues next (id : Episode F → Episode F) [⟨next.now, none, failures⟩] :=
            ⟨fun _ => rfl, fun _ => .inl rfl, by simp⟩
          have more := cycle.extend later id [⟨next.now, none, failures⟩] opens
            (fun first one second other firstOpen secondOpen => by
              have only : ∀ episode ∈ episodes.map id ++ [(⟨next.now, none, failures⟩ : Episode F)],
                  episode.isOpen = true → episode = ⟨next.now, none, failures⟩ := by
                intro episode member open_
                rcases mem_append.mp member with old | new
                · have inside : episode ∈ episodes := by simpa using old
                  exact absurd open_ (any_eq_false.mp none_ episode inside)
                · exact mem_singleton.mp new
              rw [only first one firstOpen, only second other secondOpen])
            (fun episode member => by
              rcases mem_append.mp member with old | new
              · have inside : episode ∈ episodes := by simpa using old
                exact (cycle.fits episode inside).stays fun open_ =>
                  absurd open_ (any_eq_false.mp none_ episode inside)
              · rw [mem_singleton.mp new]
                exact Episode.fits_new history next failures)
            (by
              refine ⟨fun _ => ⟨streaks, fun episode member early => ?_⟩, fun _ => by simp⟩
              rcases mem_append.mp member with old | new
              · exact cycle.all_closed later none_ episode (by simpa using old)
              · rw [mem_singleton.mp new] at early
                exact absurd early (lt_irrefl _))
          simpa using more
        next short =>
          exact still (fun episode member open_ =>
            absurd open_ (any_eq_false.mp none_ episode member)) (by simpa using short)

end

end Lifecycle

end Dash.Slo
