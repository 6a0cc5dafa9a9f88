import Dash.Calendar.Windows
import Dash.Python.Reencoding

/-! `analyze` is complete, and does not depend on the order of its windows. -/

set_option autoImplicit false

namespace Dash.Calendar

open Dash.Python List

theorem Window.before_total (first second : Window) : first.before second ∨ second.before first := by
  rcases lt_trichotomy first.startsAt second.startsAt with less | same | more
  · exact .inl (.inl less)
  · rcases lt_trichotomy first.endsAt second.endsAt with earlier | equal | later
    · exact .inl (.inr ⟨same, .inl earlier⟩)
    · rcases le_total first.id second.id with low | high
      · exact .inl (.inr ⟨same, .inr ⟨equal, low⟩⟩)
      · exact .inr (.inr ⟨same.symm, .inr ⟨equal.symm, high⟩⟩)
    · exact .inr (.inr ⟨same.symm, .inl later⟩)
  · exact .inr (.inl more)

theorem Window.before_trans {first second third : Window} (one : first.before second)
    (two : second.before third) : first.before third := by
  rcases one with less | ⟨same, one⟩
  · rcases two with lower | ⟨equal, -⟩
    · exact .inl (less.trans lower)
    · exact .inl (equal ▸ less)
  · rcases two with lower | ⟨equal, two⟩
    · exact .inl (same ▸ lower)
    · refine .inr ⟨same.trans equal, ?_⟩
      rcases one with earlier | ⟨ends, id⟩
      · rcases two with before | ⟨until_, -⟩
        · exact .inl (earlier.trans before)
        · exact .inl (until_ ▸ earlier)
      · rcases two with before | ⟨until_, next⟩
        · exact .inl (ends ▸ before)
        · exact .inr ⟨ends.trans until_, id.trans next⟩

variable {first second : Window}

theorem Window.before_starts (order : first.before second) : first.startsAt ≤ second.startsAt := by
  rcases order with less | ⟨same, -⟩
  · exact less.le
  · exact same.le

theorem Window.before_id (one : first.before second) (two : second.before first) : first.id = second.id := by
  unfold Window.before at one two
  have starts : first.startsAt = second.startsAt := le_antisymm (before_starts one) (before_starts two)
  rw [starts] at one two
  have one := (one.resolve_left (lt_irrefl _)).2
  have two := (two.resolve_left (lt_irrefl _)).2
  rcases one with less | ⟨ends, low⟩
  · rcases two with more | ⟨ends, -⟩
    · exact absurd (less.trans more) (lt_irrefl _)
    · exact absurd (ends ▸ less) (lt_irrefl _)
  · rcases two with more | ⟨-, high⟩
    · exact absurd (ends ▸ more) (lt_irrefl _)
    · exact le_antisymm low high

instance : Std.Total Window.before := ⟨Window.before_total⟩

instance : IsTrans Window Window.before := ⟨fun _ _ _ => Window.before_trans⟩

theorem sorted_before (rows : List Window) :
    (rows.insertionSort Window.before).Pairwise Window.before := pairwise_insertionSort _ _

theorem id_injective {rows : List Window} (distinct : (rows.map Window.id).Nodup)
    (here : first ∈ rows) (there : second ∈ rows) (same : first.id = second.id) : first = second :=
  inj_on_of_nodup_map distinct here there same

theorem sort_perm {first second : List Window} (same : first.Perm second) (distinct : (first.map Window.id).Nodup) :
    first.insertionSort Window.before = second.insertionSort Window.before := by
  have perm : (first.insertionSort Window.before).Perm (second.insertionSort Window.before) :=
    (perm_insertionSort _ _).trans (same.trans (perm_insertionSort _ _).symm)
  refine perm.eq_of_pairwise (fun one two here there before after => ?_) (sorted_before _) (sorted_before _)
  have inFirst := (mem_insertionSort _).mp here
  have inSecond := same.mem_iff.mpr ((mem_insertionSort _).mp there)
  exact id_injective distinct inFirst inSecond (Window.before_id before after)

section Writable

variable {F : Type} (rt : Runtime F)

def Writable (value : Value F) : Prop := ∃ document, rt.jsonable value = .ok document

theorem writable_list {items : List (Value F)} (each : ∀ item ∈ items, Writable rt item) :
    Writable rt (.list items) := by
  have all : ∃ documents, rt.jsonables items = .ok documents := by
    induction items with
    | nil => exact ⟨[], rfl⟩
    | cons item rest ih =>
      obtain ⟨first, one⟩ := each item mem_cons_self
      obtain ⟨others, tail⟩ := ih fun other member => each other (mem_cons_of_mem _ member)
      exact ⟨first :: others, by rw [Runtime.jsonables, one, tail]⟩
  obtain ⟨documents, written⟩ := all
  exact ⟨.array documents, by rw [Runtime.jsonable, written]; rfl⟩

theorem writable_object {fields : List (String × Value F)} (each : ∀ field ∈ fields, Writable rt field.2) :
    Writable rt (.object fields) := by
  have all : ∃ written, rt.jsonableEntries (fields.map fun field => (Key.str field.1, field.2)) =
      .ok written := by
    induction fields with
    | nil => exact ⟨[], rfl⟩
    | cons field rest ih =>
      obtain ⟨first, one⟩ := each field mem_cons_self
      obtain ⟨others, tail⟩ := ih fun other member => each other (mem_cons_of_mem _ member)
      exact ⟨(.str field.1, first) :: others, by
        rw [map_cons, Runtime.jsonableEntries, one, tail]⟩
  obtain ⟨written, same⟩ := all
  have sorted : sortable ((fields.map fun field => ((.str field.1 : Key F), field.2)).map Prod.fst) = true :=
    sortable_named fields
  unfold Writable
  rw [Value.object, Runtime.jsonable, if_pos sorted, same]
  exact ⟨_, rfl⟩

end Writable

namespace Platform

variable (rt : Platform)

structure Normal (row : Window) : Prop where
  dated : rt.Dated row
  metadata : Writable rt.toRuntime row.metadata

variable {row : Window}

theorem normalizeWindow_normal {raw : Value Rat} (valid : rt.normalizeWindow raw = .ok row) :
    rt.Normal row := by
  unfold normalizeWindow at valid
  split at valid
  · cases valid
  obtain ⟨start, -, valid⟩ := result_bind.mp valid
  obtain ⟨finish, -, valid⟩ := result_bind.mp valid
  rw [result_refuse] at valid
  obtain ⟨impact, -, valid⟩ := result_bind.mp valid.2
  dsimp only at valid
  rw [result_refuse] at valid
  obtain ⟨text, written, valid⟩ := result_bind.mp valid.2
  rw [result_refuse] at valid
  obtain ⟨id, -, valid⟩ := result_bind.mp valid.2
  obtain ⟨source, -, valid⟩ := result_bind.mp valid
  obtain ⟨title, -, valid⟩ := result_bind.mp valid
  obtain ⟨startsAtIso, dated, valid⟩ := result_bind.mp valid
  obtain ⟨endsAtIso, -, valid⟩ := result_bind.mp valid
  cases valid
  refine ⟨dated, ?_⟩
  unfold canonicalMetadata at written
  split at written
  · next dumped =>
    obtain ⟨document, encoded, -⟩ := (rt.dumps_ok).mp dumped
    exact ⟨document, encoded⟩
  · cases written

def rowsOf (windows : List (Value Rat)) : List Window :=
  windows.filterMap fun raw => (rt.normalizeWindow raw).toOption

theorem rowsOf_cons {raw : Value Rat} (valid : rt.normalizeWindow raw = .ok row)
    (rest : List (Value Rat)) : rt.rowsOf (raw :: rest) = row :: rt.rowsOf rest := by
  rw [rowsOf, filterMap_cons, valid]
  rfl

variable {windows : List (Value Rat)}

theorem rowsOf_normal (member : row ∈ rt.rowsOf windows) : rt.Normal row := by
  obtain ⟨raw, -, found⟩ := mem_filterMap.mp member
  cases normal : rt.normalizeWindow raw with
  | error why =>
    rw [normal] at found
    cases found
  | ok other =>
    rw [normal] at found
    cases found
    exact rt.normalizeWindow_normal normal

/-- Valid windows of distinct ids are all admitted, and those in the horizon are kept. -/
theorem admitAll_valid (now horizonEnd : Rat)
    (valid : ∀ raw ∈ windows, ∃ row, rt.normalizeWindow raw = .ok row) {seen : List String}
    (distinct : ((rt.rowsOf windows).map Window.id).Nodup)
    (fresh : ∀ row ∈ rt.rowsOf windows, row.id ∉ seen) (index : Nat) :
    rt.admitAll now horizonEnd index seen windows =
      .ok ((rt.rowsOf windows).filter (Window.within now horizonEnd), []) := by
  induction windows generalizing seen index with
  | nil => rfl
  | cons raw rest ih =>
    obtain ⟨row, normal⟩ := valid raw mem_cons_self
    rw [rt.rowsOf_cons normal] at distinct fresh ⊢
    obtain ⟨unused, distinct⟩ := nodup_cons.mp distinct
    have admitted : rt.acceptRow seen raw = .ok row := by
      refine result_bind.mpr ⟨row, normal, ?_⟩
      rw [if_neg (fresh row mem_cons_self)]
    have later : ∀ other ∈ rt.rowsOf rest, other.id ∉ row.id :: seen := by
      intro other member known
      rcases mem_cons.mp known with same | before
      · exact unused (same ▸ mem_map_of_mem member)
      · exact fresh other (mem_cons_of_mem _ member) before
    have tail := ih (fun other member => valid other (mem_cons_of_mem _ member)) distinct later (index + 1)
    rw [admitAll, admitted]
    dsimp only
    rw [tail, filter_cons]
    rfl

theorem window_writable (normal : rt.Normal row) : Writable rt.toRuntime row.value := by
  obtain ⟨document, written⟩ := normal.metadata
  refine writable_object rt.toRuntime ?_
  simp [Writable, Runtime.jsonable, written]

theorem conflict_writable (conflict : Conflict) : Writable rt.toRuntime conflict.value := by
  refine writable_object rt.toRuntime ?_
  simp [Writable, Runtime.jsonable]

theorem finding_writable (finding : Finding) : Writable rt.toRuntime finding.value := by
  refine writable_object rt.toRuntime ?_
  simp [Writable, Runtime.jsonable]

theorem problem_writable (problem : Problem) : Writable rt.toRuntime problem.value := by
  cases problem <;>
  · refine writable_object rt.toRuntime ?_
    simp [Writable, Runtime.jsonable]

theorem hashed_written {rows : List Window} (normal : ∀ row ∈ rows, rt.Normal row) (conflicts : List Conflict)
    (findings : List Finding) (errors : List Problem) :
    ∃ text, rt.dumps true (hashed rows conflicts findings errors) = .ok text := by
  have whole : Writable rt.toRuntime (hashed rows conflicts findings errors) := by
    refine writable_object rt.toRuntime fun field member => ?_
    simp only [mem_cons, not_mem_nil, or_false] at member
    rcases member with rfl | rfl | rfl | rfl
    · exact writable_list _ (forall_mem_map.mpr fun row there => rt.window_writable (normal row there))
    · exact writable_list _ (forall_mem_map.mpr fun conflict _ => rt.conflict_writable conflict)
    · exact writable_list _ (forall_mem_map.mpr fun finding _ => rt.finding_writable finding)
    · exact writable_list _ (forall_mem_map.mpr fun problem _ => rt.problem_writable problem)
  obtain ⟨document, written⟩ := whole
  exact ⟨_, (rt.dumps_ok).mpr ⟨document, written, rfl⟩⟩

def shown (windows : List (Value Rat)) (now : Rat) (horizon : Int) : List Window :=
  ((rt.rowsOf windows).filter (Window.within now (now + clampHorizon horizon))).insertionSort Window.before

theorem mem_shown {now : Rat} {horizon : Int} : row ∈ rt.shown windows now horizon ↔
      row ∈ rt.rowsOf windows ∧ row.within now (now + clampHorizon horizon) = true := by
  rw [shown, mem_insertionSort, mem_filter]

/-- The report of valid windows: only the two times of the horizon may be out of range. -/
theorem analyze_valid (now : Rat) (horizon : Int) (sourceErrors : List (Value Rat))
    (valid : ∀ raw ∈ windows, ∃ row, rt.normalizeWindow raw = .ok row)
    (distinct : ((rt.rowsOf windows).map Window.id).Nodup) :
    ∃ text, rt.dumps true (hashed (rt.shown windows now horizon) (rt.clashes (rt.shown windows now horizon))
        (rt.coverage (rt.shown windows now horizon)) (sourceErrors.map rt.sourceProblem)) = .ok text ∧
      rt.analyze windows now horizon sourceErrors = ((rt.iso now).bind fun generatedAt =>
        (rt.iso (now + clampHorizon horizon)).bind fun horizonEndsAtIso =>
          .ok (rt.reportOf now (clampHorizon horizon) (rt.shown windows now horizon)
            (rt.clashes (rt.shown windows now horizon)) (sourceErrors.map rt.sourceProblem) generatedAt
            horizonEndsAtIso text)) := by
  have admitted := rt.admitAll_valid now (now + clampHorizon horizon) valid distinct (fun _ _ => not_mem_nil) 0
  have normal : ∀ row ∈ rt.shown windows now horizon, rt.Normal row := fun row member =>
    rt.rowsOf_normal (rt.mem_shown.mp member).1
  have swept : rt.sweep (rt.shown windows now horizon) = .ok (rt.clashes (rt.shown windows now horizon)) :=
    rt.sweep_sorted (fun row member => (normal row member).dated)
      ((sorted_before _).imp fun order => Window.before_starts order)
  obtain ⟨text, written⟩ := rt.hashed_written normal (rt.clashes (rt.shown windows now horizon))
    (rt.coverage (rt.shown windows now horizon)) (sourceErrors.map rt.sourceProblem)
  refine ⟨text, written, ?_⟩
  rw [shown] at *
  unfold analyze
  dsimp only
  rw [admitted]
  change (rt.sweep _).bind _ = _
  rw [swept]
  cases rt.iso now with
  | error why => rfl
  | ok generatedAt =>
    cases rt.iso (now + clampHorizon horizon) with
    | error why => rfl
    | ok horizonEndsAtIso =>
      rw [append_nil]
      change (rt.dumps true _).bind _ = _
      rw [written]
      rfl

def Uncovered (rows : List Window) (row : Window) : Prop :=
  rt.executes row = true ∧ ∀ window ∈ rows, rt.excludes window = true → contains window row = false

theorem mem_coverage {rows : List Window} {id : String} : id ∈ (rt.coverage rows).map Finding.windowId ↔
      ∃ row ∈ rows, row.id = id ∧ rt.Uncovered rows row := by
  rw [coverage, map_map]
  constructor
  · intro member
    obtain ⟨row, there, rfl⟩ := mem_map.mp member
    obtain ⟨held, found⟩ := mem_filter.mp there
    rw [Bool.and_eq_true, Bool.not_eq_true', any_eq_false] at found
    refine ⟨row, held, rfl, found.1, fun window within excludes => ?_⟩
    exact Bool.eq_false_of_not_eq_true (found.2 window (mem_filter.mpr ⟨within, excludes⟩))
  · rintro ⟨row, held, rfl, executes, free⟩
    refine mem_map.mpr ⟨row, mem_filter.mpr ⟨held, ?_⟩, rfl⟩
    rw [Bool.and_eq_true, Bool.not_eq_true', any_eq_false]
    refine ⟨executes, fun window within contained => ?_⟩
    obtain ⟨there, excludes⟩ := mem_filter.mp within
    rw [free window there excludes] at contained
    cases contained

theorem contains_within {outer inner : Window} {now horizonEnd : Rat}
    (contained : contains outer inner = true) (within : inner.within now horizonEnd = true) :
    outer.within now horizonEnd = true := by
  simp only [contains, Window.within, Bool.and_eq_true, decide_eq_true_eq] at *
  exact ⟨within.1.trans_le contained.2, contained.1.trans_lt within.2⟩

/-- The report of these windows has each conflict once and each finding once, and no others. -/
structure Complete (rows : List Window) (now horizonEnd : Rat) (report : Report) : Prop where
  windows : report.windows.Perm (rows.filter (Window.within now horizonEnd))
  conflicts : ∀ first ∈ rows, ∀ second ∈ rows, first.id ≠ second.id →
    (report.conflicts.filter (Conflict.joins first.id second.id)).map Conflict.severity =
      (if first.within now horizonEnd ∧ second.within now horizonEnd then conflictSeverity first second
        else none).toList
  only : ∀ conflict ∈ report.conflicts, ∃ first ∈ rows, ∃ second ∈ rows, first.id ≠ second.id ∧
    conflict.joins first.id second.id = true
  findings : ∀ id, id ∈ report.coverageFindings.map Finding.windowId ↔
    ∃ row ∈ rows, row.id = id ∧ row.within now horizonEnd = true ∧ rt.Uncovered rows row
  once : (report.coverageFindings.map Finding.windowId).Nodup

variable {rt} in
theorem shown_distinct (distinct : ((rt.rowsOf windows).map Window.id).Nodup)
    (now : Rat) (horizon : Int) : ((rt.shown windows now horizon).map Window.id).Nodup :=
  ((perm_insertionSort _ _).map Window.id).nodup_iff.mpr (distinct.sublist (filter_sublist.map Window.id))

theorem report_complete (distinct : ((rt.rowsOf windows).map Window.id).Nodup)
    (now : Rat) (horizon : Int) (errors : List Problem) (generatedAt horizonEndsAtIso text : String) :
    rt.Complete (rt.rowsOf windows) now (now + clampHorizon horizon)
      (rt.reportOf now (clampHorizon horizon) (rt.shown windows now horizon)
        (rt.clashes (rt.shown windows now horizon)) errors generatedAt horizonEndsAtIso text) where
  windows := perm_insertionSort _ _
  conflicts := by
    intro first here second there apart
    have ids := shown_distinct distinct now horizon
    have missing : ∀ row ∈ rt.rowsOf windows, ¬ row.within now (now + clampHorizon horizon) = true →
        ∀ other ∈ rt.shown windows now horizon, other.id ≠ row.id := by
      intro row held outside other member same
      obtain ⟨listed, inside⟩ := rt.mem_shown.mp member
      exact outside (id_injective distinct listed held same ▸ inside)
    change ((rt.clashes (rt.shown windows now horizon)).filter (Conflict.joins first.id second.id)).map
      Conflict.severity = _
    by_cases inFirst : first.within now (now + clampHorizon horizon) = true
    · by_cases inSecond : second.within now (now + clampHorizon horizon) = true
      · rw [if_pos ⟨inFirst, inSecond⟩]
        exact rt.clashes_between ids (rt.mem_shown.mpr ⟨here, inFirst⟩) (rt.mem_shown.mpr ⟨there, inSecond⟩) apart
      · rw [if_neg fun both => inSecond both.2, Conflict.joins_comm, rt.clashes_absent (missing second there inSecond)]
        rfl
    · rw [if_neg fun both => inFirst both.1, rt.clashes_absent (missing first here inFirst)]
      rfl
  only := by
    intro conflict member
    obtain ⟨first, here, second, there, apart, left, right⟩ :=
      rt.mem_clashes member (shown_distinct distinct now horizon)
    refine ⟨first, (rt.mem_shown.mp here).1, second, (rt.mem_shown.mp there).1, apart, ?_⟩
    rw [Conflict.joins, left, right, decide_eq_true rfl, decide_eq_true rfl]
    rfl
  findings := by
    intro id
    change id ∈ (rt.coverage (rt.shown windows now horizon)).map Finding.windowId ↔ _
    rw [mem_coverage]
    constructor
    · rintro ⟨row, member, same, executes, free⟩
      obtain ⟨listed, inside⟩ := rt.mem_shown.mp member
      refine ⟨row, listed, same, inside, executes, fun window held excludes => ?_⟩
      by_contra contained
      rw [Bool.not_eq_false] at contained
      have shown := rt.mem_shown.mpr ⟨held, contains_within contained inside⟩
      rw [free window shown excludes] at contained
      cases contained
    · rintro ⟨row, listed, same, inside, executes, free⟩
      exact ⟨row, rt.mem_shown.mpr ⟨listed, inside⟩, same, executes, fun window member excludes =>
        free window (rt.mem_shown.mp member).1 excludes⟩
  once := by
    change ((rt.coverage (rt.shown windows now horizon)).map Finding.windowId).Nodup
    rw [coverage, map_map]
    exact (shown_distinct distinct now horizon).sublist (filter_sublist.map Window.id)

/-- The analysis of valid windows with distinct ids: it answers as soon as the two times of the horizon can be
written, its answer is complete, and the order of the windows does not matter. -/
theorem analyze_complete (windows : List (Value Rat)) (now : Rat) (horizon : Int) (sourceErrors : List (Value Rat))
    (valid : ∀ raw ∈ windows, ∃ row, rt.normalizeWindow raw = .ok row)
    (distinct : ((rt.rowsOf windows).map Window.id).Nodup) :
    ((∃ report, rt.analyze windows now horizon sourceErrors = .ok report) ↔
      (∃ text, rt.iso now = .ok text) ∧ ∃ text, rt.iso (now + clampHorizon horizon) = .ok text) ∧
    (∀ report, rt.analyze windows now horizon sourceErrors = .ok report →
      rt.Complete (rt.rowsOf windows) now (now + clampHorizon horizon) report) ∧
    ∀ other : List (Value Rat), other.Perm windows →
      rt.analyze other now horizon sourceErrors = rt.analyze windows now horizon sourceErrors := by
  obtain ⟨text, hashed, run⟩ := rt.analyze_valid now horizon sourceErrors valid distinct
  refine ⟨?_, ?_, ?_⟩
  · rw [run]
    constructor
    · rintro ⟨report, answered⟩
      obtain ⟨generatedAt, one, answered⟩ := result_bind.mp answered
      obtain ⟨horizonEndsAtIso, two, -⟩ := result_bind.mp answered
      exact ⟨⟨generatedAt, one⟩, horizonEndsAtIso, two⟩
    · rintro ⟨⟨generatedAt, one⟩, horizonEndsAtIso, two⟩
      exact ⟨_, result_bind.mpr ⟨_, one, result_bind.mpr ⟨_, two, rfl⟩⟩⟩
  · intro report answered
    rw [run] at answered
    obtain ⟨generatedAt, -, answered⟩ := result_bind.mp answered
    obtain ⟨horizonEndsAtIso, -, answered⟩ := result_bind.mp answered
    cases answered
    exact rt.report_complete distinct now horizon _ _ _ _
  · intro other same
    have rows : (rt.rowsOf other).Perm (rt.rowsOf windows) := same.filterMap _
    have otherDistinct : ((rt.rowsOf other).map Window.id).Nodup := (rows.map Window.id).nodup_iff.mpr distinct
    have shownSame : rt.shown other now horizon = rt.shown windows now horizon :=
      sort_perm (rows.filter _) (otherDistinct.sublist (filter_sublist.map Window.id))
    obtain ⟨otherText, otherHashed, otherRun⟩ := rt.analyze_valid now horizon sourceErrors
      (fun raw member => valid raw (same.mem_iff.mp member)) otherDistinct
    rw [shownSame] at otherHashed otherRun
    obtain rfl : otherText = text := Except.ok.inj (otherHashed.symm.trans hashed)
    exact otherRun.trans run.symm

end Platform

def plainCalendar : Platform where
  toRuntime := rationalRuntime
  fromIso _ := valueError "Invalid isoformat string"
  iso value := .ok (toString value)
  sha256 text := text

def disruptiveWindow (id : String) (start finish : Int) : Value Rat :=
  .object [("id", .str id), ("source", .str "test"), ("title", .str "restart"), ("impact", .str "disruptive"),
    ("startsAt", .int start), ("endsAt", .int finish)]

theorem valid_of_ok {raw : Value Rat} (valid : (plainCalendar.normalizeWindow raw).toBool = true) :
    ∃ row, plainCalendar.normalizeWindow raw = .ok row := by
  cases normal : plainCalendar.normalizeWindow raw with
  | error why =>
    rw [normal] at valid
    cases valid
  | ok row => exact ⟨row, rfl⟩

def overlapping : List (Value Rat) := [disruptiveWindow "a" 2000 3000, disruptiveWindow "b" 2500 3500]

theorem analyze_complete_overlapping : ∃ report, plainCalendar.analyze overlapping 1000 3600 [] = .ok report ∧
    plainCalendar.Complete (plainCalendar.rowsOf overlapping) 1000 (1000 + clampHorizon 3600) report := by
  have complete := plainCalendar.analyze_complete overlapping 1000 3600 []
    (forall_mem_cons.mpr ⟨valid_of_ok (by decide +kernel),
      forall_mem_singleton.mpr (valid_of_ok (by decide +kernel))⟩) (by decide +kernel)
  obtain ⟨report, answered⟩ := complete.1.mpr ⟨⟨_, rfl⟩, _, rfl⟩
  exact ⟨report, answered, complete.2.1 report answered⟩

/-- A disruptive window that is over has no exclusion and no finding; and of two ids that differ in a space
behind them, the second is refused, so that the windows have no conflict. -/
theorem analyze_skips :
    (((plainCalendar.rowsOf [disruptiveWindow "a" 100 200]).all fun row => plainCalendar.executes row &&
        !(plainCalendar.rowsOf [disruptiveWindow "a" 100 200]).any plainCalendar.excludes) = true ∧
      ((plainCalendar.analyze [disruptiveWindow "a" 100 200] 1000 3600 []).map fun report =>
        report.coverageFindings.length).toOption = some 0) ∧
    ((plainCalendar.rowsOf [disruptiveWindow "a" 2000 3000, disruptiveWindow "a " 2500 3500]).length = 2 ∧
      ((plainCalendar.analyze [disruptiveWindow "a" 2000 3000, disruptiveWindow "a " 2500 3500] 1000 3600 []).map
        fun report => report.conflicts.length).toOption = some 0) := by
  decide +kernel

end Dash.Calendar
