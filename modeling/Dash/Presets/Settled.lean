import Dash.Presets.Overlay

/-! The lines a merge keeps, and why the second merge changes nothing. -/

set_option autoImplicit false

namespace Dash.Presets

open Dash.Python Dash.Foundation Dash.EnvFile List

/-- The lines that assign to no setting in its section. -/
def kept (settings : List Setting) : Option Line → List Line → List Line
  | _, [] => []
  | current, line :: rest =>
    match header? line with
    | some name => line :: kept settings (some name) rest
    | none =>
      match wanted? settings current line with
      | some _ => kept settings current rest
      | none => line :: kept settings current rest

/-- A merge leaves these lines: each setting stands once, as it is written, and none is pending. -/
def Settled (settings : List Setting) : Option Line → List Place → List Line → Prop
  | current, seen, [] => pending settings current seen = []
  | current, seen, line :: rest =>
    match header? line with
    | some name => pending settings current seen = [] ∧ Settled settings (some name) seen rest
    | none =>
      match wanted? settings current line with
      | some setting =>
        setting.place ∉ seen ∧ line = setting.line ∧ Settled settings current (setting.place :: seen) rest
      | none => Settled settings current seen rest

variable {settings : List Setting}

theorem kept_sublist (lines : List Line) (current : Option Line) (seen : List Place) :
    (kept settings current lines).Sublist (mergeLines settings current seen lines).1 := by
  induction lines generalizing current seen with
  | nil => exact nil_sublist _
  | cons line rest ih =>
    rw [kept, mergeLines]
    cases header : header? line with
    | some name => exact ((ih _ _).cons_cons line).trans (sublist_append_right _ _)
    | none =>
      cases wanted : wanted? settings current line with
      | some setting =>
        dsimp only
        split
        · exact ih _ _
        · exact (ih _ _).cons _
      | none => exact (ih _ _).cons_cons line

theorem addSections_begins (seen : List Place) (rendered : List Line) :
    rendered <+: addSections settings seen rendered := by
  unfold addSections
  induction (headings settings).filter _ generalizing rendered with
  | nil => exact prefix_rfl
  | cons name rest ih =>
    refine List.IsPrefix.trans ?_ (ih _)
    unfold addSection
    dsimp only
    split
    · rw [append_assoc]
      exact prefix_append _ _
    · exact prefix_append _ _

theorem kept_merged (lines : List Line) : (kept settings none lines).Sublist (mergedLines settings lines) :=
  (kept_sublist lines none []).trans (addSections_begins _ _).sublist

variable {current : Option Line} {seen : List Place}

theorem settled_merge {lines : List Line} (settled : Settled settings current seen lines) :
    (mergeLines settings current seen lines).1 = lines := by
  induction lines generalizing current seen with
  | nil =>
    have none_ : pending settings current seen = [] := settled
    rw [mergeLines, none_]
    rfl
  | cons line rest ih =>
    unfold Settled at settled
    rw [mergeLines]
    cases header : header? line with
    | some name =>
      rw [header] at settled
      obtain ⟨none_, later⟩ := settled
      dsimp only
      rw [none_]
      exact congrArg (line :: ·) (ih later)
    | none =>
      rw [header] at settled
      cases wanted : wanted? settings current line with
      | some setting =>
        rw [wanted] at settled
        obtain ⟨fresh, same, later⟩ := settled
        dsimp only
        rw [if_neg fresh, ih later, same]
      | none =>
        rw [wanted] at settled
        exact congrArg (line :: ·) (ih settled)

theorem pending_cons {setting : Setting}
    {others : List Setting} (first : pending settings current seen = setting :: others) :
    pending settings current (setting.place :: seen) = others := by
  cases current with
  | none => cases first
  | some name =>
    have distinct : ((pending settings (some name) seen).map Setting.place).Nodup :=
      pending_places (some name) seen
    rw [first, map_cons, nodup_cons] at distinct
    have narrower : pending settings (some name) (setting.place :: seen) =
        (pending settings (some name) seen).filter fun other => other.place ≠ setting.place := by
      rw [pending, pending, filter_filter]
      refine filter_congr fun other _ => ?_
      simp [not_or]
    rw [narrower, first, filter_cons_of_neg (by simp), filter_eq_self]
    intro other member
    rw [decide_eq_true_eq]
    exact fun same => distinct.1 (same ▸ mem_map_of_mem member)

theorem pending_written {items : List Setting} (waiting : pending settings current seen = items) :
    pending settings current (written items seen) = [] := by
  induction items generalizing seen with
  | nil => exact waiting
  | cons setting others ih => exact ih (pending_cons waiting)

section Plain

variable (plain : ∀ setting ∈ settings, setting.Plain)
include plain

variable {setting : Setting}

theorem wanted_line (found : settingAt settings setting.place = some setting) :
    wanted? settings (some setting.heading) setting.line = some setting := by
  have fine := plain setting (settingAt_some found).1
  simp only [wanted?, fine.line_assigns]
  exact (find_itemsOf setting.key).trans found

variable {current : Option Line} {seen : List Place}

theorem settled_items {items : List Setting} {rest : List Line} (waiting : pending settings current seen = items)
    (settled : Settled settings current (written items seen) rest) :
    Settled settings current seen (items.map Setting.line ++ rest) := by
  induction items generalizing seen with
  | nil => exact settled
  | cons setting others ih =>
    obtain ⟨rfl, found, fresh⟩ := mem_pending.mp (waiting ▸ mem_cons_self)
    have fine := plain setting (settingAt_some found).1
    rw [map_cons, cons_append, Settled, fine.line_header]
    rw [wanted_line plain found]
    exact ⟨fresh, rfl, ih (pending_cons waiting) settled⟩

theorem merge_settled (lines : List Line) (current : Option Line) (seen : List Place) :
    Settled settings current seen (mergeLines settings current seen lines).1 := by
  induction lines generalizing current seen with
  | nil =>
    have last : Settled settings current seen
        ((pending settings current seen).map Setting.line ++ []) := settled_items plain rfl
      (show Settled settings current (written (pending settings current seen) seen) [] from
        pending_written rfl)
    rwa [append_nil] at last
  | cons line rest ih =>
    rw [mergeLines]
    cases header : header? line with
    | some name =>
      refine settled_items plain rfl ?_
      rw [Settled, header]
      exact ⟨pending_written rfl, ih _ _⟩
    | none =>
      cases wanted : wanted? settings current line with
      | some setting =>
        dsimp only
        split
        · exact ih _ _
        · next fresh =>
          obtain ⟨found, listed⟩ := wanted_place wanted
          obtain ⟨rfl, -⟩ := wanted_some wanted
          have fine := plain setting listed
          rw [Settled, fine.line_header]
          rw [wanted_line plain found]
          exact ⟨fresh, rfl, ih _ _⟩
      | none =>
        dsimp only
        rw [Settled, header]
        dsimp only
        rw [wanted]
        exact ih _ _

omit plain in
theorem wanted_blank (current : Option Line) : header? [] = none ∧ wanted? settings current [] = none := by
  refine ⟨by decide, ?_⟩
  have assigns : assignment? [] = none := by decide
  cases current with
  | none => rfl
  | some name => simp [wanted?, assigns]

omit plain in
theorem settled_blank {rest : List Line} :
    Settled settings current seen ([] :: rest) ↔ Settled settings current seen rest := by
  obtain ⟨header, unwanted⟩ : header? [] = none ∧ wanted? settings current [] = none := wanted_blank current
  rw [Settled, header]
  rw [unwanted]

variable {lines : List Line} {name : Line}

theorem settled_section (settled : Settled settings current seen lines)
    (elsewhere : ∀ line ∈ lines, header? line ≠ some name) (unseen : ∀ place ∈ seen, place.1 ≠ name)
    (apart : current ≠ some name) :
    Settled settings current seen (lines ++ headingLine name :: (itemsOf settings name).map Setting.line) := by
  induction lines generalizing current seen with
  | nil =>
    have all : pending settings (some name) seen = itemsOf settings name := by
      rw [pending, filter_eq_self]
      intro setting member
      rw [decide_eq_true_eq]
      exact fun known => unseen _ known (mem_itemsOf.mp member).2
    have items : Settled settings (some name) seen
        ((itemsOf settings name).map Setting.line ++ []) := settled_items plain all (pending_written all)
    rw [append_nil] at items
    rw [nil_append, Settled, headingLine_header]
    exact ⟨settled, items⟩
  | cons line rest ih =>
    have later : ∀ other ∈ rest, header? other ≠ some name := fun other member =>
      elsewhere other (mem_cons_of_mem _ member)
    rw [cons_append]
    unfold Settled at settled ⊢
    cases header : header? line with
    | some opened =>
      rw [header] at settled
      have other : some opened ≠ some name := header ▸ elsewhere line mem_cons_self
      exact ⟨settled.1, ih settled.2 later unseen other⟩
    | none =>
      rw [header] at settled
      cases wanted : wanted? settings current line with
      | some setting =>
        rw [wanted] at settled
        refine ⟨settled.1, settled.2.1, ih settled.2.2 later (fun place member => ?_) apart⟩
        rcases mem_cons.mp member with rfl | before
        · obtain ⟨rfl, -⟩ := wanted_some wanted
          exact fun same => apart (congrArg some same)
        · exact unseen place before
      | none =>
        rw [wanted] at settled
        exact ih settled later unseen apart

omit plain in
/-- One step of the walk, to lines that are settled from wherever the rest was. -/
theorem Settled.step {line line' : Line} {rest rest' : List Line}
    (settled : Settled settings current seen (line :: rest)) (headers : header? line' = header? line)
    (wants : wanted? settings current line' = wanted? settings current line)
    (same : ∀ setting ∈ settings, line = setting.line → line' = setting.line)
    (later : ∀ {current : Option Line} {seen : List Place}, Settled settings current seen rest →
      Settled settings current seen rest') : Settled settings current seen (line' :: rest') := by
  unfold Settled at settled ⊢
  rw [headers]
  cases header : header? line with
  | some name =>
    rw [header] at settled
    exact ⟨settled.1, later settled.2⟩
  | none =>
    rw [header] at settled
    dsimp only
    rw [wants]
    cases wanted : wanted? settings current line with
    | some setting =>
      rw [wanted] at settled
      exact ⟨settled.1, same setting (wanted_place wanted).2 settled.2.1, later settled.2.2⟩
    | none =>
      rw [wanted] at settled
      exact later settled

omit plain in
theorem settled_space
    (settled : Settled settings current seen lines) : Settled settings current seen (lines ++ [[]]) := by
  induction lines generalizing current seen with
  | nil => exact settled_blank.mpr settled
  | cons line rest ih =>
    rw [cons_append]
    exact settled.step rfl rfl (fun _ _ same => same) ih

def Opens (lines : List Line) (name : Line) : Prop := ∃ line ∈ lines, header? line = some name

theorem opens_addSection (rendered : List Line) (name other : Line) :
    Opens (addSection settings rendered name) other ↔ Opens rendered other ∨ other = name := by
  have blank : header? [] = none := by decide
  have item : ∀ line ∈ (itemsOf settings name).map Setting.line, header? line = none := by
    intro line member
    obtain ⟨setting, there, rfl⟩ := mem_map.mp member
    exact (plain setting (settingAt_some (mem_itemsOf.mp there).1).1).line_header
  have behind : Opens (headingLine name :: (itemsOf settings name).map Setting.line) other ↔ other = name := by
    constructor
    · rintro ⟨line, member, header⟩
      rcases mem_cons.mp member with rfl | later
      · rw [headingLine_header] at header
        exact (Option.some.inj header).symm
      · rw [item line later] at header
        cases header
    · rintro rfl
      exact ⟨_, mem_cons_self, headingLine_header other⟩
  have append : ∀ first second : List Line, Opens (first ++ second) other ↔ Opens first other ∨ Opens second other := by
    intro first second
    simp only [Opens, mem_append, or_and_right, exists_or]
  unfold addSection
  dsimp only
  rw [append, behind]
  split
  · rw [append]
    have none_ : ¬ Opens [[]] other := by
      rintro ⟨line, member, header⟩
      rw [mem_singleton] at member
      rw [member, blank] at header
      cases header
    rw [or_iff_left none_]
  · exact Iff.rfl

theorem opens_mergeLines (lines : List Line) (current : Option Line) (seen : List Place) (name : Line) :
    Opens (mergeLines settings current seen lines).1 name ↔ Opens lines name := by
  have line_plain : ∀ setting ∈ settings, header? setting.line = none := fun setting member =>
    (plain setting member).line_header
  have waiting : ∀ current seen, ∀ line ∈ (pending settings current seen).map Setting.line, header? line = none := by
    intro current seen line member
    obtain ⟨setting, there, rfl⟩ := mem_map.mp member
    exact line_plain setting (settingAt_some (mem_pending.mp there).2.1).1
  have cons : ∀ (line : Line) (rest : List Line), Opens (line :: rest) name ↔
      header? line = some name ∨ Opens rest name := by
    intro line rest
    simp [Opens]
  induction lines generalizing current seen with
  | nil =>
    constructor
    · rintro ⟨line, member, header⟩
      rw [waiting current seen line member] at header
      cases header
    · rintro ⟨line, impossible, -⟩
      cases impossible
  | cons line rest ih =>
    rw [mergeLines, cons]
    cases header : header? line with
    | some opened =>
      dsimp only
      refine Iff.trans ?_ (or_congr_right (ih (some opened) (written (pending settings current seen) seen)))
      rw [← header, ← cons]
      constructor
      · rintro ⟨other, member, same⟩
        rcases mem_append.mp member with item | later
        · rw [waiting current seen other item] at same
          cases same
        · exact ⟨other, later, same⟩
      · rintro ⟨other, member, same⟩
        exact ⟨other, mem_append_right _ member, same⟩
    | none =>
      rw [or_iff_right (fun impossible : none = some name => by cases impossible)]
      cases wanted : wanted? settings current line with
      | some setting =>
        dsimp only
        split
        · exact ih _ _
        · rw [cons, line_plain setting (wanted_place wanted).2,
            or_iff_right (fun impossible : none = some name => by cases impossible)]
          exact ih _ _
      | none =>
        dsimp only
        rw [cons, header, or_iff_right (fun impossible : none = some name => by cases impossible)]
        exact ih _ _

omit plain in
/-- The places of a visited section are all seen in the end. -/
theorem mergeLines_visited {place : Place} (found : settingAt settings place = some setting) (lines : List Line)
    (there : place ∈ seen ∨ Visits place.1 current lines) :
    place ∈ (mergeLines settings current seen lines).2 := by
  have waiting : ∀ {current : Option Line} {seen : List Place}, place ∈ seen ∨ current = some place.1 →
      place ∈ written (pending settings current seen) seen := by
    intro current seen there
    rw [mem_written]
    by_cases known : place ∈ seen
    · exact .inr known
    · exact .inl ((pending_place found).mpr ⟨there.resolve_left known, known⟩)
  induction lines generalizing current seen with
  | nil =>
    refine waiting (there.imp_right fun visits => ?_)
    rcases visits with here | ⟨line, impossible, -⟩
    · exact here
    · cases impossible
  | cons line rest ih =>
    rw [mergeLines]
    cases header : header? line with
    | some name =>
      rw [visits_header header, ← or_assoc] at there
      exact ih (there.imp_left waiting)
    | none =>
      rw [visits_other header] at there
      cases wanted : wanted? settings current line with
      | some other =>
        dsimp only
        split
        · exact ih there
        · exact ih (there.imp_left (mem_cons_of_mem _))
      | none => exact ih there

omit plain in
theorem headings_distinct (settings : List Setting) : (headings settings).Nodup := by
  induction settings with
  | nil => exact nodup_nil
  | cons setting rest ih =>
    rw [headings, nodup_cons]
    exact ⟨fun again => by simp at again, ih.filter _⟩

theorem addSection_settled {rendered : List Line}
    (settled : Settled settings none [] rendered) (elsewhere : ¬ Opens rendered name) :
    Settled settings none [] (addSection settings rendered name) := by
  have blank : header? [] = none := by decide
  have others : ∀ line ∈ rendered, header? line ≠ some name := fun line member same =>
    elsewhere ⟨line, member, same⟩
  unfold addSection
  dsimp only
  split
  · refine settled_section plain (settled_space settled) (fun line member => ?_)
      (fun _ impossible => nomatch impossible) (fun impossible => nomatch impossible)
    rcases mem_append.mp member with before | last
    · exact others line before
    · rw [mem_singleton] at last
      rw [last, blank]
      exact fun impossible => nomatch impossible
  · exact settled_section plain settled others (fun _ impossible => nomatch impossible)
      (fun impossible => nomatch impossible)

theorem sections_settled (names : List Line) (distinct : names.Nodup) {rendered : List Line}
    (settled : Settled settings none [] rendered) (elsewhere : ∀ name ∈ names, ¬ Opens rendered name) :
    Settled settings none [] (names.foldl (addSection settings) rendered) ∧
      ∀ name, Opens (names.foldl (addSection settings) rendered) name ↔ Opens rendered name ∨ name ∈ names := by
  induction names generalizing rendered with
  | nil => exact ⟨settled, fun name => by simp⟩
  | cons first rest ih =>
    rw [nodup_cons] at distinct
    have still : ∀ name ∈ rest, ¬ Opens (addSection settings rendered first) name := by
      intro name member opens
      rcases (opens_addSection plain rendered first name).mp opens with before | same
      · exact elsewhere name (mem_cons_of_mem _ member) before
      · exact distinct.1 (same ▸ member)
    obtain ⟨done, opens⟩ := ih distinct.2 (addSection_settled plain settled (elsewhere first mem_cons_self)) still
    refine ⟨done, fun name => ?_⟩
    rw [foldl_cons]
    refine (opens name).trans ?_
    rw [mem_cons, opens_addSection plain, or_assoc]

/-- The merged lines are settled, and open every section of the settings. -/
theorem mergedLines_settled (lines : List Line) : Settled settings none [] (mergedLines settings lines) ∧
      ∀ name ∈ headings settings, Opens (mergedLines settings lines) name := by
  have rendered := merge_settled plain lines none []
  have absent : ∀ name ∈ (headings settings).filter fun name =>
      !(mergeLines settings none [] lines).2.any fun place => place.1 = name,
      ¬ Opens (mergeLines settings none [] lines).1 name := by
    intro name member opens
    obtain ⟨listed, unseen⟩ := mem_filter.mp member
    obtain ⟨setting, there, rfl⟩ := mem_headings.mp listed
    obtain ⟨found, place⟩ := settingAt_listed there
    have visits : Visits setting.heading none lines :=
      .inr ((opens_mergeLines plain lines none [] setting.heading).mp opens)
    have known : setting.place ∈ (mergeLines settings none [] lines).2 :=
      mergeLines_visited place lines (.inr visits)
    rw [Bool.not_eq_true', any_eq_false] at unseen
    exact unseen _ known (decide_eq_true rfl)
  obtain ⟨settled, opens⟩ := sections_settled plain _ ((headings_distinct settings).filter _) rendered absent
  refine ⟨settled, fun name listed => (opens name).mpr ?_⟩
  by_cases before : Opens (mergeLines settings none [] lines).1 name
  · exact .inl before
  · refine .inr (mem_filter.mpr ⟨listed, ?_⟩)
    rw [Bool.not_eq_true', any_eq_false]
    intro place known same
    rw [decide_eq_true_eq] at same
    rcases mergeLines_seen lines place known with impossible | visits | opened
    · cases impossible
    · cases visits
    · exact before ((opens_mergeLines plain lines none [] name).mpr (same ▸ opened))

theorem setting_rstrip (listed : setting ∈ settings) :
    setting.line.rdropWhile isSpace = setting.line := (plain setting listed).line_ends.2

omit plain in
theorem wanted_rstrip (current : Option Line) (line : Line) :
    wanted? settings current (line.rdropWhile isSpace) = wanted? settings current line := by
  unfold wanted?
  rw [assignment_rstrip]

theorem trimEnd_settled (settled : Settled settings current seen lines) :
    Settled settings current seen (trimEnd lines) := by
  induction lines generalizing current seen with
  | nil => exact settled
  | cons line rest ih =>
    by_cases found : trimEnd rest = []
    · rw [trimEnd_none found]
      rw [found] at ih
      split
      · next blank =>
        obtain ⟨header, assigns⟩ := blank_line blank
        have unwanted : wanted? settings current line = none := by
          cases current with
          | none => rfl
          | some name => simp [wanted?, assigns]
        unfold Settled at settled
        rw [header] at settled
        dsimp only at settled
        rw [unwanted] at settled
        exact ih settled
      · refine settled.step (header_rstrip line) (wanted_rstrip current line) (fun setting listed same => ?_) ih
        rw [same, setting_rstrip plain listed]
    · rw [trimEnd_some found]
      exact settled.step rfl rfl (fun _ _ same => same) ih

omit plain in
theorem trimEnd_opens (opens : Opens lines name) : Opens (trimEnd lines) name := by
  induction lines with
  | nil => exact opens
  | cons line rest ih =>
    obtain ⟨other, member, header⟩ := opens
    by_cases found : trimEnd rest = []
    · rw [trimEnd_none found]
      rcases mem_cons.mp member with rfl | later
      · split
        · next blank =>
          rw [(blank_line blank).1] at header
          cases header
        · exact ⟨_, mem_cons_self, (header_rstrip other).trans header⟩
      · obtain ⟨_, impossible, -⟩ := ih ⟨other, later, header⟩
        rw [found] at impossible
        cases impossible
    · rw [trimEnd_some found]
      rcases mem_cons.mp member with rfl | later
      · exact ⟨other, mem_cons_self, header⟩
      · obtain ⟨trimmed, there, same⟩ := ih ⟨other, later, header⟩
        exact ⟨trimmed, mem_cons_of_mem _ there, same⟩

theorem endLines_merged (lines : List Line) : mergedLines settings (endLines (mergedLines settings lines)) =
      endLines (mergedLines settings lines) := by
  obtain ⟨settled, opens⟩ := mergedLines_settled plain lines
  have trimmed := trimEnd_settled plain settled
  have ends : Settled settings none [] (endLines (mergedLines settings lines)) := by
    unfold endLines
    split
    · exact settled_blank.mpr rfl
    · exact trimmed
  have visited : ∀ name ∈ headings settings, Opens (endLines (mergedLines settings lines)) name := by
    intro name listed
    have there := trimEnd_opens (opens name listed)
    unfold endLines
    split
    · next empty =>
      obtain ⟨_, impossible, -⟩ := there
      rw [empty] at impossible
      cases impossible
    · exact there
  have none_ : (headings settings).filter (fun name =>
      !(mergeLines settings none [] (endLines (mergedLines settings lines))).2.any
        fun place => place.1 = name) = [] := by
    rw [filter_eq_nil_iff]
    intro name listed
    rw [Bool.not_eq_true, Bool.not_eq_false', any_eq_true]
    obtain ⟨setting, there, rfl⟩ := mem_headings.mp listed
    obtain ⟨other, found⟩ := settingAt_listed there
    exact ⟨setting.place, mergeLines_visited found _ (.inr (.inr (visited _ listed))), decide_eq_true rfl⟩
  rw [mergedLines, addSections, none_, foldl_nil]
  exact settled_merge ends

theorem mergedLines_clean (clean : ∀ line ∈ lines, ∀ char ∈ line, isBoundary char = false) :
    ∀ line ∈ mergedLines settings lines, ∀ char ∈ line, isBoundary char = false := by
  have items : ∀ (items : List Setting), (∀ setting ∈ items, setting ∈ settings) →
      ∀ line ∈ items.map Setting.line, ∀ char ∈ line, isBoundary char = false := by
    intro items listed line member
    obtain ⟨setting, there, rfl⟩ := mem_map.mp member
    exact (plain setting (listed setting there)).line_clean
  have waiting : ∀ current seen, ∀ setting ∈ pending settings current seen, setting ∈ settings :=
    fun _ _ _ member => (settingAt_some (mem_pending.mp member).2.1).1
  have rendered : ∀ lines : List Line, (∀ line ∈ lines, ∀ char ∈ line, isBoundary char = false) →
      ∀ current seen, ∀ line ∈ (mergeLines settings current seen lines).1, ∀ char ∈ line, isBoundary char = false := by
    intro lines
    induction lines with
    | nil => exact fun _ current seen => items _ (waiting current seen)
    | cons first rest ih =>
      intro clean current seen line member
      have tail := ih fun other there => clean other (mem_cons_of_mem _ there)
      rw [mergeLines] at member
      cases header : header? first with
      | some name =>
        rw [header] at member
        rcases mem_append.mp member with item | later
        · exact items _ (waiting current seen) line item
        · rcases mem_cons.mp later with rfl | behind
          · exact clean line mem_cons_self
          · exact tail _ _ line behind
      | none =>
        rw [header] at member
        cases wanted : wanted? settings current first with
        | some setting =>
          rw [wanted] at member
          dsimp only at member
          split at member
          · exact tail _ _ line member
          · rcases mem_cons.mp member with rfl | behind
            · exact (plain setting (wanted_place wanted).2).line_clean
            · exact tail _ _ line behind
        | none =>
          rw [wanted] at member
          rcases mem_cons.mp member with rfl | behind
          · exact clean line mem_cons_self
          · exact tail _ _ line behind
  have added : ∀ names : List Line, (∀ name ∈ names, name ∈ headings settings) → ∀ rendered : List Line,
      (∀ line ∈ rendered, ∀ char ∈ line, isBoundary char = false) →
        ∀ line ∈ names.foldl (addSection settings) rendered, ∀ char ∈ line, isBoundary char = false := by
    intro names
    induction names with
    | nil => exact fun _ _ clean => clean
    | cons name rest ih =>
      intro listed rendered clean
      refine ih (fun other member => listed other (mem_cons_of_mem _ member)) _ ?_
      intro line member
      rcases mem_append.mp member with before | behind
      · split at before
        · rcases mem_append.mp before with old | blank
          · exact clean line old
          · rw [mem_singleton.mp blank]
            exact fun _ impossible => by cases impossible
        · exact clean line before
      · rcases mem_cons.mp behind with rfl | item
        · obtain ⟨setting, there, rfl⟩ := mem_headings.mp (listed name mem_cons_self)
          exact (plain setting there).headingLine_clean
        · exact items _ (fun setting there => (settingAt_some (mem_itemsOf.mp there).1).1) line item
  exact added _ (fun name member => (mem_filter.mp member).1) _ (rendered lines clean none [])

theorem splitlines_merge (text : List Char) :
    splitlines (merge text settings) = endLines (mergedLines settings (splitlines text)) :=
  splitlines_end (mergedLines_clean plain fun _ member => splitlines_clean member)

theorem sectionValues_merge (text : List Char) :
    sectionValues (merge text settings) = override (sectionValues text) settings := by
  rw [sectionValues, splitlines_merge plain, scan_endLines, scan_mergedLines plain]
  rfl

theorem merge_merge (text : List Char) : merge (merge text settings) settings = merge text settings := by
  have strips : (joined (endLines (mergedLines settings (splitlines text)))).rdropWhile isSpace =
      (joined (mergedLines settings (splitlines text))).rdropWhile isSpace := by
    rw [(rstrip_joined (mergedLines settings (splitlines text))).1, endLines]
    split
    · next empty =>
      rw [empty]
      rfl
    · rw [← (rstrip_joined _).1, rdropWhile_idempotent]
  conv_lhs => rw [merge]
  rw [splitlines_merge plain, endLines_merged plain, strips]
  rfl

end Plain

end Dash.Presets
