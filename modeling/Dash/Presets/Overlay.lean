import Dash.Presets.Merge

/-! What merging settings does: an overlay of the values that keeps the other lines and changes
nothing the second time.
-/

set_option autoImplicit false

namespace Dash.Presets

open Dash.Python Dash.Foundation Dash.EnvFile List
open Function (update_apply update_of_ne update_self)

def settingAt (settings : List Setting) (place : Place) : Option Setting :=
  lastOf Setting.place settings place

def override (values : Values) (settings : List Setting) : Values := fun place =>
  match settingAt settings place with
  | some setting => some setting.value
  | none => values place

/-- A setting that is written as one line, and read back from it. -/
structure Setting.Plain (setting : Setting) : Prop where
  named : setting.heading ≠ []
  heading : ∀ char ∈ setting.heading, isBoundary char = false
  keyLine : ∀ char ∈ setting.key, isBoundary char = false ∧ char ≠ '='
  keyStart : ∀ char ∈ setting.key.head?, char ∉ [';', '#', '+', '-', '[']
  keyStripped : stripChars setting.key = setting.key
  valueLine : ∀ char ∈ setting.value, isBoundary char = false
  valueStripped : stripChars setting.value = setting.value

section Items

variable {settings : List Setting} {name : Line}

theorem itemsOf_keys : ((itemsOf settings name).map Setting.key).Nodup :=
  Table.upsertAll_keys nodup_nil

theorem find_itemsOf (key : Line) :
    ((itemsOf settings name).find? fun setting => setting.key = key) = settingAt settings (name, key) := by
  rw [itemsOf, Table.find_upsertAll, List.find?_nil, Option.or_none, lastOf, ← filter_reverse,
    List.find?_filter, settingAt, lastOf]
  refine congrArg (List.find? · settings.reverse) (funext fun setting => ?_)
  simp [Setting.place, Bool.decide_and]

variable {setting : Setting}

theorem settingAt_some {place : Place}
    (found : settingAt settings place = some setting) : setting ∈ settings ∧ setting.place = place :=
  ⟨mem_reverse.mp (List.mem_of_find?_eq_some found), Table.lastOf_key found⟩

theorem settingAt_listed {setting : Setting} (there : setting ∈ settings) :
    ∃ found, settingAt settings setting.place = some found := by
  cases found : settingAt settings setting.place with
  | some other => exact ⟨other, rfl⟩
  | none =>
    have nothing := List.find?_eq_none.mp found setting (mem_reverse.mpr there)
    simp at nothing

theorem mem_itemsOf : setting ∈ itemsOf settings name ↔
    settingAt settings setting.place = some setting ∧ setting.heading = name := by
  constructor
  · intro member
    have found := Table.find_mem itemsOf_keys member
    rw [find_itemsOf] at found
    have place := (settingAt_some found).2
    have heading : setting.heading = name := congrArg Prod.fst place
    subst heading
    exact ⟨found, rfl⟩
  · rintro ⟨found, rfl⟩
    exact List.mem_of_find?_eq_some ((find_itemsOf setting.key).trans found)

theorem wanted_some {line : Line} {current : Option Line} (found : wanted? settings current line = some setting) :
    current = some setting.heading ∧ setting ∈ itemsOf settings setting.heading ∧
      ∃ value, assignment? line = some (setting.key, value) := by
  unfold wanted? at found
  split at found
  · cases found
  · next name =>
    split at found
    · next assigned assigns =>
      have member := List.mem_of_find?_eq_some found
      obtain ⟨-, heading⟩ := mem_itemsOf.mp member
      have same := List.find?_some found
      rw [decide_eq_true_eq] at same
      subst heading
      exact ⟨rfl, member, assigned.2, by rw [assigns, same]⟩
    · cases found

end Items

theorem ends_of_stripped {text : List Char} (stripped : stripChars text = text) :
    text.dropWhile isSpace = text ∧ text.rdropWhile isSpace = text := by
  have short := (List.rdropWhile_prefix isSpace (text.dropWhile isSpace)).length_le
  have suffix := (dropWhile_suffix isSpace (l := text))
  rw [← stripChars, stripped] at short
  have whole : text.dropWhile isSpace = text := suffix.eq_of_length (by
    have := suffix.length_le
    omega)
  rw [stripChars, whole] at stripped
  exact ⟨whole, stripped⟩

theorem headingLine_header (name : Line) : header? (headingLine name) = some name := by
  have front : (headingLine name).dropWhile isSpace = headingLine name := dropWhile_cons_of_neg (by decide)
  have back : (headingLine name).rdropWhile isSpace = headingLine name := by
    unfold headingLine
    rw [← cons_append, rdropWhile_append]
    rfl
  unfold header?
  rw [stripChars, front, back, if_pos]
  · simp [headingLine]
  · constructor
    · rfl
    · rw [headingLine, ← cons_append, List.getLast?_append]
      rfl

namespace Setting.Plain

variable {setting : Setting} (plain : setting.Plain)
include plain

theorem key_equals : ∀ char ∈ setting.key, char ≠ '=' := fun char member => (plain.keyLine char member).2

theorem line_ends : setting.line.dropWhile isSpace = setting.line ∧ setting.line.rdropWhile isSpace = setting.line := by
  obtain ⟨front, -⟩ := ends_of_stripped plain.keyStripped
  obtain ⟨-, back⟩ := ends_of_stripped plain.valueStripped
  constructor
  · unfold Setting.line assign
    rw [dropWhile_append]
    cases letters : setting.key with
    | nil => rfl
    | cons char rest =>
      rw [letters] at front
      rw [front]
      rfl
  · unfold Setting.line assign
    have tail : ('=' :: setting.value).rdropWhile isSpace = '=' :: setting.value := by
      have split := rdropWhile_append ['='] setting.value
      rw [singleton_append] at split
      rw [split, back]
      split
      · next empty =>
        rw [empty]
        rfl
      · rfl
    rw [rdropWhile_append, tail, if_neg (cons_ne_nil _ _)]

theorem line_stripped : stripChars setting.line = setting.line := by
  rw [stripChars, plain.line_ends.1, plain.line_ends.2]

theorem line_start : ∀ char ∈ setting.line.head?, char ∉ [';', '#', '+', '-', '['] := by
  intro char first
  have start := plain.keyStart char
  unfold Setting.line assign at first
  cases letters : setting.key with
  | nil =>
    rw [letters, nil_append, List.head?_cons, Option.mem_some_iff] at first
    subst first
    decide
  | cons other rest =>
    rw [letters] at first start
    exact start first

theorem line_header : header? setting.line = none := by
  unfold header?
  rw [plain.line_stripped]
  refine if_neg fun bracketed => ?_
  exact plain.line_start '[' bracketed.1 (by decide)

theorem line_assigns : assignment? setting.line = some (setting.key, setting.value) := by
  have unmarked : marked setting.line = false := by
    rw [marked, plain.line_stripped]
    cases first : setting.line.head? with
    | none => rfl
    | some char =>
      have start := plain.line_start char first
      rw [Option.any_some, contains_eq_mem, decide_eq_false_iff_not]
      exact fun member => start (mem_append_left ['['] member)
  have equals : setting.line.contains '=' = true := by
    rw [contains_iff_mem]
    exact mem_append_right _ mem_cons_self
  unfold assignment?
  rw [if_pos ⟨unmarked, equals⟩, candidate, Setting.line, (assign_span plain.key_equals).1,
    (assign_span plain.key_equals).2, drop_one, tail_cons, plain.keyStripped,
    plain.valueStripped]

theorem line_clean : ∀ char ∈ setting.line, isBoundary char = false := by
  intro char member
  rcases mem_append.mp member with key | rest
  · exact (plain.keyLine char key).1
  · rcases mem_cons.mp rest with rfl | value
    · decide
    · exact plain.valueLine char value

theorem headingLine_clean : ∀ char ∈ headingLine setting.heading, isBoundary char = false := by
  intro char member
  rcases mem_cons.mp member with rfl | rest
  · decide
  · rcases mem_append.mp rest with name | last
    · exact plain.heading char name
    · rw [mem_singleton] at last
      subst last
      decide

end Setting.Plain

def notedAll (items : List Setting) (values : Values) : Values :=
  items.foldl (fun values setting => Function.update values setting.place (some setting.value)) values

def after : Option Line → List Line → Option Line
  | current, [] => current
  | current, line :: rest => after ((header? line).or current) rest

variable {current : Option Line}

theorem scan_header {values : Values} {line name : Line} {rest : List Line} (header : header? line = some name) :
    scan current values (line :: rest) = scan (some name) values rest := by
  simp only [scan, header]

variable {line : Line}

theorem scan_other {values : Values} {rest : List Line} (plain : header? line = none) :
    scan current values (line :: rest) = scan current (noted current values line) rest := by
  simp only [scan, plain]

theorem noted_some {name : Line} (named : name ≠ []) (values : Values)
    {assigned : Line × Line} (assigns : assignment? line = some assigned) :
    noted (some name) values line = Function.update values (name, assigned.1) (some assigned.2) := by
  simp [noted, assigns, if_neg named]

theorem scan_append (current : Option Line) (values : Values) (first second : List Line) :
    scan current values (first ++ second) = scan (after current first) (scan current values first) second := by
  induction first generalizing current values with
  | nil => rfl
  | cons line rest ih =>
    rw [cons_append, after]
    cases header : header? line with
    | some name => rw [scan_header header, scan_header header, ih, Option.some_or]
    | none => rw [scan_other header, scan_other header, ih, Option.none_or]

theorem scan_at {first second : Values} {place : Place} (same : first place = second place) (lines : List Line) :
    scan current first lines place = scan current second lines place := by
  induction lines generalizing current first second with
  | nil => exact same
  | cons line rest ih =>
    cases header : header? line with
    | some name =>
      rw [scan_header header, scan_header header]
      exact ih same
    | none =>
      rw [scan_other header, scan_other header]
      refine ih ?_
      cases current with
      | none => exact same
      | some name =>
        cases assigns : assignment? line with
        | none => simpa only [noted, assigns] using same
        | some assigned =>
          simp only [noted, assigns]
          split
          · exact same
          · rw [update_apply, update_apply, same]

section Merged

variable {settings : List Setting} (plain : ∀ setting ∈ settings, setting.Plain)
include plain

variable {items : List Setting} {name : Line}

theorem scan_items (own : ∀ setting ∈ items,
    setting ∈ settings ∧ setting.heading = name) (values : Values) (rest : List Line) :
    scan (some name) values (items.map Setting.line ++ rest) = scan (some name) (notedAll items values) rest := by
  induction items generalizing values with
  | nil => rfl
  | cons setting others ih =>
    obtain ⟨listed, rfl⟩ := own setting mem_cons_self
    have fine := plain setting listed
    rw [map_cons, cons_append, scan_other fine.line_header, noted_some fine.named _ fine.line_assigns,
      ih fun other later => own other (mem_cons_of_mem _ later)]
    rfl

variable {place : Place}

omit plain in
theorem notedAll_absent (values : Values)
    (absent : place ∉ items.map Setting.place) : notedAll items values place = values place := by
  induction items generalizing values with
  | nil => rfl
  | cons setting others ih =>
    rw [map_cons, mem_cons, not_or] at absent
    exact (ih _ absent.2).trans (update_of_ne absent.1 _ _)

variable {setting : Setting}

omit plain in
theorem notedAll_present (values : Values) (distinct : (items.map Setting.place).Nodup) (member : setting ∈ items) :
    notedAll items values setting.place = some setting.value := by
  induction items generalizing values with
  | nil => cases member
  | cons first others ih =>
    rw [map_cons, nodup_cons] at distinct
    rcases mem_cons.mp member with rfl | later
    · refine (notedAll_absent _ distinct.1).trans ?_
      exact update_self setting.place (some setting.value) values
    · exact ih _ distinct.2 later

omit plain in
theorem itemsOf_places (name : Line) : ((itemsOf settings name).map Setting.place).Nodup := by
  refine List.Nodup.of_map Prod.snd ?_
  rw [map_map]
  exact itemsOf_keys

variable {current : Option Line} {seen : List Place}

omit plain in
theorem mem_pending : setting ∈ pending settings current seen ↔
      current = some setting.heading ∧ settingAt settings setting.place = some setting ∧ setting.place ∉ seen := by
  cases current with
  | none => simp [pending]
  | some name =>
    rw [pending, mem_filter, mem_itemsOf, decide_eq_true_eq, Option.some.injEq, and_assoc]
    constructor
    · rintro ⟨found, rfl, fresh⟩
      exact ⟨rfl, found, fresh⟩
    · rintro ⟨rfl, found, fresh⟩
      exact ⟨found, rfl, fresh⟩

omit plain in
theorem pending_places (current : Option Line) (seen : List Place) :
    ((pending settings current seen).map Setting.place).Nodup := by
  cases current with
  | none => exact nodup_nil
  | some name => exact List.Nodup.sublist (filter_sublist.map _) (itemsOf_places name)

omit plain in
theorem mem_written : place ∈ written items seen ↔ place ∈ items.map Setting.place ∨ place ∈ seen := by
  induction items generalizing seen with
  | nil => simp [written]
  | cons setting others ih =>
    refine Iff.trans ih ?_
    rw [map_cons, mem_cons, mem_cons]
    tauto

omit plain in
/-- The place of a setting is pending when its section is the current one and it is not seen. -/
theorem pending_place (found : settingAt settings place = some setting) :
    place ∈ (pending settings current seen).map Setting.place ↔ current = some place.1 ∧ place ∉ seen := by
  have same := (settingAt_some found).2
  constructor
  · intro member
    obtain ⟨other, waiting, rfl⟩ := mem_map.mp member
    obtain ⟨here, -, fresh⟩ := mem_pending.mp waiting
    exact ⟨here, fresh⟩
  · rintro ⟨here, fresh⟩
    subst same
    exact mem_map_of_mem (mem_pending.mpr ⟨here, found, fresh⟩)

def Visits (name : Line) (current : Option Line) (lines : List Line) : Prop :=
  current = some name ∨ ∃ line ∈ lines, header? line = some name

variable {line : Line}

omit plain in
theorem visits_header {name other : Line} {rest : List Line} (header : header? line = some other) :
    Visits name current (line :: rest) ↔ current = some name ∨ Visits name (some other) rest := by
  simp [Visits, header]

omit plain in
theorem visits_other {rest : List Line}
    (none : header? line = none) : Visits name current (line :: rest) ↔ Visits name current rest := by
  simp [Visits, none]

omit plain in
/-- A line that assigns to no setting leaves the places of the settings. -/
theorem noted_unwanted
    (found : settingAt settings place = some setting) (unwanted : wanted? settings current line = none)
    (values : Values) : noted current values line place = values place := by
  cases current with
  | none => rfl
  | some name =>
    cases assigns : assignment? line with
    | none => simp [noted, assigns]
    | some assigned =>
      simp only [noted, assigns]
      split
      · rfl
      · refine update_of_ne (fun same => ?_) _ _
        subst same
        simp only [wanted?, assigns] at unwanted
        rw [find_itemsOf, found] at unwanted
        cases unwanted

omit plain in
theorem noted_apart (wanted : wanted? settings current line = some setting) (apart : place ≠ setting.place)
    (values : Values) : noted current values line place = values place := by
  obtain ⟨rfl, -, value, assigns⟩ := wanted_some wanted
  simp only [noted, assigns]
  split
  · rfl
  · exact update_of_ne apart _ _

omit plain in
theorem wanted_place (wanted : wanted? settings current line = some setting) :
    settingAt settings setting.place = some setting ∧ setting ∈ settings := by
  obtain ⟨-, member, -⟩ := wanted_some wanted
  have found := (mem_itemsOf.mp member).1
  exact ⟨found, (settingAt_some found).1⟩

theorem scan_merge (place : Place) (lines : List Line) (current : Option Line) (seen : List Place) (values : Values) :
    (settingAt settings place = none → scan current values (mergeLines settings current seen lines).1 place =
        scan current values lines place) ∧
    ∀ setting, settingAt settings place = some setting → (place ∈ seen ∨ ¬ Visits place.1 current lines →
        scan current values (mergeLines settings current seen lines).1 place = values place) ∧
      (place ∉ seen → Visits place.1 current lines →
        scan current values (mergeLines settings current seen lines).1 place = some setting.value) := by
  -- What the pending items say of a place, and of the places seen with them.
  have unnamed : ∀ current seen values, settingAt settings place = none →
      notedAll (pending settings current seen) values place = values place := by
    intro current seen values missing
    refine notedAll_absent _ fun member => ?_
    obtain ⟨other, waiting, rfl⟩ := mem_map.mp member
    rw [(mem_pending.mp waiting).2.1] at missing
    cases missing
  have named : ∀ current seen values setting, settingAt settings place = some setting →
      current = some place.1 → place ∉ seen →
        notedAll (pending settings current seen) values place = some setting.value := by
    intro current seen values setting found here fresh
    have same := (settingAt_some found).2
    subst same
    exact notedAll_present _ (pending_places current seen) (mem_pending.mpr ⟨here, found, fresh⟩)
  have other : ∀ current seen values setting, settingAt settings place = some setting →
      place ∈ seen ∨ current ≠ some place.1 → notedAll (pending settings current seen) values place = values place := by
    intro current seen values setting found aside
    refine notedAll_absent _ fun member => ?_
    obtain ⟨here, fresh⟩ := (pending_place found).mp member
    rcases aside with known | elsewhere
    · exact fresh known
    · exact elsewhere here
  have flushed : ∀ current seen values rest,
      scan current values ((pending settings current seen).map Setting.line ++ rest) =
        scan current (notedAll (pending settings current seen) values) rest := by
    intro current seen values rest
    cases current with
    | none => rfl
    | some name =>
      refine scan_items plain (fun setting member => ?_) values rest
      obtain ⟨here, found, -⟩ := mem_pending.mp member
      exact ⟨(settingAt_some found).1, (Option.some.inj here).symm⟩
  induction lines generalizing current seen values with
  | nil =>
    have last := flushed current seen values []
    rw [append_nil] at last
    rw [mergeLines]
    rw [last]
    refine ⟨unnamed current seen values, fun setting found => ⟨fun aside => ?_, fun fresh visits => ?_⟩⟩
    · refine other current seen values setting found (aside.imp_right fun unvisited here => ?_)
      exact unvisited (.inl here)
    · rcases visits with here | ⟨line, impossible, -⟩
      · exact named current seen values setting found here fresh
      · cases impossible
  | cons line rest ih =>
    rw [mergeLines]
    cases header : header? line with
    | some name =>
      rw [flushed, scan_header header, scan_header header]
      obtain ⟨unset, set_⟩ := ih (some name) (written (pending settings current seen) seen)
        (notedAll (pending settings current seen) values)
      refine ⟨fun missing => ?_, fun setting found => ⟨fun aside => ?_, fun fresh visits => ?_⟩⟩
      · rw [unset missing]
        exact scan_at (unnamed current seen values missing) rest
      · rw [visits_header header] at aside
        have elsewhere : place ∈ seen ∨ current ≠ some place.1 :=
          aside.imp_right fun unvisited here => unvisited (.inl here)
        rw [← other current seen values setting found elsewhere]
        refine (set_ setting found).1 (aside.imp (fun known => ?_) fun unvisited later => ?_)
        · exact mem_written.mpr (.inr known)
        · exact unvisited (.inr later)
      · by_cases here : current = some place.1
        · rw [(set_ setting found).1 (.inl (mem_written.mpr (.inl ((pending_place found).mpr ⟨here, fresh⟩))))]
          exact named current seen values setting found here fresh
        · refine (set_ setting found).2 (fun known => ?_) (((visits_header header).mp visits).resolve_left here)
          rcases mem_written.mp known with waiting | before
          · exact here ((pending_place found).mp waiting).1
          · exact fresh before
    | none =>
      dsimp only
      rw [visits_other header, scan_other header]
      cases wanted : wanted? settings current line with
      | some setting =>
        obtain ⟨own, listed⟩ := wanted_place wanted
        obtain ⟨here, -⟩ := wanted_some wanted
        dsimp only
        split
        · next known =>
          obtain ⟨unset, set_⟩ := ih current seen values
          refine ⟨fun missing => ?_, fun other_ found => set_ other_ found⟩
          rw [unset missing]
          refine scan_at (noted_apart wanted (fun same => ?_) values).symm rest
          rw [same, own] at missing
          cases missing
        · next fresh =>
          have fine := plain setting listed
          have named_ : noted current values setting.line =
              Function.update values setting.place (some setting.value) := by
            rw [here]
            exact noted_some fine.named _ fine.line_assigns
          rw [scan_other fine.line_header, named_]
          obtain ⟨unset, set_⟩ := ih current (setting.place :: seen)
            (Function.update values setting.place (some setting.value))
          by_cases same : place = setting.place
          · subst same
            refine ⟨fun missing => ?_, fun other_ found => ⟨fun aside => ?_, fun _ _ => ?_⟩⟩
            · rw [own] at missing
              cases missing
            · exact (aside.resolve_left fresh (.inl here)).elim
            · rw [(set_ other_ found).1 (.inl mem_cons_self), update_self]
              rw [own] at found
              cases found
              rfl
          · have kept : Function.update values setting.place (some setting.value) place = values place :=
              update_of_ne same _ _
            refine ⟨fun missing => ?_, fun other_ found => ⟨fun aside => ?_, fun unseen visits => ?_⟩⟩
            · rw [unset missing]
              exact scan_at (kept.trans (noted_apart wanted same values).symm) rest
            · rw [← kept]
              exact (set_ other_ found).1 (aside.imp_left (mem_cons_of_mem _))
            · refine (set_ other_ found).2 (fun known => ?_) visits
              rcases mem_cons.mp known with here_ | before
              · exact same here_
              · exact unseen before
      | none =>
        dsimp only
        rw [scan_other header]
        obtain ⟨unset, set_⟩ := ih current seen (noted current values line)
        refine ⟨unset, fun setting found => ?_⟩
        rw [noted_unwanted found wanted] at set_
        exact set_ setting found

omit plain in
theorem mem_headings : name ∈ headings settings ↔ ∃ setting ∈ settings, setting.heading = name := by
  induction settings with
  | nil => simp [headings]
  | cons setting rest ih =>
    rw [headings, mem_cons, mem_filter, ih, exists_mem_cons_iff, decide_eq_true_eq]
    constructor
    · rintro (rfl | ⟨found, -⟩)
      · exact .inl rfl
      · exact .inr found
    · rintro (rfl | found)
      · exact .inl rfl
      · by_cases same : name = setting.heading
        · exact .inl same
        · exact .inr ⟨found, same⟩

omit plain in
/-- Only places of visited sections are seen. -/
theorem mergeLines_seen (lines : List Line) :
    ∀ place ∈ (mergeLines settings current seen lines).2, place ∈ seen ∨ Visits place.1 current lines := by
  have waiting : ∀ {current : Option Line} {seen : List Place} {place : Place},
      place ∈ written (pending settings current seen) seen → place ∈ seen ∨ current = some place.1 := by
    intro current seen place member
    rcases mem_written.mp member with item | before
    · obtain ⟨setting, here, rfl⟩ := mem_map.mp item
      exact .inr (mem_pending.mp here).1
    · exact .inl before
  induction lines generalizing current seen with
  | nil => exact fun place member => (waiting member).imp_right .inl
  | cons line rest ih =>
    intro place member
    rw [mergeLines] at member
    cases header : header? line with
    | some name =>
      rw [header] at member
      rw [visits_header header]
      rcases ih place member with before | visits
      · exact (waiting before).imp_right .inl
      · exact .inr (.inr visits)
    | none =>
      rw [header] at member
      rw [visits_other header]
      cases wanted : wanted? settings current line with
      | some setting =>
        rw [wanted] at member
        dsimp only at member
        split at member
        · exact ih place member
        · rcases ih place member with before | visits
          · rcases mem_cons.mp before with rfl | known
            · exact .inr (.inl (wanted_some wanted).1)
            · exact .inl known
          · exact .inr visits
      | none =>
        rw [wanted] at member
        exact ih place member

omit plain in
theorem scan_blank (current : Option Line) (values : Values) (rest : List Line) :
    scan current values ([] :: rest) = scan current values rest := by
  have header : header? [] = none := by decide
  have assigns : assignment? [] = none := by decide
  rw [scan_other header]
  cases current with
  | none => rfl
  | some name => simp [noted, assigns]

theorem scan_addSection (rendered : List Line) (values : Values) :
    scan none values (addSection settings rendered name) =
      notedAll (itemsOf settings name) (scan none values rendered) := by
  have items : ∀ values, scan (some name) values ((itemsOf settings name).map Setting.line) =
      notedAll (itemsOf settings name) values := by
    intro values
    have own : ∀ setting ∈ itemsOf settings name, setting ∈ settings ∧ setting.heading = name := by
      intro setting member
      obtain ⟨found, heading⟩ := mem_itemsOf.mp member
      exact ⟨(settingAt_some found).1, heading⟩
    have whole := scan_items plain own values []
    rwa [append_nil] at whole
  unfold addSection
  dsimp only
  split
  · rw [append_assoc, scan_append, singleton_append, scan_blank, scan_header (headingLine_header name), items]
  · rw [scan_append, scan_header (headingLine_header name), items]

/-- The added sections say what the settings say of their places. -/
theorem scan_addSections (place : Place) (values : Values) (names : List Line) (rendered : List Line) :
    scan none values (names.foldl (addSection settings) rendered) place =
      match settingAt settings place with
      | some setting =>
        if place.1 ∈ names then some setting.value else scan none values rendered place
      | none => scan none values rendered place := by
  induction names generalizing rendered with
  | nil =>
    cases settingAt settings place with
    | none => rfl
    | some setting => exact (if_neg not_mem_nil).symm
  | cons name rest ih =>
    rw [foldl_cons, ih, scan_addSection plain]
    cases found : settingAt settings place with
    | none =>
      refine notedAll_absent _ fun member => ?_
      obtain ⟨setting, item, rfl⟩ := mem_map.mp member
      rw [(mem_itemsOf.mp item).1] at found
      cases found
    | some setting =>
      have same := (settingAt_some found).2
      dsimp only
      by_cases here : place.1 = name
      · rw [if_pos (mem_cons.mpr (.inl here))]
        split
        · rfl
        · subst same
          exact notedAll_present _ (itemsOf_places name) (mem_itemsOf.mpr ⟨found, here⟩)
      · have absent : place ∉ (itemsOf settings name).map Setting.place := by
          intro member
          obtain ⟨other, item, rfl⟩ := mem_map.mp member
          exact here (mem_itemsOf.mp item).2
        rw [notedAll_absent _ absent]
        simp [here]

/-- The merged lines say what the lines say, overridden by the settings. -/
theorem scan_mergedLines (lines : List Line) : scan none (fun _ => none) (mergedLines settings lines) =
      override (scan none (fun _ => none) lines) settings := by
  funext place
  obtain ⟨unset, set_⟩ := scan_merge plain place lines none [] fun _ => none
  unfold mergedLines addSections override
  rw [scan_addSections plain]
  cases found : settingAt settings place with
  | none => exact unset found
  | some setting =>
    obtain ⟨unvisited, visited⟩ := set_ setting found
    dsimp only
    split
    · rfl
    · next present =>
      refine visited not_mem_nil (Classical.byContradiction fun elsewhere => present ?_)
      obtain ⟨listed, same⟩ := settingAt_some found
      refine mem_filter.mpr ⟨mem_headings.mpr ⟨setting, listed, congrArg Prod.fst same⟩, ?_⟩
      rw [Bool.not_eq_true', any_eq_false]
      intro other member here
      rw [decide_eq_true_eq] at here
      rcases mergeLines_seen lines other member with impossible | visits
      · cases impossible
      · exact elsewhere (here ▸ visits)

end Merged

theorem rdropWhile_split (line : Line) : ∃ space, line = line.rdropWhile isSpace ++ space ∧
    ∀ char ∈ space, isSpace char = true := by
  refine ⟨line.rtakeWhile isSpace, rdropWhile_append_rtakeWhile.symm, ?_⟩
  intro char member
  exact mem_rtakeWhile_imp member

theorem stripChars_rstrip (line : Line) : stripChars (line.rdropWhile isSpace) = stripChars line := by
  obtain ⟨space, split, blank⟩ := rdropWhile_split line
  have nothing : space.rdropWhile isSpace = [] := rdropWhile_eq_nil_iff.mpr blank
  conv_rhs => rw [split]
  unfold stripChars
  rw [dropWhile_append]
  split
  · next empty =>
    have front : (line.rdropWhile isSpace).dropWhile isSpace = [] := by simpa using empty
    rw [front, dropWhile_eq_nil_iff.mpr blank]
  · rw [rdropWhile_append, if_pos nothing]

theorem header_rstrip (line : Line) : header? (line.rdropWhile isSpace) = header? line := by
  unfold header?
  rw [stripChars_rstrip]

theorem dropWhile_first {start rest : Line} (equals : '=' ∈ start) :
    (start ++ rest).dropWhile (fun char => char ≠ '=') = start.dropWhile (fun char => char ≠ '=') ++ rest := by
  rw [dropWhile_append, if_neg]
  rw [List.isEmpty_iff, dropWhile_eq_nil_iff]
  intro none
  simpa using none '=' equals

theorem assignment_rstrip (line : Line) : assignment? (line.rdropWhile isSpace) = assignment? line := by
  obtain ⟨space, split, blank⟩ := rdropWhile_split line
  have marks : marked (line.rdropWhile isSpace) = marked line := by
    rw [marked, stripChars_rstrip, marked]
  have equals : (line.rdropWhile isSpace).contains '=' = line.contains '=' := by
    conv_rhs => rw [split]
    have none : space.contains '=' = false := by
      rw [contains_eq_mem, decide_eq_false_iff_not]
      exact fun member => absurd (blank '=' member) (by decide)
    rw [contains_append, none, Bool.or_false]
  unfold assignment?
  rw [marks, equals]
  split
  · next assigns =>
    have here : '=' ∈ line.rdropWhile isSpace := by
      have found := assigns.2
      rw [← equals, contains_iff_mem] at found
      exact found
    obtain ⟨others, behind⟩ : ∃ others, (line.rdropWhile isSpace).dropWhile (fun char => char ≠ '=') =
        '=' :: others := by
      cases found : (line.rdropWhile isSpace).dropWhile (fun char => char ≠ '=') with
      | nil =>
        rw [dropWhile_eq_nil_iff] at found
        exact absurd (found '=' here) (by simp)
      | cons char others =>
        have first := head_dropWhile_not (fun char : Char => decide (char ≠ '=')) (l := line.rdropWhile isSpace)
          (by rw [found]; exact cons_ne_nil _ _)
        simp only [found, head_cons] at first
        exact ⟨others, by simpa using first⟩
    have tail : stripChars (others ++ space) = stripChars others := by
      have same := stripChars_rstrip (others ++ space)
      rw [rdropWhile_append, if_pos (rdropWhile_eq_nil_iff.mpr blank), stripChars_rstrip] at same
      exact same.symm
    have whole : line.dropWhile (fun char => char ≠ '=') = '=' :: (others ++ space) := by
      conv_lhs => rw [split]
      rw [dropWhile_first here, behind, cons_append]
    have keys : candidate line = candidate (line.rdropWhile isSpace) := by
      rw [candidate, candidate]
      conv_lhs => rw [split]
      rw [takeWhile_first here]
    rw [keys, whole, behind, drop_one, tail_cons, drop_one, tail_cons, tail]
  · rfl

theorem noted_rstrip (current : Option Line) (values : Values) (line : Line) :
    noted current values (line.rdropWhile isSpace) = noted current values line := by
  unfold noted
  rw [assignment_rstrip]

theorem blank_line (blank : line.rdropWhile isSpace = []) : header? line = none ∧ assignment? line = none := by
  rw [← header_rstrip, ← assignment_rstrip, blank]
  decide

theorem scan_trimEnd (lines : List Line) (current : Option Line) (values : Values) :
    scan current values (trimEnd lines) = scan current values lines := by
  induction lines generalizing current values with
  | nil => rfl
  | cons line rest ih =>
    by_cases found : trimEnd rest = []
    · rw [found] at ih
      have last : scan current values (line :: rest) = scan current values [line] := by
        cases header : header? line with
        | some name => rw [scan_header header, scan_header header, ih]
        | none => rw [scan_other header, scan_other header, ih]
      rw [trimEnd_none found, last]
      split
      · next blank =>
        obtain ⟨header, assigns⟩ := blank_line blank
        rw [scan_other header]
        cases current with
        | none => rfl
        | some name => simp [noted, assigns]
      · cases header : header? line with
        | some name => rw [scan_header header, scan_header ((header_rstrip line).trans header)]
        | none =>
          rw [scan_other header, scan_other ((header_rstrip line).trans header), noted_rstrip]
    · rw [trimEnd_some found]
      cases header : header? line with
      | some name => rw [scan_header header, scan_header header, ih]
      | none => rw [scan_other header, scan_other header, ih]

theorem scan_endLines (lines : List Line) (values : Values) :
    scan none values (endLines lines) = scan none values lines := by
  rw [← scan_trimEnd lines, endLines]
  split
  · next empty => rw [empty, scan_blank]
  · rfl

end Dash.Presets
