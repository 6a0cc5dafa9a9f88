import Dash.EnvFile.Rendering
import Dash.Python.Plain
import Mathlib.Algebra.Order.BigOperators.Group.List

/-! When an update touches exactly the keys it was asked to.

`splitlines` ends a line at characters the shell keeps in it. A file line or a value with
one of them is taken apart by an update.
-/

set_option autoImplicit false

namespace Dash.EnvFile

open Dash.Python Dash.Foundation List

variable {F : Type}

/-- Only the requested keys changed: each has its value once, the other keys have the values
they had, and comments and other lines are kept. -/
structure Touched (requested : List (String × String)) (before after : String) : Prop where
  exactly : ∀ entry ∈ requested, assigned entry.1.toList (shellLines after) = [entry.2.toList]
  others : ∀ key, (∀ entry ∈ requested, entry.1.toList ≠ key) →
    assigned key (shellLines after) = assigned key (shellLines before)
  kept : (shellLines after).filter isOther = (shellLines before).filter isOther

/-- The requested values outlast the same update made again, and an update of other keys. -/
structure Lasting (rt : Runtime F) (updates : List (Value F × Value F))
    (requested : List (String × String)) (after : String) : Prop where
  repeated : ∀ maxBytes again, updateValues rt after updates maxBytes = .ok again →
    ∀ entry ∈ requested, assigned entry.1.toList (shellLines again) = [entry.2.toList]
  later : ∀ others wanted maxBytes again, validateUpdates rt others = .ok wanted →
    updateValues rt after others maxBytes = .ok again →
    ∀ entry ∈ requested, entry.1 ∉ wanted.map Prod.fst →
      assigned entry.1.toList (shellLines again) = [entry.2.toList]

def Asked (requested : List (String × String)) (line : Line) : Prop :=
  isOther line = false ∧ wanted? requested (candidate line) ≠ none

/-- A line of the file is one line for `splitlines` too, or only assignments of requested keys. -/
def Readable (requested : List (String × String)) (before : String) : Prop :=
  ∀ entry ∈ pieces isBoundary before.toList, entry.2 = [entry.1] ∨ ∀ part ∈ entry.2, Asked requested part

/-- No requested value ends a line for `splitlines`. -/
def Clean (requested : List (String × String)) : Prop :=
  ∀ entry ∈ requested, ∀ char ∈ entry.2.toList, isBoundary char = false

section Lines

variable {requested : List (String × String)}

theorem takeWhile_first {start rest : Line} (equals : '=' ∈ start) :
    (start ++ rest).takeWhile (fun char => char ≠ '=') = start.takeWhile fun char => char ≠ '=' := by
  rw [takeWhile_append, if_neg]
  intro whole
  have all := takeWhile_eq_self_iff.mp (List.IsPrefix.eq_of_length (List.takeWhile_prefix _) whole)
  simpa using all '=' equals

theorem first_part {start rest : Line} (equals : '=' ∈ start) :
    isOther (start ++ rest) = isOther start ∧ candidate (start ++ rest) = candidate start := by
  have found : start.dropWhile isSpace ≠ [] := by
    rw [Ne, dropWhile_eq_nil_iff]
    intro blank
    exact absurd (blank '=' equals) (by decide)
  have left : (start ++ rest).dropWhile isSpace = start.dropWhile isSpace ++ rest := by
    rw [dropWhile_append, if_neg (by simpa using found)]
  constructor
  · cases head : start.dropWhile isSpace with
    | nil => exact absurd head found
    | cons char others => simp [isOther, left, head, equals]
  · rw [candidate, candidate, takeWhile_first equals]

theorem not_other_equals {line : Line} (assignment : isOther line = false) : '=' ∈ line := by
  simp only [isOther, Bool.or_eq_false_iff] at assignment
  simpa using assignment.2

variable {parts : List Line}

theorem asked_whole {line : Line} (piece : Piece isBoundary line parts)
    (asked : ∀ part ∈ parts, Asked requested part) : Asked requested line := by
  obtain ⟨rest, found⟩ := piece.first
  have first := asked _ (found ▸ mem_cons_self)
  have same := @first_part _ (line.dropWhile fun char => !isBoundary char) (not_other_equals first.1)
  rw [takeWhile_append_dropWhile] at same
  exact ⟨same.1.trans first.1, same.2 ▸ first.2⟩

theorem asked_filter (asked : ∀ part ∈ parts, Asked requested part) : parts.filter isOther = [] := by
  rw [filter_eq_nil_iff]
  exact fun part member => by simp [(asked part member).1]

theorem asked_assigned (asked : ∀ part ∈ parts, Asked requested part)
    {key : List Char} (free : wanted? requested key = none) : assigned key parts = [] := by
  rw [assigned, filterMap_eq_nil_iff]
  intro part member
  apply assignedBy_other
  rintro rfl
  exact (asked part member).2 free

/-- Lines with requested keys alone do not show in either reading. -/
theorem readings_same {entries : List (Line × List Line)} (fine : ∀ entry ∈ entries, entry.2 = [entry.1] ∨
      Asked requested entry.1 ∧ ∀ part ∈ entry.2, Asked requested part) :
    (entries.flatMap Prod.snd).filter isOther = (entries.map Prod.fst).filter isOther ∧
      ∀ key, wanted? requested key = none →
        assigned key (entries.flatMap Prod.snd) = assigned key (entries.map Prod.fst) := by
  induction entries with
  | nil => exact ⟨rfl, fun _ _ => rfl⟩
  | cons entry rest ih =>
    obtain ⟨others, free⟩ := ih fun other member => fine other (mem_cons_of_mem _ member)
    rw [flatMap_cons, map_cons]
    rcases fine entry mem_cons_self with same | ⟨line, parts⟩
    · refine ⟨?_, fun key unasked => ?_⟩
      · rw [same, singleton_append, filter_cons, filter_cons, others]
      · rw [same, singleton_append, assigned_cons, assigned_cons, free key unasked]
    · refine ⟨?_, fun key unasked => ?_⟩
      · rw [filter_append, asked_filter parts, others, filter_cons_of_neg (by simp [line.1])]
        rfl
      · rw [assigned_append, asked_assigned parts unasked, free key unasked, assigned_cons,
          assignedBy_other fun same => line.2 (same ▸ unasked)]
        rfl

end Lines

section Shares

variable {β : Type} {share : List Line → List β}
  (append : ∀ first second, share (first ++ second) = share first ++ share second)
  (empty : share [] = [])
include append empty

theorem share_le {entries : List (Line × List Line)}
    (least : ∀ entry ∈ entries, (share [entry.1]).length ≤ (share entry.2).length) :
    (share (entries.map Prod.fst)).length ≤ (share (entries.flatMap Prod.snd)).length := by
  induction entries with
  | nil => simp [empty]
  | cons entry rest ih =>
    have tail := ih fun other member => least other (mem_cons_of_mem _ member)
    have head := least entry mem_cons_self
    rw [map_cons, flatMap_cons, append, ← singleton_append, append]
    simp only [length_append]
    omega

theorem share_eq {entries : List (Line × List Line)}
    (least : ∀ entry ∈ entries, (share [entry.1]).length ≤ (share entry.2).length)
    (total : (share (entries.flatMap Prod.snd)).length ≤ (share (entries.map Prod.fst)).length) :
    ∀ entry ∈ entries, (share entry.2).length = (share [entry.1]).length := by
  induction entries with
  | nil => exact fun entry member => nomatch member
  | cons first rest ih =>
    have later := fun other member => least other (mem_cons_of_mem first member)
    have tail := share_le append empty later
    have head := least first mem_cons_self
    rw [map_cons, flatMap_cons, append, ← singleton_append, append] at total
    simp only [length_append] at total
    intro entry member
    rcases mem_cons.mp member with rfl | within
    · omega
    · exact ih later (by omega) entry within

end Shares

section Update

variable {requested : List (String × String)} {before : String}

theorem wanted_iff {key : List Char} : (∀ entry ∈ requested, entry.1.toList ≠ key) ↔ wanted? requested key = none :=
  wanted_none.symm

theorem readable_same (readable : Readable requested before) :
    (splitlines before.toList).filter isOther = (shellLines before).filter isOther ∧
      ∀ key, wanted? requested key = none →
        assigned key (splitlines before.toList) = assigned key (shellLines before) := by
  rw [splitlines, shellLines, ← pieces_snd isBoundary_newline, ← @pieces_fst isBoundary]
  apply readings_same
  intro entry member
  rcases readable entry member with same | asked
  · exact .inl same
  · exact .inr ⟨asked_whole (pieces_piece _ entry member) asked, asked⟩

/-- A line ends nowhere if its first part has the equals sign, and its value was read. -/
theorem clean_line {line : Line} {key : List Char} {lines : List Line}
    (first : isOther (line.takeWhile fun char => !isBoundary char) = false)
    (value : (line.dropWhile fun char => char ≠ '=').drop 1 ∈ assigned key lines)
    (clean : ∀ line ∈ lines, ∀ char ∈ line, isBoundary char = false) :
    ∀ char ∈ line, isBoundary char = false := by
  obtain ⟨read, member, found⟩ := mem_filterMap.mp value
  have valueClean : ∀ char ∈ (line.dropWhile fun char => char ≠ '=').drop 1, isBoundary char = false := by
    unfold assignedBy at found
    split at found
    · cases found
    · split at found
      · intro char within
        rw [← Option.some.inj found] at within
        exact clean read member char ((dropWhile_suffix _).subset (mem_of_mem_drop within))
      · cases found
  have named : ∀ char ∈ line.takeWhile (fun char => char ≠ '='), isBoundary char = false := by
    have same := @takeWhile_first _ (line.dropWhile fun char => !isBoundary char) (not_other_equals first)
    rw [takeWhile_append_dropWhile] at same
    intro char within
    rw [same] at within
    simpa using mem_takeWhile_imp ((List.takeWhile_prefix _).subset within)
  intro char within
  rw [← takeWhile_append_dropWhile (p := fun char => decide (char ≠ '=')) (l := line)] at within
  rcases mem_append.mp within with left | right
  · exact named char left
  · cases rest : line.dropWhile fun char => decide (char ≠ '=') with
    | nil =>
      rw [rest] at right
      cases right
    | cons head others =>
      have equals := List.head?_dropWhile_not (fun char => decide (char ≠ '=')) line
      rw [rest] at equals right valueClean
      rcases mem_cons.mp right with rfl | later
      · have same : char = '=' := by simpa using equals
        rw [same]
        decide
      · exact valueClean char later

theorem readable_of_same (others : (splitlines before.toList).filter isOther = (shellLines before).filter isOther)
    (free : ∀ key, wanted? requested key = none →
      assigned key (splitlines before.toList) = assigned key (shellLines before)) :
    Readable requested before := by
  have piece := @pieces_piece isBoundary before.toList
  have fine : ∀ entry ∈ pieces isBoundary before.toList, entry.1 ∈ shellLines before := by
    intro entry member
    rw [shellLines, ← @pieces_fst isBoundary]
    exact mem_map_of_mem member
  -- another line is found again, so nothing in it ends a line
  have otherWhole : ∀ entry ∈ pieces isBoundary before.toList, isOther entry.1 = true → entry.2 = [entry.1] := by
    intro entry member other
    have found : entry.1 ∈ (splitlines before.toList).filter isOther :=
      others ▸ mem_filter.mpr ⟨fine entry member, other⟩
    exact (piece entry member).whole (splitlines_clean (mem_filter.mp found).1)
  have shell : (pieces isBoundary before.toList).map Prod.fst = shellLines before := pieces_fst before.toList
  have fineLines : (pieces isBoundary before.toList).flatMap Prod.snd = splitlines before.toList :=
    pieces_snd isBoundary_newline before.toList
  -- so the parts of an assignment hold no other line
  have noOther : ∀ entry ∈ pieces isBoundary before.toList, isOther entry.1 = false → entry.2.filter isOther = [] := by
    intro entry member assignment
    have least : ∀ entry ∈ pieces isBoundary before.toList,
        ([entry.1].filter isOther).length ≤ (entry.2.filter isOther).length := by
      intro entry member
      by_cases other : isOther entry.1 = true
      · rw [otherWhole entry member other]
      · rw [filter_cons_of_neg other]
        exact Nat.zero_le _
    have counts := share_eq (fun _ _ => filter_append ..) rfl least (by rw [fineLines, shell, others]) entry member
    rw [filter_cons_of_neg (by simp [assignment])] at counts
    exact length_eq_zero_iff.mp counts
  -- a key that was not asked for has all of its line before the first end
  have freeWhole : ∀ entry ∈ pieces isBoundary before.toList, isOther entry.1 = false →
      wanted? requested (candidate entry.1) = none → entry.2 = [entry.1] := by
    intro entry member assignment unasked
    obtain ⟨rest, found⟩ := (piece entry member).first
    have first : isOther (entry.1.takeWhile fun char => !isBoundary char) = false := by
      by_contra other
      have present := mem_filter.mpr ⟨found ▸ mem_cons_self, Bool.eq_true_of_not_eq_false other⟩
      rw [noOther entry member assignment] at present
      cases present
    have value : (entry.1.dropWhile fun char => char ≠ '=').drop 1 ∈
        assigned (candidate entry.1) (splitlines before.toList) := by
      rw [free _ unasked]
      refine mem_filterMap.mpr ⟨entry.1, fine entry member, ?_⟩
      rw [assignedBy, assignment, if_neg Bool.false_ne_true, if_pos rfl]
    apply (piece entry member).whole
    exact clean_line first value fun line present => splitlines_clean present
  intro entry member
  cases assignment : isOther entry.1 with
  | true => exact .inl (otherWhole entry member assignment)
  | false =>
    cases asked : wanted? requested (candidate entry.1) with
    | none => exact .inl (freeWhole entry member assignment asked)
    | some value =>
      refine .inr fun part within => ?_
      have plain : isOther part = false := by
        by_contra other
        have present := mem_filter.mpr ⟨within, Bool.eq_true_of_not_eq_false other⟩
        rw [noOther entry member assignment] at present
        cases present
      refine ⟨plain, fun unasked => ?_⟩
      -- the part would add a value of its key
      have least : ∀ entry ∈ pieces isBoundary before.toList, (assigned (candidate part) [entry.1]).length ≤
            (assigned (candidate part) entry.2).length := by
        intro entry member
        by_cases named : isOther entry.1 = false ∧ candidate entry.1 = candidate part
        · rw [freeWhole entry member named.1 (named.2 ▸ unasked)]
        · have none : assignedBy (candidate part) entry.1 = none := by
            cases found : assignedBy (candidate part) entry.1 with
            | none => rfl
            | some value => exact absurd (assignedBy_some found) named
          rw [assigned_cons, none]
          exact Nat.zero_le _
      have counts := share_eq (assigned_append _) rfl least (by rw [fineLines, shell, free _ unasked]) entry member
      have apart : candidate entry.1 ≠ candidate part := by
        intro same
        rw [same, unasked] at asked
        cases asked
      rw [assigned_cons, assignedBy_other apart] at counts
      have present : (part.dropWhile fun char => char ≠ '=').drop 1 ∈ assigned (candidate part) entry.2 := by
        refine mem_filterMap.mpr ⟨part, within, ?_⟩
        rw [assignedBy, plain, if_neg Bool.false_ne_true, if_pos rfl]
      rw [length_eq_zero_iff.mp counts] at present
      cases present

variable {rt : Runtime F} {updates : List (Value F × Value F)} {after : String} {maxBytes : Nat}
  (valid : validateUpdates rt updates = .ok requested)
  (success : updateValues rt before updates maxBytes = .ok after)

include valid success

theorem touched_iff : Touched requested before after ↔ Readable requested before := by
  have accepted := validateUpdates_ok valid
  have written := shellLines_update valid success
  obtain ⟨others, free, exactly⟩ := rendered_kept accepted (splitlines before.toList)
  constructor
  · intro touched
    apply readable_of_same
    · rw [← others, ← written, touched.kept]
    · intro key unasked
      rw [← free key unasked, ← written, touched.others key (wanted_iff.mpr unasked)]
  · intro readable
    obtain ⟨sameOthers, sameFree⟩ := readable_same readable
    refine ⟨fun entry member => ?_, fun key apart => ?_, ?_⟩
    · rw [written, exactly entry member]
    · have unasked := wanted_iff.mp apart
      rw [written, free key unasked, sameFree key unasked]
    · rw [written, others, sameOthers]

omit success in
/-- Making an update again gives its values again. -/
theorem repeated_exactly {again : String} (success : updateValues rt after updates maxBytes = .ok again) :
    ∀ entry ∈ requested, assigned entry.1.toList (shellLines again) = [entry.2.toList] := by
  rw [shellLines_update valid success]
  exact (rendered_kept (validateUpdates_ok valid) _).2.2

theorem later_exactly (clean : Clean requested) {others : List (Value F × Value F)}
    {wanted : List (String × String)} {limit : Nat} {again : String}
    (otherValid : validateUpdates rt others = .ok wanted)
    (otherSuccess : updateValues rt after others limit = .ok again) :
    ∀ entry ∈ requested, entry.1 ∉ wanted.map Prod.fst →
      assigned entry.1.toList (shellLines again) = [entry.2.toList] := by
  intro entry member apart
  have accepted := validateUpdates_ok valid
  have unasked : wanted? wanted entry.1.toList = none := by
    apply wanted_none.mpr
    intro other present same
    exact apart (String.toList_inj.mp same ▸ mem_map_of_mem present)
  rw [shellLines_update otherValid otherSuccess,
    (rendered_kept (validateUpdates_ok otherValid) _).2.1 _ unasked, (updateValues_ok valid success).1,
    String.toList_ofList, splitlines_rendered accepted _ clean]
  exact (rendered_kept accepted _).2.2 entry member

/-- The next update reads a requested value up to its first line end. -/
theorem value_read {entry : String × String} (member : entry ∈ requested) :
    (entry.2.toList.takeWhile fun char => !isBoundary char) ∈ assigned entry.1.toList (splitlines after.toList) := by
  have accepted := validateUpdates_ok valid
  have written := shellLines_update valid success
  have value : entry.2.toList ∈ assigned entry.1.toList (shellLines after) := by
    rw [written, (rendered_kept accepted _).2.2 entry member]
    exact mem_cons_self
  obtain ⟨line, present, found⟩ := mem_filterMap.mp value
  rw [shellLines, ← @pieces_fst isBoundary] at present
  obtain ⟨piece, within, same⟩ := mem_map.mp present
  obtain ⟨rest, first⟩ := (pieces_piece _ piece within).first
  have read : line.takeWhile (fun char => !isBoundary char) ∈ splitlines after.toList := by
    rw [splitlines, ← pieces_snd isBoundary_newline, mem_flatMap]
    exact ⟨piece, within, by rw [first, same]; exact mem_cons_self⟩
  have rendering : line ∈ rendered requested (splitlines before.toList) := by
    rw [← written, shellLines, ← @pieces_fst isBoundary]
    exact mem_map.mpr ⟨piece, within, same⟩
  refine mem_filterMap.mpr ⟨_, read, ?_⟩
  rcases rendered_mem rendering with old | ⟨other, asked, rfl⟩
  · -- a line that was kept has no end in it
    have clean := splitlines_clean old
    have whole : line.takeWhile (fun char => !isBoundary char) = line :=
      takeWhile_eq_self_iff.mpr fun char inside => by simp [clean char inside]
    have suffix : ∀ char ∈ entry.2.toList, isBoundary char = false := by
      intro char inside
      obtain ⟨assignment, named⟩ := assignedBy_some found
      rw [assignedBy, assignment, if_neg Bool.false_ne_true, if_pos named] at found
      rw [← Option.some.inj found] at inside
      exact clean char ((dropWhile_suffix _).subset (mem_of_mem_drop inside))
    have all : entry.2.toList.takeWhile (fun char => !isBoundary char) = entry.2.toList :=
      takeWhile_eq_self_iff.mpr fun char inside => by simp [suffix char inside]
    rw [whole, all, found]
  · have formedOther := accepted.keys other asked
    rw [assignedBy_assign formedOther] at found
    split at found
    · next sameKey =>
      rw [takeWhile_value formedOther, assignedBy_assign formedOther, if_pos sameKey, Option.some.inj found]
    · cases found

end Update

def unusedKey (requested : List (String × String)) : String :=
  String.ofList (List.replicate ((requested.map fun entry => entry.1.toList.length).sum + 1) '_')

theorem unusedKey_valid (requested : List (String × String)) : isKey (unusedKey requested) = true := by
  rw [isKey, unusedKey, String.toList_ofList, replicate_succ]
  simp [isLetter]

variable {requested : List (String × String)}

theorem unusedKey_apart {entry : String × String} (member : entry ∈ requested) : entry.1 ≠ unusedKey requested := by
  intro same
  have lengths := congrArg (fun key : String => key.toList.length) same
  have bound : entry.1.toList.length ≤ (requested.map fun entry => entry.1.toList.length).sum :=
    single_le_sum (fun _ _ => Nat.zero_le _) _
      (mem_map_of_mem (f := fun entry : String × String => entry.1.toList.length) member)
  simp only [unusedKey, String.toList_ofList, length_replicate] at lengths
  omega

theorem unused_requested (rt : Runtime F) (requested : List (String × String)) :
    validateUpdates rt [(.str (unusedKey requested), .str "")] = .ok [(unusedKey requested, "")] := by
  simp [validateUpdates, validateEach, Runtime.str, unusedKey_valid, bind, Except.bind]

variable {rt : Runtime F}

variable {updates : List (Value F × Value F)} {before after : String} {maxBytes : Nat}

theorem clean_of_lasting (valid : validateUpdates rt updates = .ok requested)
    (success : updateValues rt before updates maxBytes = .ok after)
    (lasting : Lasting rt updates requested after) : Clean requested := by
  intro entry member
  have other := unused_requested rt requested
  have silent : Char.ofNat 0 ∉ after.toList := by
    have sound := (updateValues_ok valid success).2.2
    simp only [validatePayload, result_refuse] at sound
    simpa using sound.2.1
  obtain ⟨limit, again, written⟩ := updateValues_written other silent
  have apart : entry.1 ≠ unusedKey requested := unusedKey_apart member
  have stays := lasting.later _ _ limit again other written entry member (by simpa using apart)
  -- what the next update read of the value is all that is left
  have unasked : wanted? [(unusedKey requested, "")] entry.1.toList = none :=
    wanted_none.mpr fun found present same => by
      rw [mem_singleton.mp present] at same
      exact apart (String.toList_inj.mp same).symm
  have read := value_read valid success member
  rw [shellLines_update other written, (rendered_kept (validateUpdates_ok other) _).2.1 _ unasked] at stays
  rw [stays, mem_singleton] at read
  intro char within
  simpa using takeWhile_eq_self_iff.mp read char within

def apply (rt : Runtime F) (text : String) (update : List (Value F × Value F) × Nat) : String :=
  match updateValues rt text update.1 update.2 with
  | .ok after => after
  | .error _ => text

def OneReading (text : String) : Prop := splitlines text.toList = shellLines text

theorem oneReading_update (valid : validateUpdates rt updates = .ok requested)
    (success : updateValues rt before updates maxBytes = .ok after) (clean : Clean requested) :
    OneReading after := by
  rw [OneReading, shellLines_update valid success, (updateValues_ok valid success).1, String.toList_ofList]
  exact splitlines_rendered (validateUpdates_ok valid) _ clean

/-- Updates of other keys with clean values keep a value, however many follow. -/
theorem run_exactly {key : String} {values : List (List Char)} (laters : List (List (Value F × Value F) × Nat))
    (others : ∀ later ∈ laters, ∀ wanted, validateUpdates rt later.1 = .ok wanted →
      Clean wanted ∧ key ∉ wanted.map Prod.fst) {text : String} (one : OneReading text)
    (start : assigned key.toList (shellLines text) = values) :
    assigned key.toList (shellLines (laters.foldl (apply rt) text)) = values := by
  induction laters generalizing text with
  | nil => exact start
  | cons later rest ih =>
    have tail := fun other member => others other (mem_cons_of_mem later member)
    rw [foldl_cons]
    unfold apply
    cases outcome : updateValues rt text later.1 later.2 with
    | error why => exact ih tail one start
    | ok after =>
      cases valid : validateUpdates rt later.1 with
      | error why =>
        rw [updateValues, valid] at outcome
        cases outcome
      | ok wanted =>
        obtain ⟨clean, apart⟩ := others later mem_cons_self wanted valid
        have unasked : wanted? wanted key.toList = none :=
          wanted_none.mpr fun entry member same =>
            apart (String.toList_inj.mp same ▸ mem_map_of_mem member)
        apply ih tail (oneReading_update valid outcome clean)
        rw [shellLines_update valid outcome, (rendered_kept (validateUpdates_ok valid) _).2.1 _ unasked, one, start]

/-- An update touches exactly its keys, and its values last, if and only if the file can be read
and no value ends a line. Then they outlast every run of such updates of other keys. -/
theorem update_exact_iff {rt : Runtime F} {updates : List (Value F × Value F)}
    {requested : List (String × String)} {before after : String} {maxBytes : Nat}
    (valid : validateUpdates rt updates = .ok requested)
    (success : updateValues rt before updates maxBytes = .ok after) :
    (Touched requested before after ∧ Lasting rt updates requested after ↔
      Readable requested before ∧ Clean requested) ∧
    (Clean requested → ∀ laters : List (List (Value F × Value F) × Nat), ∀ entry ∈ requested,
      (∀ later ∈ laters, ∀ wanted, validateUpdates rt later.1 = .ok wanted →
        Clean wanted ∧ entry.1 ∉ wanted.map Prod.fst) →
      assigned entry.1.toList (shellLines (laters.foldl (apply rt) after)) = [entry.2.toList]) := by
  have exactly := (rendered_kept (validateUpdates_ok valid) (splitlines before.toList)).2.2
  refine ⟨⟨fun both => ?_, fun both => ?_⟩, fun clean laters entry member others => ?_⟩
  · exact ⟨(touched_iff valid success).mp both.1, clean_of_lasting valid success both.2⟩
  · refine ⟨(touched_iff valid success).mpr both.1, ⟨?_, ?_⟩⟩
    · exact fun _ _ written => repeated_exactly valid written
    · exact fun _ _ _ _ other written => later_exactly valid success both.2 other written
  · apply run_exactly laters others (oneReading_update valid success clean)
    rw [shellLines_update valid success, exactly entry member]

/-- For `splitlines` alone, the next line control ends a line. -/
def twoLines : String := String.ofList ['x', Char.ofNat 133, 'B', '=', '1']

def injection : List (Value FloatText × Value FloatText) := [(.str "A", .str twoLines)]

theorem update_exact_iff_plain : ∃ requested after,
    validateUpdates plainRuntime [(.str "A", .str "x")] = .ok requested ∧
      updateValues plainRuntime "B=1\n" [(.str "A", .str "x")] 100 = .ok after ∧
      (Touched requested "B=1\n" after ∧ Lasting plainRuntime [(.str "A", .str "x")] requested after ↔
        Readable requested "B=1\n" ∧ Clean requested) := by
  have valid : validateUpdates plainRuntime [(.str "A", .str "x")] = .ok [("A", "x")] := by rfl
  have success : updateValues plainRuntime "B=1\n" [(.str "A", .str "x")] 100 = .ok "B=1\nA=x\n" := by decide
  exact ⟨_, _, valid, success, (update_exact_iff valid success).1⟩

theorem injected_value_not_lasting : ∃ requested after, validateUpdates plainRuntime injection = .ok requested ∧
      updateValues plainRuntime "" injection 100 = .ok after ∧
      ¬ (Touched requested "" after ∧ Lasting plainRuntime injection requested after) := by
  have valid : validateUpdates plainRuntime injection = .ok [("A", twoLines)] := by rfl
  have success : updateValues plainRuntime "" injection 100 = .ok ("A=" ++ twoLines ++ "\n") := by
    decide
  refine ⟨_, _, valid, success, fun both => ?_⟩
  have clean := clean_of_lasting valid success both.2 ("A", twoLines) mem_cons_self
  exact absurd (clean (Char.ofNat 133) (by decide)) (by decide)

end Dash.EnvFile
