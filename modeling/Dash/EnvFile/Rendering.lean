import Dash.Foundation.Lines
import Dash.Foundation.Table
import Dash.Python.Value

/-! Updates of the dotenv file, and what they do to the lines they read.

A file is its text: that it is UTF-8 is what makes it one. Locks, inodes and the check that reads the
bytes back do not appear. The shell reads the file by line feeds, the update by `splitlines`.
-/

set_option autoImplicit false

namespace Dash.EnvFile

open Dash.Python Dash.Foundation

variable {F : Type}

/-- What ends a line for `str.splitlines`. -/
def isBoundary (char : Char) : Bool :=
  (decide (10 ≤ char.toNat) && decide (char.toNat ≤ 13)) ||
    (decide (28 ≤ char.toNat) && decide (char.toNat ≤ 30)) ||
    decide (char.toNat = 133) || decide (char.toNat = 8232) || decide (char.toNat = 8233)

def splitlines (text : List Char) : List Line := linesBy isBoundary text

def isLetter (char : Char) : Bool :=
  (decide ('A' ≤ char) && decide (char ≤ 'Z')) || (decide ('a' ≤ char) && decide (char ≤ 'z')) ||
    decide (char = '_')

/-- `KEY_PATTERN`: `[A-Za-z_][A-Za-z0-9_]*` -/
def isKey (text : String) : Bool :=
  match text.toList with
  | [] => false
  | first :: rest =>
    isLetter first && rest.all fun char => isLetter char || (decide ('0' ≤ char) && decide (char ≤ '9'))

def forbidden (char : Char) : Bool :=
  char = Char.ofNat 0 || char = '\r' || char = '\n'

/-- `_validate_payload` of a text. An `EnvFileError` is a `ValueError`. -/
def validatePayload (text : String) (maxBytes : Nat) : Result Unit :=
  if maxBytes < text.utf8ByteSize then
    valueError ("env file exceeds the " ++ toString maxBytes ++ "-byte limit")
  else if text.toList.contains (Char.ofNat 0) then valueError "env file must not contain NUL bytes"
  else .ok ()

/-- The loop of `_validate_updates`. -/
def validateEach (rt : Runtime F) : List String → List (Value F × Value F) → Result (List (String × String))
  | _, [] => .ok []
  | seen, (rawKey, rawValue) :: rest =>
    let key := rt.str rawKey
    let value := rt.str rawValue
    if isKey key = false then valueError ("invalid env key: " ++ rt.quoted key)
    else if key ∈ seen then valueError ("duplicate requested env key: " ++ key)
    else if value.toList.any forbidden then
      valueError ("env value for " ++ key ++ " contains a forbidden control character")
    else do
      let rendered ← validateEach rt (key :: seen) rest
      .ok ((key, value) :: rendered)

def validateUpdates (rt : Runtime F) (updates : List (Value F × Value F)) : Result (List (String × String)) := do
  let rendered ← validateEach rt [] updates
  if rendered = [] then valueError "at least one env update is required" else .ok rendered

def isOther (line : Line) : Bool :=
  let stripped := line.dropWhile isSpace
  decide (stripped = []) || decide (stripped.take 1 = ['#']) || !line.contains '='

def candidate (line : Line) : List Char := stripChars (line.takeWhile fun char => char ≠ '=')

def assign (key value : List Char) : Line := key ++ '=' :: value

def wanted? (requested : List (String × String)) (key : List Char) : Option (List Char) :=
  (requested.find? fun entry => entry.1.toList = key).map fun entry => entry.2.toList

def renderLines (requested : List (String × String)) : List (List Char) → List Line → List Line × List (List Char)
  | seen, [] => ([], seen)
  | seen, line :: rest =>
    if isOther line then
      let (rendered, after) := renderLines requested seen rest
      (line :: rendered, after)
    else match wanted? requested (candidate line) with
      | none =>
        let (rendered, after) := renderLines requested seen rest
        (line :: rendered, after)
      | some value =>
        if candidate line ∈ seen then renderLines requested seen rest
        else
          let (rendered, after) := renderLines requested (candidate line :: seen) rest
          (assign (candidate line) value :: rendered, after)

def rendered (requested : List (String × String)) (lines : List Line) : List Line :=
  let (kept, seen) := renderLines requested [] lines
  kept ++ (requested.filter fun entry => entry.1.toList ∉ seen).map fun entry =>
    assign entry.1.toList entry.2.toList

/-- `"\n".join(lines) + "\n"` -/
def joinLines : List Line → List Char
  | [] => ['\n']
  | [line] => line ++ ['\n']
  | line :: rest => line ++ '\n' :: joinLines rest

/-- `update_values`: the text of the file after it. -/
def updateValues (rt : Runtime F) (original : String) (updates : List (Value F × Value F))
    (maxBytes : Nat) : Result String := do
  let requested ← validateUpdates rt updates
  validatePayload original maxBytes
  let payload := String.ofList (joinLines (rendered requested (splitlines original.toList)))
  validatePayload payload maxBytes
  .ok payload

open List

def shellLines (text : String) : List Line := linesBy lineFeed text.toList

def assignedBy (key : List Char) (line : Line) : Option (List Char) :=
  if isOther line then none
  else if candidate line = key then some ((line.dropWhile fun char => char ≠ '=').drop 1)
  else none

def assigned (key : List Char) (lines : List Line) : List (List Char) :=
  lines.filterMap (assignedBy key)

@[simp] theorem assigned_cons (key : List Char) (line : Line) (rest : List Line) :
    assigned key (line :: rest) = (assignedBy key line).toList ++ assigned key rest := by
  rw [assigned, filterMap_cons]
  cases assignedBy key line <;> rfl

@[simp] theorem assigned_append (key : List Char) (first second : List Line) :
    assigned key (first ++ second) = assigned key first ++ assigned key second :=
  filterMap_append

theorem assignedBy_some {key value : List Char} {line : Line}
    (found : assignedBy key line = some value) : isOther line = false ∧ candidate line = key := by
  unfold assignedBy at found
  split at found
  · cases found
  · next assignment =>
    split at found
    · next same => exact ⟨by simpa using assignment, same⟩
    · cases found

theorem assignedBy_other {key : List Char} {line : Line} (apart : candidate line ≠ key) :
    assignedBy key line = none := by
  rw [assignedBy, if_neg apart, ite_self]

/-- The keys of an update are distinct and well formed, and its values stay on one line for the
shell. -/
structure Accepted (requested : List (String × String)) : Prop where
  some : requested ≠ []
  distinct : (requested.map Prod.fst).Nodup
  keys : ∀ entry ∈ requested, isKey entry.1 = true
  values : ∀ entry ∈ requested, entry.2.toList.any forbidden = false

variable {updates : List (Value F × Value F)} {requested : List (String × String)} {rt : Runtime F}

theorem validateEach_ok {seen : List String} (success : validateEach rt seen updates = .ok requested) :
    (requested.map Prod.fst).Nodup ∧ (∀ entry ∈ requested, entry.1 ∉ seen) ∧
      (∀ entry ∈ requested, isKey entry.1 = true) ∧
      ∀ entry ∈ requested, entry.2.toList.any forbidden = false := by
  induction updates generalizing seen requested with
  | nil =>
    cases success
    simp
  | cons update rest ih =>
    obtain ⟨rawKey, rawValue⟩ := update
    simp only [validateEach, result_refuse, result_bind] at success
    obtain ⟨key, fresh, value, others, found, same⟩ := success
    cases same
    obtain ⟨distinct, unseen, keys, values⟩ := ih found
    refine ⟨?_, ?_, ?_, ?_⟩
    · rw [map_cons, nodup_cons]
      refine ⟨fun repeated => ?_, distinct⟩
      obtain ⟨entry, member, same⟩ := mem_map.mp repeated
      exact unseen entry member (same ▸ mem_cons_self)
    · intro entry member
      rcases mem_cons.mp member with rfl | later
      · exact fresh
      · exact fun within => unseen entry later (mem_cons_of_mem _ within)
    · intro entry member
      rcases mem_cons.mp member with rfl | later
      · simpa using key
      · exact keys entry later
    · intro entry member
      rcases mem_cons.mp member with rfl | later
      · simpa using value
      · exact values entry later

theorem validateUpdates_ok (success : validateUpdates rt updates = .ok requested) : Accepted requested := by
  simp only [validateUpdates, result_bind, result_refuse] at success
  obtain ⟨found, each, some, same⟩ := success
  cases same
  obtain ⟨distinct, -, keys, values⟩ := validateEach_ok each
  exact ⟨some, distinct, keys, values⟩

variable {key : String}

theorem isKey_chars (valid : isKey key = true) : key.toList ≠ [] ∧ ∀ char ∈ key.toList,
      char ≠ '=' ∧ char ≠ '#' ∧ isSpace char = false ∧ isBoundary char = false ∧ char ≠ '\r' ∧ char ≠ Char.ofNat 0 := by
  have plain {char : Char} (word : (isLetter char || (decide ('0' ≤ char) && decide (char ≤ '9'))) = true) :
      char ≠ '=' ∧ char ≠ '#' ∧ isSpace char = false ∧ isBoundary char = false ∧ char ≠ '\r' ∧ char ≠ Char.ofNat 0 := by
    have range : (48 ≤ char.toNat ∧ char.toNat ≤ 57) ∨ (65 ≤ char.toNat ∧ char.toNat ≤ 90) ∨
        (97 ≤ char.toNat ∧ char.toNat ≤ 122) ∨ char.toNat = 95 := by
      simp only [isLetter, Bool.or_eq_true, Bool.and_eq_true, decide_eq_true_eq] at word
      rcases word with ((upper | lower) | low) | digit
      · exact .inr (.inl upper)
      · exact .inr (.inr (.inl lower))
      · exact .inr (.inr (.inr (by rw [low]; rfl)))
      · exact .inl digit
    have apart {other : Char} (outside : char.toNat ≠ other.toNat) : char ≠ other :=
      fun same => outside (same ▸ rfl)
    refine ⟨apart ?_, apart ?_, ?_, ?_, apart ?_, apart ?_⟩
    · change _ ≠ 61
      omega
    · change _ ≠ 35
      omega
    · simp only [isSpace, Bool.or_eq_false_iff, Bool.and_eq_false_iff, decide_eq_false_iff_not]
      omega
    · simp only [isBoundary, Bool.or_eq_false_iff, Bool.and_eq_false_iff, decide_eq_false_iff_not]
      omega
    · change _ ≠ 13
      omega
    · change _ ≠ 0
      omega
  unfold isKey at valid
  cases chars : key.toList with
  | nil =>
    rw [chars] at valid
    cases valid
  | cons first rest =>
    rw [chars] at valid
    simp only [Bool.and_eq_true] at valid
    refine ⟨cons_ne_nil _ _, fun char member => ?_⟩
    rcases mem_cons.mp member with rfl | later
    · exact plain (by rw [valid.1, Bool.true_or])
    · exact plain (all_eq_true.mp valid.2 char later)

section Assign

variable {key value : List Char}
/-- The key and the rest of an assignment. -/
theorem assign_span (plain : ∀ char ∈ key, char ≠ '=') : (assign key value).takeWhile (· ≠ '=') = key ∧
      (assign key value).dropWhile (· ≠ '=') = '=' :: value :=
  span_mark (fun member => plain '=' member rfl) value

end Assign

theorem assignedBy_assign (valid : isKey key = true) (value other : List Char) :
    assignedBy other (assign key.toList value) = if key.toList = other then some value else none := by
  obtain ⟨nonempty, chars⟩ := isKey_chars valid
  have noEqual : ∀ char ∈ key.toList, char ≠ '=' := fun char member => (chars char member).1
  have spaceless : ∀ char ∈ key.toList, isSpace char = false := fun char member =>
    (chars char member).2.2.1
  have stripped : stripChars key.toList = key.toList := by
    have same := strip_plain spaceless
    rw [strip, ← String.toList_inj, String.toList_ofList] at same
    exact same
  have named : candidate (assign key.toList value) = key.toList := by
    rw [candidate, (assign_span noEqual).1, stripped]
  have assignment : isOther (assign key.toList value) = false := by
    cases letters : key.toList with
    | nil => exact absurd letters nonempty
    | cons first rest =>
      have head := chars first (letters ▸ mem_cons_self)
      simp [isOther, assign, head.2.1, head.2.2.1]
  rw [assignedBy, assignment, if_neg Bool.false_ne_true, named, (assign_span noEqual).2]
  rfl

theorem isOther_assign (valid : isKey key = true) (value : List Char) : isOther (assign key.toList value) = false := by
  by_contra other
  have found := assignedBy_assign valid value key.toList
  rw [assignedBy, if_pos (Bool.eq_true_of_not_eq_false other), if_pos rfl] at found
  cases found

theorem takeWhile_value (valid : isKey key = true) (value : List Char) :
    (assign key.toList value).takeWhile (fun char => !isBoundary char) =
      assign key.toList (value.takeWhile fun char => !isBoundary char) := by
  have plain : ∀ char ∈ key.toList, (!isBoundary char) = true := fun char member => by
    simp [((isKey_chars valid).2 char member).2.2.2.1]
  rw [assign, takeWhile_append_of_pos plain, takeWhile_cons_of_pos (by decide)]
  rfl

section Rendering

variable {requested : List (String × String)} (accepted : Accepted requested)

theorem wanted_some {key value : List Char} (found : wanted? requested key = some value) :
    ∃ entry ∈ requested, entry.1.toList = key ∧ entry.2.toList = value := by
  rw [wanted?, Option.map_eq_some_iff] at found
  obtain ⟨entry, found, same⟩ := found
  exact ⟨entry, List.mem_of_find?_eq_some found, by simpa using List.find?_some found, same⟩

theorem wanted_none {key : List Char} : wanted? requested key = none ↔ ∀ entry ∈ requested, entry.1.toList ≠ key := by
  simp [wanted?]

include accepted

theorem wanted_entry {entry : String × String} (member : entry ∈ requested) :
    wanted? requested entry.1.toList = some entry.2.toList := by
  cases found : wanted? requested entry.1.toList with
  | none => exact absurd rfl (wanted_none.mp found entry member)
  | some value =>
    obtain ⟨other, present, sameKey, sameValue⟩ := wanted_some found
    have same : other = entry := inj_on_of_nodup_map accepted.distinct present member (String.toList_inj.mp sameKey)
    rw [← sameValue, same]

variable {seen : List (List Char)} {lines : List Line}

omit accepted in
/-- What a rendered line is: one that was read, or the assignment of a requested key. -/
theorem renderLines_mem : ∀ line ∈ (renderLines requested seen lines).1,
      line ∈ lines ∨ ∃ entry ∈ requested, line = assign entry.1.toList entry.2.toList := by
  induction lines generalizing seen with
  | nil => exact fun line member => nomatch member
  | cons read rest ih =>
    intro line member
    have keep {after : List (List Char)} {rendered : List Line}
        (tail : renderLines requested seen rest = (rendered, after))
        (present : line ∈ read :: rendered) : line ∈ read :: rest ∨
          ∃ entry ∈ requested, line = assign entry.1.toList entry.2.toList := by
      rcases mem_cons.mp present with rfl | later
      · exact .inl mem_cons_self
      · exact (@ih seen line (tail ▸ later)).imp (mem_cons_of_mem _) id
    unfold renderLines at member
    split at member
    · exact keep rfl member
    · split at member
      · exact keep rfl member
      · next value found =>
        split at member
        · exact (ih line member).imp (mem_cons_of_mem _) id
        · rcases mem_cons.mp member with rfl | later
          · obtain ⟨entry, present, sameKey, sameValue⟩ := wanted_some found
            exact .inr ⟨entry, present, by rw [sameKey, sameValue]⟩
          · exact (ih line later).imp (mem_cons_of_mem _) id

omit accepted in
/-- The loop keeps the other lines and the assignments it was not asked for. -/
theorem renderLines_kept (valid : ∀ entry ∈ requested, isKey entry.1 = true) (lines : List Line) :
    (renderLines requested seen lines).1.filter isOther = lines.filter isOther ∧ ∀ key, wanted? requested key = none →
        assigned key (renderLines requested seen lines).1 = assigned key lines := by
  induction lines generalizing seen with
  | nil => exact ⟨rfl, fun _ _ => rfl⟩
  | cons line rest ih =>
    unfold renderLines
    split
    · next other =>
      refine ⟨?_, fun key free => ?_⟩
      · rw [filter_cons_of_pos other, filter_cons_of_pos other, ih.1]
      · rw [assigned_cons, assigned_cons, ih.2 key free]
    · next assignment =>
      rw [filter_cons_of_neg assignment]
      split
      · next free =>
        refine ⟨?_, fun key free => ?_⟩
        · rw [filter_cons_of_neg assignment, ih.1]
        · rw [assigned_cons, assigned_cons, ih.2 key free]
      · next value found =>
        -- the key of the line is asked for, so another key is not in it
        have apart {key : List Char} (free : wanted? requested key = none) : candidate line ≠ key := by
          rintro rfl
          rw [found] at free
          cases free
        obtain ⟨entry, member, sameKey, sameValue⟩ := wanted_some found
        split
        · refine ⟨ih.1, fun key free => ?_⟩
          rw [assigned_cons, assignedBy_other (apart free), ih.2 key free]
          rfl
        · refine ⟨?_, fun key free => ?_⟩
          · rw [← sameKey, filter_cons_of_neg (by simp [isOther_assign (valid entry member)]), ih.1]
          · rw [assigned_cons, assigned_cons, assignedBy_other (apart free), ih.2 key free, ← sameKey,
              assignedBy_assign (valid entry member), if_neg (sameKey ▸ apart free)]

/-- The loop gives a requested key its value where it sees it first. -/
theorem renderLines_wanted (lines : List Line) : (∀ key ∈ seen, key ∈ (renderLines requested seen lines).2) ∧
      ∀ entry ∈ requested, assigned entry.1.toList (renderLines requested seen lines).1 =
        if entry.1.toList ∉ seen ∧ entry.1.toList ∈ (renderLines requested seen lines).2 then
          [entry.2.toList] else [] := by
  induction lines generalizing seen with
  | nil =>
    refine ⟨fun _ member => member, fun entry _ => ?_⟩
    rw [if_neg fun both => both.1 both.2]
    rfl
  | cons line rest ih =>
    unfold renderLines
    split
    · next other =>
      refine ⟨ih.1, fun entry member => ?_⟩
      rw [assigned_cons, assignedBy, if_pos other, ih.2 entry member]
      rfl
    · next assignment =>
      split
      · next free =>
        refine ⟨ih.1, fun entry member => ?_⟩
        rw [assigned_cons, assignedBy_other (fun same => ?_), ih.2 entry member]
        · rfl
        · exact wanted_none.mp free entry member same.symm
      · next value found =>
        split
        · exact ih
        · next fresh =>
          have later := @ih (candidate line :: seen)
          refine ⟨fun key member => later.1 key (mem_cons_of_mem _ member), fun entry member => ?_⟩
          have present := later.1 (candidate line) mem_cons_self
          obtain ⟨own, ownMember, sameKey, sameValue⟩ := wanted_some found
          have valid := accepted.keys own ownMember
          rw [assigned_cons, later.2 entry member, ← sameKey, assignedBy_assign valid, sameKey]
          by_cases same : candidate line = entry.1.toList
          · have values : value = entry.2.toList := by
              have wanted := wanted_entry accepted member
              rw [← same, found] at wanted
              exact Option.some.inj wanted
            rw [if_pos same, if_neg (by simp [same]), if_pos ⟨same ▸ fresh, same ▸ present⟩, values]
            rfl
          · have other : entry.1.toList ∉ candidate line :: seen ↔ entry.1.toList ∉ seen := by
              simp [Ne.symm same]
            rw [if_neg same, if_congr (and_congr_left' other) rfl rfl]
            rfl

omit accepted in
/-- The appended assignments of the keys no line named. -/
theorem assigned_requested {entries : List (String × String)}
    (valid : ∀ entry ∈ entries, isKey entry.1 = true) (key : List Char) :
    assigned key (entries.map fun entry => assign entry.1.toList entry.2.toList) =
      (entries.filter fun entry => entry.1.toList = key).map fun entry => entry.2.toList := by
  induction entries with
  | nil => rfl
  | cons entry rest ih =>
    have tail := ih fun other member => valid other (mem_cons_of_mem _ member)
    rw [map_cons, assigned_cons, tail, assignedBy_assign (valid entry mem_cons_self), filter_cons]
    by_cases same : entry.1.toList = key <;> simp [same]

/-- What an update writes keeps the other lines, gives each requested key its value once and
leaves the other keys alone. -/
theorem rendered_kept (lines : List Line) : (rendered requested lines).filter isOther = lines.filter isOther ∧
      (∀ key, wanted? requested key = none → assigned key (rendered requested lines) = assigned key lines) ∧
      ∀ entry ∈ requested, assigned entry.1.toList (rendered requested lines) = [entry.2.toList] := by
  obtain ⟨others, free⟩ := @renderLines_kept requested [] accepted.keys lines
  obtain ⟨-, wanted⟩ := @renderLines_wanted requested accepted [] lines
  have missing : ∀ entry ∈ requested.filter fun entry =>
      entry.1.toList ∉ (renderLines requested [] lines).2, isKey entry.1 = true :=
    fun entry member => accepted.keys entry (mem_filter.mp member).1
  simp only [rendered]
  refine ⟨?_, fun key unasked => ?_, fun entry member => ?_⟩
  · have none : ((requested.filter fun entry =>
        entry.1.toList ∉ (renderLines requested [] lines).2).map fun entry =>
          assign entry.1.toList entry.2.toList).filter isOther = [] := by
      rw [filter_eq_nil_iff]
      intro line member
      obtain ⟨entry, present, rfl⟩ := mem_map.mp member
      simp [isOther_assign (missing entry present)]
    rw [filter_append, others, none, append_nil]
  · rw [assigned_append, free key unasked, assigned_requested missing, filter_eq_nil_iff.mpr]
    · simp
    · intro entry member
      simpa using wanted_none.mp unasked entry (mem_filter.mp member).1
  · rw [assigned_append, wanted entry member, assigned_requested missing]
    by_cases seen : entry.1.toList ∈ (renderLines requested [] lines).2
    · rw [if_pos ⟨not_mem_nil, seen⟩, filter_eq_nil_iff.mpr]
      · rfl
      · intro other present same
        have unseen := (mem_filter.mp present).2
        simp [of_decide_eq_true same, seen] at unseen
    · rw [if_neg fun both => seen both.2, filter_filter, Table.filter_single accepted.distinct member (by simp [seen])]
      · rfl
      · intro other _ selected
        simp only [Bool.and_eq_true, decide_eq_true_eq] at selected
        exact String.toList_inj.mp selected.1

omit accepted in
/-- A rendered line was read, or is the assignment of a requested key. -/
theorem rendered_mem {line : Line} (member : line ∈ rendered requested lines) :
    line ∈ lines ∨ ∃ entry ∈ requested, line = assign entry.1.toList entry.2.toList := by
  rcases mem_append.mp member with kept | missing
  · exact renderLines_mem line kept
  · obtain ⟨entry, present, rfl⟩ := mem_map.mp missing
    exact .inr ⟨entry, (mem_filter.mp present).1, rfl⟩

theorem rendered_some (lines : List Line) : rendered requested lines ≠ [] := by
  intro empty
  obtain ⟨entry, member⟩ := exists_mem_of_ne_nil requested accepted.some
  have value := (rendered_kept accepted lines).2.2 entry member
  rw [empty] at value
  cases value

omit accepted in
theorem joinLines_some (some : lines ≠ []) : joinLines lines = writeLines lines := by
  induction lines with
  | nil => exact absurd rfl some
  | cons line rest ih =>
    cases rest with
    | nil => simp [joinLines, writeLines]
    | cons next others =>
      rw [joinLines, ih (cons_ne_nil _ _)]
      · simp [writeLines]
      · exact fun empty => by cases empty

omit accepted in
theorem isBoundary_newline : isBoundary '\n' = true := by decide

omit accepted in
theorem isBoundary_of {char : Char} (line : char = '\n' ∨ char = '\r') : isBoundary char = true := by
  rcases line with rfl | rfl <;> decide

omit accepted in
/-- `splitlines` leaves no line end in a line. -/
theorem splitlines_clean {text : List Char} {line : Line} (member : line ∈ splitlines text) :
    ∀ char ∈ line, isBoundary char = false := by
  rw [splitlines, ← pieces_snd isBoundary_newline] at member
  obtain ⟨entry, present, within⟩ := mem_flatMap.mp member
  exact (pieces_piece text entry present).clean line within

theorem shellLines_rendered (text : List Char) :
    shellLines (String.ofList (joinLines (rendered requested (splitlines text)))) =
      rendered requested (splitlines text) := by
  rw [shellLines, String.toList_ofList, joinLines_some (rendered_some accepted _)]
  apply linesBy_writeLines (by decide)
  intro line member char within
  have ends : char ≠ '\n' ∧ char ≠ '\r' := by
    rcases rendered_mem member with read | ⟨entry, present, rfl⟩
    · have clean := splitlines_clean read char within
      exact ⟨fun same => by simp [isBoundary_of (.inl same)] at clean,
        fun same => by simp [isBoundary_of (.inr same)] at clean⟩
    · rcases mem_append.mp within with key | rest
      · have plain := (isKey_chars (accepted.keys entry present)).2 char key
        exact ⟨fun same => by simp [isBoundary_of (.inl same)] at plain, plain.2.2.2.2.1⟩
      · rcases mem_cons.mp rest with rfl | value
        · decide
        · have allowed := accepted.values entry present
          rw [any_eq_false] at allowed
          have plain := allowed char value
          simp only [forbidden, Bool.or_eq_true, decide_eq_true_eq, not_or] at plain
          exact ⟨plain.2, plain.1.2⟩
  exact ⟨by simpa [lineFeed] using ends.1, ends.2⟩

theorem splitlines_rendered (text : List Char)
    (clean : ∀ entry ∈ requested, ∀ char ∈ entry.2.toList, isBoundary char = false) :
    splitlines (joinLines (rendered requested (splitlines text))) = rendered requested (splitlines text) := by
  rw [splitlines, joinLines_some (rendered_some accepted _)]
  apply linesBy_writeLines isBoundary_newline
  intro line member char within
  have plain : isBoundary char = false := by
    rcases rendered_mem member with read | ⟨entry, present, rfl⟩
    · exact splitlines_clean read char within
    · rcases mem_append.mp within with key | rest
      · exact ((isKey_chars (accepted.keys entry present)).2 char key).2.2.2.1
      · rcases mem_cons.mp rest with rfl | value
        · decide
        · exact clean entry present char value
  exact ⟨plain, fun same => by simp [isBoundary_of (.inr same)] at plain⟩

end Rendering

theorem updateValues_ok {original after : String} {maxBytes : Nat} (valid : validateUpdates rt updates = .ok requested)
    (success : updateValues rt original updates maxBytes = .ok after) :
    after = String.ofList (joinLines (rendered requested (splitlines original.toList))) ∧
      validatePayload original maxBytes = .ok () ∧ validatePayload after maxBytes = .ok () := by
  simp only [updateValues, result_bind] at success
  obtain ⟨found, same, _, before, _, written, result⟩ := success
  cases result
  rw [valid] at same
  cases same
  exact ⟨rfl, before, written⟩

/-- A requested update is written if the size allows it: no character is forbidden. -/
theorem updateValues_written {original : String}
    (valid : validateUpdates rt updates = .ok requested) (silent : Char.ofNat 0 ∉ original.toList) :
    ∃ limit after, updateValues rt original updates limit = .ok after := by
  have accepted := validateUpdates_ok valid
  let payload := String.ofList (joinLines (rendered requested (splitlines original.toList)))
  have payloadSilent : Char.ofNat 0 ∉ payload.toList := by
    rw [String.toList_ofList, joinLines_some (rendered_some accepted _), writeLines]
    intro member
    obtain ⟨line, present, within⟩ := mem_flatMap.mp member
    rcases mem_append.mp within with inside | last
    · rcases rendered_mem present with read | ⟨entry, asked, rfl⟩
      · exact silent (linesBy_subset _ line read _ inside)
      · rcases mem_append.mp inside with key | rest
        · exact ((isKey_chars (accepted.keys entry asked)).2 _ key).2.2.2.2.2 rfl
        · rcases mem_cons.mp rest with equals | value
          · exact absurd equals (by decide)
          · have allowed := accepted.values entry asked
            rw [any_eq_false] at allowed
            exact allowed _ value (by decide)
    · exact absurd (mem_singleton.mp last) (by decide)
  have sound {text : String} {limit : Nat} (plain : Char.ofNat 0 ∉ text.toList)
      (size : text.utf8ByteSize ≤ limit) : validatePayload text limit = .ok () := by
    rw [validatePayload, if_neg (Nat.not_lt.mpr size), if_neg (by simpa using plain)]
  refine ⟨max original.utf8ByteSize payload.utf8ByteSize, payload, ?_⟩
  have first := sound silent (Nat.le_max_left original.utf8ByteSize payload.utf8ByteSize)
  have second := sound payloadSilent (Nat.le_max_right original.utf8ByteSize payload.utf8ByteSize)
  rw [updateValues, valid]
  change (validatePayload original _ >>= fun _ => validatePayload payload _ >>= fun _ =>
    Except.ok payload) = _
  rw [first, second]
  rfl

theorem shellLines_update {original after : String} {maxBytes : Nat}
    (valid : validateUpdates rt updates = .ok requested)
    (success : updateValues rt original updates maxBytes = .ok after) :
    shellLines after = rendered requested (splitlines original.toList) := by
  rw [(updateValues_ok valid success).1]
  exact shellLines_rendered (validateUpdates_ok valid) _

end Dash.EnvFile
