import Dash.EnvFile.Exact

/-! The INI files of the game: the values of their sections, and settings merged into them. -/

set_option autoImplicit false

namespace Dash.Presets

open Dash.Python Dash.Foundation Dash.EnvFile List

abbrev Place : Type := Line × Line

structure Setting where
  (heading key value : Line)

def Setting.place (setting : Setting) : Place := (setting.heading, setting.key)

/-- `stripped[1:-1]` of a line that stands in brackets. -/
def header? (line : Line) : Option Line :=
  let stripped := stripChars line
  if stripped.head? = some '[' ∧ stripped.getLast? = some ']' then some (stripped.drop 1).dropLast
  else none

def marked (line : Line) : Bool :=
  (stripChars line).head?.any fun char => [';', '#', '+', '-'].contains char

def assignment? (line : Line) : Option (Line × Line) :=
  if marked line = false ∧ line.contains '=' then
    some (candidate line, stripChars ((line.dropWhile fun char => char ≠ '=').drop 1))
  else none

abbrev Values : Type := Place → Option Line

def noted (current : Option Line) (values : Values) (line : Line) : Values :=
  match current with
  | none => values
  | some name =>
    match assignment? line with
    | some assigned => if name = [] then values else Function.update values (name, assigned.1) (some assigned.2)
    | none => values

/-- The loop of `_section_values`. -/
def scan : Option Line → Values → List Line → Values
  | _, values, [] => values
  | current, values, line :: rest =>
    match header? line with
    | some name => scan (some name) values rest
    | none => scan current (noted current values line) rest

def sectionValues (text : List Char) : Values := scan none (fun _ => none) (splitlines text)

def headings : List Setting → List Line
  | [] => []
  | setting :: rest => setting.heading :: (headings rest).filter fun name => name ≠ setting.heading

/-- `by_section[name]`: a key that is set twice keeps its first place and its last value. -/
def itemsOf (settings : List Setting) (name : Line) : List Setting :=
  upsertAll Setting.key (settings.filter fun setting => setting.heading = name) []

def pending (settings : List Setting) (current : Option Line) (seen : List Place) : List Setting :=
  match current with
  | some name => (itemsOf settings name).filter fun setting => setting.place ∉ seen
  | none => []

def Setting.line (setting : Setting) : Line := assign setting.key setting.value

def written (items : List Setting) (seen : List Place) : List Place :=
  items.foldl (fun seen setting => setting.place :: seen) seen

def wanted? (settings : List Setting) (current : Option Line) (line : Line) : Option Setting :=
  match current with
  | none => none
  | some name =>
    match assignment? line with
    | some assigned => (itemsOf settings name).find? fun setting => setting.key = assigned.1
    | none => none

/-- The loop over the lines, with the writing after it: what is rendered, and the places seen. -/
def mergeLines (settings : List Setting) : Option Line → List Place → List Line → List Line × List Place
  | current, seen, [] =>
    let items := pending settings current seen
    (items.map Setting.line, written items seen)
  | current, seen, line :: rest =>
    match header? line with
    | some name =>
      let items := pending settings current seen
      let later := mergeLines settings (some name) (written items seen) rest
      (items.map Setting.line ++ line :: later.1, later.2)
    | none =>
      match wanted? settings current line with
      | some setting =>
        if setting.place ∈ seen then mergeLines settings current seen rest
        else
          let later := mergeLines settings current (setting.place :: seen) rest
          (setting.line :: later.1, later.2)
      | none =>
        let later := mergeLines settings current seen rest
        (line :: later.1, later.2)

def headingLine (name : Line) : Line := '[' :: (name ++ [']'])

def addSection (settings : List Setting) (rendered : List Line) (name : Line) : List Line :=
  let spaced := if rendered ≠ [] ∧ rendered.getLast? ≠ some [] then rendered ++ [[]] else rendered
  spaced ++ headingLine name :: (itemsOf settings name).map Setting.line

def addSections (settings : List Setting) (seen : List Place) (rendered : List Line) : List Line :=
  ((headings settings).filter fun name => !seen.any fun place => place.1 = name).foldl
    (addSection settings) rendered

def mergedLines (settings : List Setting) (lines : List Line) : List Line :=
  let merged := mergeLines settings none [] lines
  addSections settings merged.2 merged.1

/-- `"\n".join(lines)` -/
def joined : List Line → List Char
  | [] => []
  | [line] => line
  | line :: rest => line ++ '\n' :: joined rest

def merge (text : List Char) (settings : List Setting) : List Char :=
  (joined (mergedLines settings (splitlines text))).rdropWhile isSpace ++ ['\n']

def trimEnd : List Line → List Line
  | [] => []
  | line :: rest =>
    match trimEnd rest with
    | [] => if line.rdropWhile isSpace = [] then [] else [line.rdropWhile isSpace]
    | next :: others => line :: next :: others

theorem rdropWhile_append (first second : List Char) : (first ++ second).rdropWhile isSpace =
      if second.rdropWhile isSpace = [] then first.rdropWhile isSpace
      else first ++ second.rdropWhile isSpace := by
  rw [List.rdropWhile, reverse_append, dropWhile_append, List.rdropWhile, List.rdropWhile]
  by_cases blank : second.reverse.dropWhile isSpace = []
  · rw [if_pos (by rw [blank]; rfl), if_pos (by rw [blank]; rfl)]
  · rw [if_neg (by simpa using blank), if_neg (by simpa using blank), reverse_append, reverse_reverse]

variable {rest : List Line} {line : Line}

theorem joined_cons (some : rest ≠ []) : joined (line :: rest) = line ++ '\n' :: joined rest := by
  cases rest with
  | nil => exact absurd rfl some
  | cons next others => rfl

theorem rdropWhile_newline (text : List Char) : ('\n' :: text).rdropWhile isSpace =
      if text.rdropWhile isSpace = [] then [] else '\n' :: text.rdropWhile isSpace := by
  have split := rdropWhile_append ['\n'] text
  rw [singleton_append] at split
  rw [split]
  rfl

theorem trimEnd_some (some : trimEnd rest ≠ []) : trimEnd (line :: rest) = line :: trimEnd rest := by
  cases found : trimEnd rest with
  | nil => exact absurd found some
  | cons next others => rw [trimEnd, found]

theorem trimEnd_none (none : trimEnd rest = []) : trimEnd (line :: rest) =
      if line.rdropWhile isSpace = [] then [] else [line.rdropWhile isSpace] := by
  rw [trimEnd, none]

theorem rstrip_joined (lines : List Line) : (joined lines).rdropWhile isSpace = joined (trimEnd lines) ∧
      (trimEnd lines ≠ [] → joined (trimEnd lines) ≠ []) := by
  induction lines with
  | nil => exact ⟨rfl, fun some => absurd rfl some⟩
  | cons line rest ih =>
    obtain ⟨stripped, some⟩ := ih
    have whole : (joined (line :: rest)).rdropWhile isSpace =
        if (joined rest).rdropWhile isSpace = [] then line.rdropWhile isSpace
        else line ++ '\n' :: (joined rest).rdropWhile isSpace := by
      cases rest with
      | nil => rfl
      | cons next others =>
        rw [joined_cons (cons_ne_nil _ _), rdropWhile_append, rdropWhile_newline]
        split <;> simp_all
    rw [whole, stripped]
    by_cases found : trimEnd rest = []
    · rw [trimEnd_none found, found, if_pos (show joined [] = [] from rfl)]
      by_cases blank : line.rdropWhile isSpace = []
      · rw [if_pos blank]
        exact ⟨blank, fun some => absurd rfl some⟩
      · rw [if_neg blank]
        exact ⟨rfl, fun _ => blank⟩
    · rw [if_neg (some found), trimEnd_some found, joined_cons found]
      exact ⟨rfl, fun _ => append_ne_nil_of_right_ne_nil _ (cons_ne_nil _ _)⟩

variable {lines : List Line}

theorem writeLines_joined (some : lines ≠ []) : joined lines ++ ['\n'] = writeLines lines := by
  induction lines with
  | nil => exact absurd rfl some
  | cons line rest ih =>
    cases rest with
    | nil => simp [joined, writeLines]
    | cons next others =>
      rw [joined_cons (cons_ne_nil _ _), append_assoc, cons_append, ih (cons_ne_nil _ _)]
      simp [writeLines]

def endLines (lines : List Line) : List Line := if trimEnd lines = [] then [[]] else trimEnd lines

theorem trimEnd_char (member : line ∈ trimEnd lines) : ∀ char ∈ line, ∃ other ∈ lines, char ∈ other := by
  induction lines with
  | nil => cases member
  | cons first rest ih =>
    by_cases found : trimEnd rest = []
    · rw [trimEnd_none found] at member
      split at member
      · cases member
      · rw [mem_singleton] at member
        subst member
        exact fun char within =>
          ⟨first, mem_cons_self, (List.rdropWhile_prefix isSpace first).subset within⟩
    · rw [trimEnd_some found] at member
      rcases mem_cons.mp member with rfl | later
      · exact fun char within => ⟨line, mem_cons_self, within⟩
      · intro char within
        obtain ⟨other, there, holds⟩ := ih later char within
        exact ⟨other, mem_cons_of_mem _ there, holds⟩

theorem splitlines_end (clean : ∀ line ∈ lines, ∀ char ∈ line, isBoundary char = false) :
    splitlines ((joined lines).rdropWhile isSpace ++ ['\n']) = endLines lines := by
  rw [(rstrip_joined lines).1, endLines]
  by_cases found : trimEnd lines = []
  · rw [if_pos found, found]
    decide
  · rw [if_neg found, writeLines_joined found]
    refine linesBy_writeLines isBoundary_newline fun line member char within => ?_
    obtain ⟨other, there, holds⟩ := trimEnd_char member char within
    have plain := clean other there char holds
    refine ⟨plain, fun carriage => ?_⟩
    rw [carriage] at plain
    exact absurd plain (by decide)

end Dash.Presets
