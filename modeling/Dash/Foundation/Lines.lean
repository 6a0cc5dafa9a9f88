import Mathlib.Data.List.TakeWhile
import Mathlib.Algebra.BigOperators.Group.List.Basic

/-! Two readings of one text as lines.

A reading says which characters end a line. A carriage return with a line feed after it
is one end in every reading. `pieces` pairs each line of the coarse reading, where only
the line feed ends a line, with the lines a finer one finds in it.
-/

set_option autoImplicit false

namespace Dash.Foundation

open List

abbrev Line : Type := List Char

/-- Put a character in front of the first line. -/
def prepend (char : Char) : List Line → List Line
  | [] => [[char]]
  | line :: rest => (char :: line) :: rest

/-- The lines of a text; what follows the last end is a line if it is not empty. -/
def linesBy (ends : Char → Bool) : List Char → List Line
  | [] => []
  | [char] => if ends char then [[]] else [[char]]
  | char :: next :: rest =>
    if char = '\r' ∧ next = '\n' then [] :: linesBy ends rest
    else if ends char then [] :: linesBy ends (next :: rest)
    else prepend char (linesBy ends (next :: rest))

/-- The reading of the shell: only the line feed ends a line. -/
def lineFeed (char : Char) : Bool := char = '\n'

/-- A character in front of a line and of what the finer reading finds in it. -/
def extend (ends : Char → Bool) (char : Char) : List (Line × List Line) → List (Line × List Line)
  | [] => [([char], if ends char then [[]] else [[char]])]
  | (line, pieces) :: rest =>
    (char :: line, if ends char then [] :: pieces else prepend char pieces) :: rest

/-- The lines of the coarse reading, each with the lines of the finer one in it. -/
def pieces (ends : Char → Bool) : List Char → List (Line × List Line)
  | [] => []
  | [char] => if lineFeed char then [([], [[]])] else extend ends char []
  | char :: next :: rest =>
    if char = '\r' ∧ next = '\n' then ([], [[]]) :: pieces ends rest
    else if lineFeed char then ([], [[]]) :: pieces ends (next :: rest)
    else extend ends char (pieces ends (next :: rest))

section Readings

variable {ends : Char → Bool}

theorem extend_fst (char : Char) (found : List (Line × List Line)) :
    (extend ends char found).map Prod.fst = prepend char (found.map Prod.fst) := by
  cases found <;> rfl

theorem pieces_fst (text : List Char) : (pieces ends text).map Prod.fst = linesBy lineFeed text := by
  induction text using pieces.induct with
  | case1 => rfl
  | case2 char feed => simp [pieces, linesBy, feed]
  | case3 char other => simp [pieces, linesBy, other, extend]
  | case4 char next rest pair ih => simp [pieces, linesBy, pair, ih]
  | case5 char next rest single feed ih => simp [pieces, linesBy, if_neg single, feed, ih]
  | case6 char next rest single other ih =>
    simp [pieces, linesBy, if_neg single, if_neg other, extend_fst, ih]

variable {char : Char}

theorem extend_snd {found : List (Line × List Line)} (some : ∀ entry ∈ found, entry.2 ≠ []) :
    (extend ends char found).flatMap Prod.snd =
      if ends char then [] :: found.flatMap Prod.snd else prepend char (found.flatMap Prod.snd) := by
  cases found with
  | nil => cases marked : ends char <;> simp [extend, marked, prepend]
  | cons entry rest =>
    obtain ⟨line, parts⟩ := entry
    cases parts with
    | nil => exact absurd rfl (some _ mem_cons_self)
    | cons part others => cases marked : ends char <;> simp [extend, marked, prepend]

/-- What the finer reading finds in one line of the coarse one. -/
structure Piece (ends : Char → Bool) (line : Line) (parts : List Line) : Prop where
  /-- It starts with what stands before the first end. -/
  first : ∃ rest, parts = line.takeWhile (fun char => !ends char) :: rest
  whole : (∀ char ∈ line, ends char = false) → parts = [line]
  clean : ∀ part ∈ parts, ∀ char ∈ part, ends char = false

theorem Piece.empty : Piece ends [] [[]] where
  first := ⟨[], rfl⟩
  whole _ := rfl
  clean part member char within := by
    rw [mem_singleton.mp member] at within
    cases within

theorem Piece.single :
    Piece ends [char] (if ends char then [[]] else [[char]]) where
  first := by cases marked : ends char <;> simp [marked]
  whole plain := by simp [plain char mem_cons_self]
  clean part member other within := by
    cases marked : ends char with
    | true =>
      rw [marked, if_pos rfl, mem_singleton] at member
      rw [member] at within
      cases within
    | false =>
      rw [marked, if_neg (by simp), mem_singleton] at member
      rw [member, mem_singleton] at within
      rw [within, marked]

theorem Piece.cons {line : Line} {parts : List Line} (piece : Piece ends line parts) :
    Piece ends (char :: line) (if ends char then [] :: parts else prepend char parts) := by
  obtain ⟨rest, found⟩ := piece.first
  cases marked : ends char with
  | true =>
    refine ⟨⟨parts, by simp [marked]⟩, fun plain => ?_, fun part member other within => ?_⟩
    · have impossible := plain char mem_cons_self
      rw [marked] at impossible
      cases impossible
    · rw [if_pos rfl] at member
      rcases mem_cons.mp member with rfl | later
      · cases within
      · exact piece.clean part later other within
  | false =>
    refine ⟨⟨rest, by simp [found, marked, prepend]⟩, fun plain => ?_, fun part member other within => ?_⟩
    · rw [piece.whole fun other member => plain other (mem_cons_of_mem _ member)]
      rfl
    · simp only [found, Bool.false_eq_true, if_false, prepend, mem_cons] at member
      rcases member with rfl | later
      · rcases mem_cons.mp within with rfl | deeper
        · exact marked
        · exact piece.clean _ (found ▸ mem_cons_self) other deeper
      · exact piece.clean part (found ▸ mem_cons_of_mem _ later) other within

theorem extend_piece {found : List (Line × List Line)} (good : ∀ entry ∈ found, Piece ends entry.1 entry.2) :
    ∀ entry ∈ extend ends char found, Piece ends entry.1 entry.2 := by
  intro entry member
  cases found with
  | nil =>
    rw [extend, mem_singleton] at member
    rw [member]
    exact .single
  | cons first rest =>
    rcases mem_cons.mp member with rfl | later
    · exact (good first mem_cons_self).cons
    · exact good entry (mem_cons_of_mem _ later)

theorem pieces_piece (text : List Char) : ∀ entry ∈ pieces ends text, Piece ends entry.1 entry.2 := by
  induction text using pieces.induct with
  | case1 => exact fun entry member => nomatch member
  | case2 char feed =>
    intro entry member
    rw [pieces, if_pos feed, mem_singleton] at member
    rw [member]
    exact .empty
  | case3 char other =>
    rw [pieces, if_neg other]
    exact extend_piece fun entry member => nomatch member
  | case4 char next rest pair ih =>
    intro entry member
    rw [pieces, if_pos pair] at member
    rcases mem_cons.mp member with rfl | later
    · exact .empty
    · exact ih entry later
  | case5 char next rest single feed ih =>
    intro entry member
    rw [pieces, if_neg single, if_pos feed] at member
    rcases mem_cons.mp member with rfl | later
    · exact .empty
    · exact ih entry later
  | case6 char next rest single other ih =>
    rw [pieces, if_neg single, if_neg other]
    exact extend_piece ih

theorem Piece.some {line : Line} {parts : List Line} (piece : Piece ends line parts) : parts ≠ [] := by
  obtain ⟨rest, found⟩ := piece.first
  rw [found]
  exact cons_ne_nil _ _

theorem pieces_snd (newline : ends '\n' = true) (text : List Char) :
    (pieces ends text).flatMap Prod.snd = linesBy ends text := by
  have feeds {char : Char} (feed : lineFeed char = true) : ends char = true := by
    rw [of_decide_eq_true feed, newline]
  induction text using pieces.induct with
  | case1 => rfl
  | case2 char feed => simp [pieces, linesBy, feed, feeds feed]
  | case3 char other =>
    rw [pieces, if_neg other, extend_snd fun entry member => (not_mem_nil member).elim]
    rfl
  | case4 char next rest pair ih => simp [pieces, linesBy, pair, ih]
  | case5 char next rest single feed ih =>
    rw [pieces, linesBy, if_neg single, if_neg single, if_pos feed, if_pos (feeds feed), flatMap_cons, ih]
    rfl
  | case6 char next rest single other ih =>
    rw [pieces, linesBy, if_neg single, if_neg single, if_neg other,
      extend_snd fun entry member => (pieces_piece _ entry member).some, ih]

end Readings

variable {ends : Char → Bool}

/-- A line holds only characters of the text. -/
theorem linesBy_subset (text : List Char) : ∀ line ∈ linesBy ends text, ∀ char ∈ line, char ∈ text := by
  have front {char : Char} {lines : List Line} {others : List Char}
      (rest : ∀ line ∈ lines, ∀ other ∈ line, other ∈ others) :
      ∀ line ∈ prepend char lines, ∀ other ∈ line, other ∈ char :: others := by
    intro line member other within
    cases lines with
    | nil =>
      rw [prepend, mem_singleton] at member
      rw [member, mem_singleton] at within
      exact within ▸ mem_cons_self
    | cons first more =>
      rcases mem_cons.mp member with rfl | later
      · rcases mem_cons.mp within with rfl | deeper
        · exact mem_cons_self
        · exact mem_cons_of_mem _ (rest first mem_cons_self other deeper)
      · exact mem_cons_of_mem _ (rest line (mem_cons_of_mem _ later) other within)
  induction text using linesBy.induct ends with
  | case1 => exact fun line member => nomatch member
  | case2 char marked =>
    intro line member other within
    rw [linesBy, if_pos marked, mem_singleton] at member
    rw [member] at within
    cases within
  | case3 char plain =>
    intro line member other within
    rw [linesBy, if_neg plain, mem_singleton] at member
    rwa [member] at within
  | case4 char next rest pair ih =>
    intro line member other within
    rw [linesBy, if_pos pair] at member
    rcases mem_cons.mp member with rfl | later
    · cases within
    · exact mem_cons_of_mem _ (mem_cons_of_mem _ (ih line later other within))
  | case5 char next rest single marked ih =>
    intro line member other within
    rw [linesBy, if_neg single, if_pos marked] at member
    rcases mem_cons.mp member with rfl | later
    · cases within
    · exact mem_cons_of_mem _ (ih line later other within)
  | case6 char next rest single plain ih =>
    rw [linesBy, if_neg single, if_neg plain]
    exact front ih

/-- Each line with a line feed after it. -/
def writeLines (lines : List Line) : List Char := lines.flatMap fun line => line ++ ['\n']

theorem linesBy_append (newline : ends '\n' = true) {line : Line}
    (plain : ∀ char ∈ line, ends char = false ∧ char ≠ '\r') (rest : List Char) :
    linesBy ends (line ++ '\n' :: rest) = line :: linesBy ends rest := by
  induction line with
  | nil =>
    cases rest with
    | nil => simp [linesBy, newline]
    | cons next others => simp [linesBy, newline]
  | cons char others ih =>
    have head := plain char mem_cons_self
    have tail := ih fun other member => plain other (mem_cons_of_mem _ member)
    cases others with
    | nil =>
      simp only [cons_append, nil_append] at tail ⊢
      rw [linesBy, if_neg (by simp [head.2]), if_neg (by simp [head.1]), tail]
      rfl
    | cons next more =>
      simp only [cons_append] at tail ⊢
      rw [linesBy, if_neg (by simp [head.2]), if_neg (by simp [head.1]), tail]
      rfl

/-- Written lines are read back by every reading that ends no line earlier. -/
theorem linesBy_writeLines (newline : ends '\n' = true) {lines : List Line}
    (plain : ∀ line ∈ lines, ∀ char ∈ line, ends char = false ∧ char ≠ '\r') :
    linesBy ends (writeLines lines) = lines := by
  induction lines with
  | nil => rfl
  | cons line rest ih =>
    have tail := ih fun other member => plain other (mem_cons_of_mem _ member)
    rw [writeLines, flatMap_cons, append_assoc]
    change linesBy ends (line ++ '\n' :: writeLines rest) = _
    rw [linesBy_append newline (plain line mem_cons_self), tail]

end Dash.Foundation
