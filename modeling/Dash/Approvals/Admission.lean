import Dash.Approvals.Policies
import Dash.Python.Plain

/-! The policies see every mutation that the handlers of their paths go on to. -/

set_option autoImplicit false

namespace Dash.Approvals

open Dash.Python Policies Handlers List
open Option (getD_none getD_some)

variable {F : Type} {rt : Runtime F}

def isAscii (text : String) : Bool := text.toList.all fun char => decide (char.toNat < 128)

/-- What `str.lower` and the text of a float are. -/
structure Spelling (rt : Runtime F) : Prop where
  /-- White space has no case. -/
  lower_strip : ∀ text, rt.lower (strip text) = strip (rt.lower text)
  ascii : ∀ text : String, isAscii text = true → rt.lower text = String.ofList (text.toList.map Char.toLower)
  zero : ∀ value, rt.nonzero value = false → rt.str (.float value) ∈ ["0.0", "-0.0"]

def falseTexts : List String := ["None", "False", "0", "0.0", "-0.0", "", "[]", "\x7b\x7d"]

theorem str_false (spelling : Spelling rt) {value : Value F} (false_ : rt.truthy value = false) :
    rt.str value ∈ falseTexts := by
  cases value with
  | none =>
    change "None" ∈ falseTexts
    decide
  | bool value =>
    cases value with
    | false =>
      change "False" ∈ falseTexts
      decide
    | true => cases false_
  | int value =>
    have zero : value = 0 := by simpa [Runtime.truthy] using false_
    subst zero
    change "0" ∈ falseTexts
    decide
  | float value =>
    have zeros : ∀ text ∈ ["0.0", "-0.0"], text ∈ falseTexts := by decide
    exact zeros _ (spelling.zero value false_)
  | str value =>
    have empty : value = "" := by simpa [Runtime.truthy] using false_
    subst empty
    change "" ∈ falseTexts
    decide
  | list items =>
    cases items with
    | nil =>
      change "[" ++ ("" ++ "]") ∈ falseTexts
      decide
    | cons item rest => cases false_
  | dict entries =>
    cases entries with
    | nil =>
      change "\x7b" ++ ("" ++ "\x7d") ∈ falseTexts
      decide
    | cons entry rest => cases false_

/-- `text.strip().lower()` of a text that is ASCII. -/
def plainLower (text : String) : String := String.ofList ((strip text).toList.map Char.toLower)

theorem strip_subset (text : String) : (strip text).toList ⊆ text.toList := by
  intro char member
  rw [strip, String.toList_ofList, stripChars] at member
  exact (dropWhile_sublist _).subset ((List.rdropWhile_prefix isSpace _).sublist.subset member)

theorem lower_plain (spelling : Spelling rt) {text : String} (ascii : isAscii text = true) :
    rt.lower (strip text) = plainLower text := by
  refine spelling.ascii _ (all_eq_true.mpr fun char member => ?_)
  exact all_eq_true.mp ascii char (strip_subset text member)

theorem lower_word (spelling : Spelling rt) {text word : String} (lower : rt.lower text = word)
    (plain : strip word = word) : rt.lower (strip text) = word := by
  rw [spelling.lower_strip, lower, plain]

theorem falseTexts_ascii : ∀ text ∈ falseTexts, isAscii text = true := by decide

variable {body : Value F}

/-- An action that no false value and no default spells is one the policy reads too. -/
theorem action_present (spelling : Spelling rt) {default name : String}
    (present : body.get? "action" ≠ none) (unspelled : ∀ text ∈ falseTexts, plainLower text ≠ name)
    (acts : Handlers.action rt body (.absent default) = name) : Policies.action rt body = name := by
  obtain ⟨value, found⟩ := Option.ne_none_iff_exists'.mp present
  have value_ : body.get "action" = value := by rw [Value.get, found]; rfl
  rw [Handlers.action, getOr, found] at acts
  cases given : rt.truthy value with
  | true =>
    rw [Policies.action, value_, Runtime.orElse, if_pos given]
    exact acts
  | false =>
    have text := str_false spelling given
    exact absurd ((lower_plain spelling (falseTexts_ascii _ text)).symm.trans acts) (unspelled _ text)

theorem action_read (spelling : Spelling rt) {default name : String}
    (ascii : isAscii default = true) (other : plainLower default ≠ name)
    (unspelled : ∀ text ∈ falseTexts, plainLower text ≠ name) :
    (Handlers.action rt body (.given default) = name → Policies.action rt body = name) ∧
      (Handlers.action rt body (.absent default) = name → Policies.action rt body = name) := by
  have read : rt.truthy (body.get "action") = true →
      Policies.action rt body = rt.lower (strip (rt.str (body.get "action"))) := by
    intro given
    rw [Policies.action, Runtime.orElse, if_pos given]
  constructor
  · intro acts
    rw [Handlers.action, Runtime.orElse] at acts
    split at acts
    · next given => exact (read given).trans acts
    · exact absurd ((lower_plain spelling ascii).symm.trans acts) other
  · intro acts
    cases found : body.get? "action" with
    | none =>
      rw [Handlers.action, getOr, found] at acts
      exact absurd ((lower_plain spelling ascii).symm.trans acts) other
    | some value => exact action_present spelling (found ▸ Option.some_ne_none value) unspelled acts

theorem truthy_off (spelling : Spelling rt) {value : Value F}
    (off : spelled rt value ∈ ["0", "false", "no", "off"]) : Policies.truthy rt value = false := by
  have words : ∀ word ∈ ["0", "false", "no", "off"], strip word = word ∧ word ∉ ["1", "true", "yes", "on"] := by decide
  obtain ⟨plain, other⟩ := words _ off
  unfold Policies.truthy
  rw [lower_word spelling rfl plain]
  exact decide_eq_false other

theorem spelled_true (spelling : Spelling rt) : spelled rt (.bool true : Value F) = "true" :=
  spelling.ascii "True" (by decide)

/-- A value that a handler reads as no dry run, as the policy reads it. -/
theorem decoded_off (spelling : Spelling rt) (value : Value F) : spelled rt value ∈ ["0", "false", "no", "off"] →
      (match value with
        | .bool value => value
        | value => Policies.truthy rt value) = false := by
  intro off
  cases value with
  | bool value =>
    cases value with
    | false => rfl
    | true =>
      rw [spelled_true spelling] at off
      exact absurd off (by decide)
  | none => exact truthy_off spelling off
  | int value => exact truthy_off spelling off
  | float value => exact truthy_off spelling off
  | str value => exact truthy_off spelling off
  | list items => exact truthy_off spelling off
  | dict entries => exact truthy_off spelling off

/-- The policy reads no dry run where the handlers read none. -/
theorem dryRun_read (spelling : Spelling rt)
    (executes : Handlers.dryRun rt body = false) : Policies.dryRun rt body true = false := by
  have off := Decidable.not_not.mp (of_decide_eq_false executes)
  unfold Policies.dryRun
  cases first : body.get? "dry_run" with
  | some value =>
    simp only [getOr, first, getD_some] at off ⊢
    exact decoded_off spelling _ off
  | none =>
    cases second : body.get? "dryRun" with
    | some value =>
      simp only [getOr, first, second, getD_some, getD_none] at off ⊢
      exact decoded_off spelling _ off
    | none =>
      -- Neither spelling: both sides take a dry run.
      simp only [getOr, first, second, getD_none] at off
      have default : spelled rt (.str "true" : Value F) = "true" := spelling.ascii "true" (by decide)
      rw [default] at off
      exact absurd off (by decide)

/-- Bodies that the handler of a path spells as its policy does. The handler of `/api/admin/item` has
one spelling of `dry_run` and strips no blanks, and that of `/api/admin/blueprints` has a default
action. -/
def Alike (rt : Runtime F) (path : String) (body : Value F) : Prop :=
  (path = "/api/admin/item" → (∀ value, body.get? "dry_run" = some value → strip (rt.str value) = rt.str value) ∧
    (body.get? "dry_run" = none → body.get? "dryRun" = none)) ∧
  (path = "/api/admin/blueprints" → body.get? "action" ≠ none)

theorem itemDryRun_read (spelling : Spelling rt)
    (alike : Alike rt "/api/admin/item" body) (executes : itemDryRun rt body = false) :
    Policies.dryRun rt body false = false := by
  obtain ⟨unpadded, one⟩ := alike.1 rfl
  have asked := of_decide_eq_false executes
  unfold Policies.dryRun
  cases first : body.get? "dry_run" with
  | none => simp [getOr, first, one first, getD_none]
  | some value =>
    simp only [getOr, first, getD_some] at asked ⊢
    have words : Policies.truthy rt value = false := by
      unfold Policies.truthy
      rw [unpadded value first]
      exact decide_eq_false asked
    cases value with
    | bool value =>
      cases value with
      | false => rfl
      | true =>
        rw [spelled_true spelling] at asked
        exact absurd (by decide) asked
    | none => exact words
    | int value => exact words
    | float value => exact words
    | str value => exact words
    | list items => exact words
    | dict entries => exact words

theorem executed_read (spelling : Spelling rt)
    (executes : spelled rt (getOr body "execute" (.str "")) ∈ ["1", "true", "yes", "on"]) :
    Policies.truthy rt (getOr body "execute" (.bool false)) = true := by
  have words : ∀ word ∈ ["1", "true", "yes", "on"], strip word = word := by decide
  cases found : body.get? "execute" with
  | none =>
    simp only [getOr, found, getD_none] at executes
    have empty : spelled rt (.str "" : Value F) = "" := spelling.ascii "" (by decide)
    rw [empty] at executes
    exact absurd executes (by decide)
  | some value =>
    simp only [getOr, found, getD_some] at executes ⊢
    unfold Policies.truthy
    rw [lower_word spelling rfl (words _ executes)]
    exact decide_eq_true executes

theorem confirm_read (spelling : Spelling rt) {phrase : String} (some_ : phrase ≠ "")
    (unspelled : ∀ text ∈ falseTexts, strip text ≠ phrase)
    (confirms : strip (rt.str (getOr body "confirm" (.str ""))) = phrase) :
    strip (rt.str (rt.orElse (body.get "confirm") (.str ""))) ≠ "" := by
  cases found : body.get? "confirm" with
  | none =>
    rw [getOr, found] at confirms
    exact absurd (strip_empty.symm.trans confirms) some_.symm
  | some value =>
    have value_ : body.get "confirm" = value := by rw [Value.get, found]; rfl
    rw [getOr, found, getD_some] at confirms
    cases given : rt.truthy value with
    | true =>
      rw [value_, Runtime.orElse, if_pos given, confirms]
      exact some_
    | false => exact absurd confirms (unspelled _ (str_false spelling given))

def Reading.default : Reading → String
  | .given default => default
  | .absent default => default

def unspelled (name : String) : Bool := falseTexts.all fun text => plainLower text ≠ name

def covers (path : String) : Predicate → Handling → Bool
  | .always, _ => true
  | .nonDry, .nonDry => true
  | .actions governed, .actions reading names => isAscii reading.default &&
    !names.contains (plainLower reading.default) && names.all fun name =>
      unspelled name && (governed.contains name || UNGOVERNED.contains (path, name))
  | .actionsNonDry governed, .actionsNonDry (.absent _) names =>
    decide (path = "/api/admin/blueprints") && names.all fun name =>
      unspelled name && governed.contains name
  | .confirmed, .confirmed phrase =>
    decide (phrase ≠ "") && falseTexts.all fun text => strip text ≠ phrase
  | .unlessDry, .unlessDry => path = "/api/admin/item"
  | .executed, .executed => UNGOVERNED.contains (path, "announce")
  | _, _ => false

theorem policies_cover : (POLICIES.all fun row =>
    ((HANDLERS.find? fun handler => handler.path = row.path).map fun handler =>
      covers row.path row.predicate handler.handling) = some true) = true := by
  decide

theorem holds_of_covers (spelling : Spelling rt) {path name : String} {predicate : Predicate}
    {handling : Handling} (covered : covers path predicate handling = true)
    (mutates : handle rt body handling = some name) (named : (path, name) ∉ UNGOVERNED)
    (alike : Alike rt path body) : holds rt body predicate = true := by
  unfold covers at covered
  split at covered
  · rfl
  · -- Dry runs.
    simp only [handle] at mutates
    split at mutates
    · cases mutates
    · next executes =>
      rw [holds, dryRun_read spelling (Bool.eq_false_of_not_eq_true executes)]
      rfl
  · next governed reading names =>
    simp only [handle] at mutates
    split at mutates
    · next acts =>
      have same := Option.some.inj mutates
      simp only [Bool.and_eq_true, Bool.not_eq_true', all_eq_true, Bool.or_eq_true, contains_iff_mem] at covered
      obtain ⟨⟨ascii, other⟩, each⟩ := covered
      rw [same] at acts
      obtain ⟨free, listed⟩ := each name acts
      have apart : plainLower reading.default ≠ name := by
        rintro rfl
        exact absurd (contains_iff_mem.mpr acts) (by rw [other]; exact Bool.false_ne_true)
      have free' : ∀ text ∈ falseTexts, plainLower text ≠ name := fun text member =>
        of_decide_eq_true (all_eq_true.mp free text member)
      have read : Policies.action rt body = name := by
        cases reading with
        | given default => exact (action_read spelling ascii apart free').1 same
        | absent default => exact (action_read spelling ascii apart free').2 same
      rw [holds, read]
      exact decide_eq_true (listed.resolve_right named)
    · cases mutates
  · next governed default names =>
    simp only [handle] at mutates
    split at mutates
    · next acts =>
      have same := Option.some.inj mutates
      simp only [Bool.and_eq_true, all_eq_true, decide_eq_true_eq, contains_iff_mem] at covered
      obtain ⟨here, each⟩ := covered
      obtain ⟨member, executes⟩ := acts
      rw [same] at member
      obtain ⟨free, listed⟩ := each name member
      have read : Policies.action rt body = name := action_present spelling (alike.2 here)
        (fun text member => of_decide_eq_true (all_eq_true.mp free text member)) same
      rw [holds, read, dryRun_read spelling executes]
      exact Bool.and_eq_true_iff.mpr ⟨decide_eq_true listed, rfl⟩
    · cases mutates
  · next phrase =>
    simp only [handle] at mutates
    split at mutates
    · next confirms =>
      simp only [Bool.and_eq_true, all_eq_true, decide_eq_true_eq] at covered
      exact decide_eq_true (confirm_read spelling covered.1 covered.2 confirms)
    · cases mutates
  · simp only [handle] at mutates
    split at mutates
    · cases mutates
    · next executes =>
      have here := of_decide_eq_true covered
      subst here
      rw [holds, itemDryRun_read spelling alike (Bool.eq_false_of_not_eq_true executes)]
      rfl
  · simp only [handle] at mutates
    split at mutates
    · next executes => exact executed_read spelling executes
    · cases mutates
      exact absurd (contains_iff_mem.mp covered) named
  · cases covered

/-- Whenever the handler of a governed path goes on to a mutation that a policy names, the path's
policy applies to the body. -/
theorem mutation_governed (spelling : Spelling rt) {path : String}
    (governed : path ∈ POLICIES.map PolicyRow.path) {body : Value F} (object : body.isDict = true)
    {name : String} (mutates : mutation rt path body = some name)
    (named : (path, name) ∉ UNGOVERNED) (alike : Alike rt path body) :
    ∃ policy, policyFor rt path body = .ok (some policy) := by
  have whole : ∀ path ∈ POLICIES.map PolicyRow.path, before '?' path = path := by decide
  obtain ⟨row, found⟩ : ∃ row, POLICIES.find? (fun row => row.path = path) = some row := by
    obtain ⟨row, member, same⟩ := mem_map.mp governed
    exact Option.isSome_iff_exists.mp (List.find?_isSome.mpr ⟨row, member, decide_eq_true same⟩)
  have same : row.path = path := by simpa using List.find?_some found
  have covered := of_decide_eq_true (all_eq_true.mp policies_cover row (List.mem_of_find?_eq_some found))
  obtain ⟨handler, handles, covered⟩ := Option.map_eq_some_iff.mp covered
  rw [same] at handles covered
  rw [mutation, handles, Option.bind_some] at mutates
  have predicate := holds_of_covers spelling covered mutates named alike
  refine ⟨⟨path, row.risk, row.label⟩, ?_⟩
  simp [policyFor, whole path governed, object, found, predicate]

theorem isSpace_toLower (char : Char) : isSpace char.toLower = isSpace char := by
  by_cases upper : 65 ≤ char.toNat ∧ char.toNat ≤ 90
  · have letters : ∀ code < 91, 65 ≤ code → isSpace (Char.ofNat code).toLower = isSpace (Char.ofNat code) := by decide
    have same := letters char.toNat (by omega) upper.1
    rwa [Char.ofNat_toNat] at same
  · unfold Char.toLower
    split
    · next bounds => exact absurd bounds upper
    · rfl

theorem stripChars_toLower (text : List Char) :
    stripChars (text.map Char.toLower) = (stripChars text).map Char.toLower := by
  have space : isSpace ∘ Char.toLower = isSpace := funext isSpace_toLower
  rw [stripChars, stripChars, dropWhile_map, space, List.rdropWhile, List.rdropWhile,
    ← map_reverse, dropWhile_map, space, map_reverse]

theorem plain_spelling : Spelling plainRuntime where
  lower_strip text := by
    change String.ofList ((strip text).toList.map Char.toLower) = strip (String.ofList (text.toList.map Char.toLower))
    rw [strip, strip, String.toList_ofList, String.toList_ofList, stripChars_toLower]
  ascii _ _ := rfl
  zero _ := nofun

def reportBody : Value FloatText :=
  .object [("action", .str "case-create"), ("summary", .str "Reported player")]

/-- A moderation case is opened, and no policy applies to it. -/
theorem case_ungoverned : "/api/moderation" ∈ POLICIES.map PolicyRow.path ∧
    reportBody.isDict = true ∧ mutation plainRuntime "/api/moderation" reportBody = some "case-create" ∧
    policyFor plainRuntime "/api/moderation" reportBody = .ok none := by
  refine ⟨by decide, rfl, by decide, ?_⟩
  rfl

def restoreBody : Value FloatText := .object [("path", .str "set"), ("dryRun", .bool false)]

theorem mutation_governed_restore :
    ∃ policy, policyFor plainRuntime "/api/ops/backups/restore" restoreBody = .ok (some policy) :=
  mutation_governed plain_spelling (by decide) rfl
    (show mutation plainRuntime "/api/ops/backups/restore" restoreBody = some "" by decide)
    (by decide) ⟨by decide, by decide⟩

end Dash.Approvals
