import Dash.Intelligence.Ledger
import Dash.Python.Plain

/-! What of an identity reaches the stored columns.

Two events are alike if they differ only in values that the keys above them free. Values under keys
of secrets never matter. Strings under keys of identities matter through their pseudonyms only; a
number or a truth value there is stored as it is.
-/

set_option autoImplicit false

namespace Dash.Intelligence

open Dash.Python Dash.Foundation

variable {F : Type}

namespace Sanitizer

variable (rt : Sanitizer F)

mutual
/-- The values are the same but for those that are free under their keys. -/
def Alike (free : String → Value F → Value F → Prop) (key : String) : Value F → Value F → Prop
  | .list items, other =>
    free key (.list items) other ∨ ∃ others, other = .list others ∧ AlikeItems free key items others
  | .dict entries, other =>
    free key (.dict entries) other ∨ ∃ others, other = .dict others ∧ AlikeEntries free entries others
  | .none, other => free key .none other ∨ other = .none
  | .bool value, other => free key (.bool value) other ∨ other = .bool value
  | .int value, other => free key (.int value) other ∨ other = .int value
  | .float value, other => free key (.float value) other ∨ other = .float value
  | .str value, other => free key (.str value) other ∨ other = .str value

def AlikeItems (free : String → Value F → Value F → Prop) (key : String) : List (Value F) → List (Value F) → Prop
  | [], others => others = []
  | item :: rest, others => ∃ other left, others = other :: left ∧ Alike free key item other ∧
      AlikeItems free key rest left

def AlikeEntries (free : String → Value F → Value F → Prop) : List (Key F × Value F) → List (Key F × Value F) → Prop
  | [], others => others = []
  | (key, item) :: rest, others => ∃ other left, others = (key, other) :: left ∧
      Alike free (rt.keyStr key) item other ∧ AlikeEntries free rest left
end

def Secret (key : String) (_ _ : Value F) : Prop := sensitiveKey key = true

def Pseudonymous (key : String) (first second : Value F) : Prop :=
  identityKey key = true ∧ (∃ text, first = .str text) ∧ ∃ text, second = .str text

def Hidden (key : String) (first second : Value F) : Prop :=
  Secret key first second ∨ Pseudonymous key first second

variable {rt} {free : String → Value F → Value F → Prop}

variable {first second : Value F} {key : String}

theorem Alike.shape (alike : rt.Alike free key first second) : free key first second ∨ first = second ∨
      (∃ items others, first = .list items ∧ second = .list others ∧ rt.AlikeItems free key items others) ∨
      ∃ entries others, first = .dict entries ∧ second = .dict others ∧
        rt.AlikeEntries free entries others := by
  cases first with
  | list items =>
    rcases alike with allowed | ⟨others, same, rest⟩
    · exact Or.inl allowed
    · exact Or.inr (Or.inr (Or.inl ⟨items, others, rfl, same, rest⟩))
  | dict entries =>
    rcases alike with allowed | ⟨others, same, rest⟩
    · exact Or.inl allowed
    · exact Or.inr (Or.inr (Or.inr ⟨entries, others, rfl, same, rest⟩))
  | _ =>
    rcases alike with allowed | same
    · exact Or.inl allowed
    · exact Or.inr (Or.inl same.symm)

mutual
theorem alike_refl : ∀ (value : Value F) (key : String), rt.Alike free key value value
  | .list items, key => Or.inr ⟨items, rfl, alikeItems_refl items key⟩
  | .dict entries, _ => Or.inr ⟨entries, rfl, alikeEntries_refl entries⟩
  | .none, _ => Or.inr rfl
  | .bool _, _ => Or.inr rfl
  | .int _, _ => Or.inr rfl
  | .float _, _ => Or.inr rfl
  | .str _, _ => Or.inr rfl

theorem alikeItems_refl : ∀ (items : List (Value F)) (key : String), rt.AlikeItems free key items items
  | [], _ => rfl
  | item :: rest, key => ⟨item, rest, rfl, alike_refl item key, alikeItems_refl rest key⟩

theorem alikeEntries_refl : ∀ entries : List (Key F × Value F), rt.AlikeEntries free entries entries
  | [] => rfl
  | (_, item) :: rest => ⟨item, rest, rfl, alike_refl item _, alikeEntries_refl rest⟩
end

def Unseen (rt : Sanitizer F) (free : String → Value F → Value F → Prop) : Prop :=
  ∀ key first second depth, free key first second → rt.sanitize key depth first = rt.sanitize key depth second

mutual
/-- What is unseen under its key is unseen at any place. -/
theorem sanitize_alike (allowed : rt.Unseen free) : ∀ (first : Value F) {key : String} {second : Value F} (depth : Nat),
    rt.Alike free key first second → rt.sanitize key depth first = rt.sanitize key depth second
  | .list items, key, second, depth, alike => by
    rcases alike with differs | ⟨others, rfl, rest⟩
    · exact allowed _ _ _ _ differs
    · simp only [sanitize]
      rw [sanitizeItems_alike allowed items (depth + 1) 32 rest]
  | .dict entries, key, second, depth, alike => by
    rcases alike with differs | ⟨others, rfl, rest⟩
    · exact allowed _ _ _ _ differs
    · simp only [sanitize]
      rw [sanitizeEntries_alike allowed entries (depth + 1) 64 rest]
  | .none, _, _, _, alike => alike.elim (allowed _ _ _ _) fun same => same ▸ rfl
  | .bool _, _, _, _, alike => alike.elim (allowed _ _ _ _) fun same => same ▸ rfl
  | .int _, _, _, _, alike => alike.elim (allowed _ _ _ _) fun same => same ▸ rfl
  | .float _, _, _, _, alike => alike.elim (allowed _ _ _ _) fun same => same ▸ rfl
  | .str _, _, _, _, alike => alike.elim (allowed _ _ _ _) fun same => same ▸ rfl

theorem sanitizeItems_alike (allowed : rt.Unseen free) : ∀ (items : List (Value F)) {key : String} {others : List (Value F)}
    (depth left : Nat), rt.AlikeItems free key items others →
      rt.sanitizeItems key depth left items = rt.sanitizeItems key depth left others
  | [], _, _, _, _, alike => by
    rw [alike]
  | _ :: _, _, _, _, 0, alike => by
    obtain ⟨other, left, rfl, -, -⟩ := alike
    rfl
  | item :: rest, _, _, depth, left + 1, alike => by
    obtain ⟨other, others, rfl, head, tail⟩ := alike
    simp only [sanitizeItems]
    rw [sanitize_alike allowed item depth head, sanitizeItems_alike allowed rest depth left tail]

theorem sanitizeEntries_alike (allowed : rt.Unseen free) : ∀ (entries : List (Key F × Value F))
    {others : List (Key F × Value F)} (depth left : Nat), rt.AlikeEntries free entries others →
      rt.sanitizeEntries depth left entries = rt.sanitizeEntries depth left others
  | [], _, _, _, alike => by
    rw [alike]
  | (_, _) :: _, _, _, 0, alike => by
    obtain ⟨other, left, rfl, -, -⟩ := alike
    rfl
  | (key, item) :: rest, _, depth, left + 1, alike => by
    obtain ⟨other, others, rfl, head, tail⟩ := alike
    simp only [sanitizeEntries]
    rw [sanitize_alike allowed item depth head, sanitizeEntries_alike allowed rest depth left tail]
end

theorem sanitize_secret (secret : sensitiveKey key = true) (depth : Nat)
    (value : Value F) : rt.sanitize key depth value =
      if 6 < depth then .str "<depth-limit>" else .str "<redacted>" := by
  cases value <;> simp [sanitize, guarded, secret]

variable {placeholder : String}

theorem sanitize_pseudonym (identity : identityKey key = true) (depth : Nat) (text : String) :
    (rt.masked placeholder).sanitize key depth (.str text) = guarded key depth (.str ("hmac:" ++ placeholder)) := by
  simp [sanitize, sanitizeText, identity, masked]

theorem hidden_unseen (placeholder : String) : (rt.masked placeholder).Unseen Hidden := by
  intro key first second depth hidden
  rcases hidden with secret | ⟨identity, ⟨one, rfl⟩, two, rfl⟩
  · rw [sanitize_secret secret, sanitize_secret secret]
  · rw [sanitize_pseudonym identity, sanitize_pseudonym identity]

theorem AlikeEntries.filter {keep : Key F → Bool} {entries others : List (Key F × Value F)}
    (alike : rt.AlikeEntries free entries others) :
    rt.AlikeEntries free (entries.filter fun entry => keep entry.1) (others.filter fun entry => keep entry.1) := by
  induction entries generalizing others with
  | nil =>
    subst alike
    rfl
  | cons entry rest ih =>
    obtain ⟨key, item⟩ := entry
    obtain ⟨other, left, rfl, head, tail⟩ := alike
    by_cases kept : keep key = true
    · simp only [List.filter_cons, kept, if_true]
      exact ⟨other, _, rfl, head, ih tail⟩
    · simp only [List.filter_cons, kept]
      exact ih tail

theorem AlikeEntries.get {entries others : List (Key F × Value F)} (name : String)
    (alike : rt.AlikeEntries free entries others) :
    rt.Alike free name ((Value.dict entries).get name) ((Value.dict others).get name) := by
  induction entries generalizing others with
  | nil =>
    subst alike
    exact Or.inr rfl
  | cons entry rest ih =>
    obtain ⟨key, item⟩ := entry
    obtain ⟨other, left, rfl, head, tail⟩ := alike
    by_cases named : key.named name = true
    · have same : rt.keyStr key = name := by
        cases key <;> simp [Key.named] at named
        exact named
      simp only [Value.get, Value.get?, List.find?_cons, named, Option.map_some, Option.getD_some]
      rw [same] at head
      exact head
    · have step := ih tail
      simp only [Value.get, Value.get?, List.find?_cons, named] at step ⊢
      exact step

def Open (rt : Sanitizer F) (first second : Value F) : Prop :=
  ∃ key, sensitiveKey key = false ∧ identityKey key = false ∧ rt.Alike Hidden key first second

theorem Open.shape (opened : rt.Open first second) :
    first = second ∨ (∃ items others key, first = .list items ∧ second = .list others ∧
        rt.AlikeItems Hidden key items others) ∨
      ∃ entries others, first = .dict entries ∧ second = .dict others ∧
        rt.AlikeEntries Hidden entries others := by
  obtain ⟨key, plain, anonymous, alike⟩ := opened
  rcases alike.shape with (secret | ⟨identity, -⟩) | same | ⟨items, others, one, two, rest⟩ | dicts
  · rw [show sensitiveKey key = true from secret] at plain
    cases plain
  · rw [identity] at anonymous
    cases anonymous
  · exact Or.inl same
  · exact Or.inr (Or.inl ⟨items, others, key, one, two, rest⟩)
  · exact Or.inr (Or.inr dicts)

def Bracketed (rt : Sanitizer F) (value : Value F) : Prop :=
  ∃ bracket rest, (bracket = "[" ∨ bracket = "\x7b") ∧ rt.str value = bracket ++ rest

theorem bracketed_list (items : List (Value F)) : rt.Bracketed (.list items) :=
  ⟨"[", _, Or.inl rfl, rfl⟩

theorem bracketed_dict (entries : List (Key F × Value F)) : rt.Bracketed (.dict entries) :=
  ⟨"\x7b", _, Or.inr rfl, rfl⟩

theorem Open.same_or (opened : rt.Open first second) :
    first = second ∨ (rt.Bracketed first ∧ rt.Bracketed second ∧
      rt.truthy first = rt.truthy second ∧ first.isNone = false ∧ second.isNone = false) := by
  rcases opened.shape with same | ⟨items, others, key, rfl, rfl, rest⟩ | ⟨entries, others, rfl, rfl, rest⟩
  · exact Or.inl same
  · refine Or.inr ⟨bracketed_list _, bracketed_list _, ?_, rfl, rfl⟩
    cases items with
    | nil =>
      rw [rest]
    | cons item left =>
      obtain ⟨other, left, rfl, -⟩ := rest
      rfl
  · refine Or.inr ⟨bracketed_dict _, bracketed_dict _, ?_, rfl, rfl⟩
    cases entries with
    | nil =>
      rw [rest]
    | cons entry left =>
      obtain ⟨other, left, rfl, -⟩ := rest
      rfl

theorem Open.orElse {first second other another : Value F} (opened : rt.Open first second)
    (others : rt.Open other another) :
    rt.Open (rt.orElse first other) (rt.orElse second another) := by
  have truths : rt.truthy first = rt.truthy second := by
    rcases opened.same_or with same | ⟨-, -, same, -⟩
    · rw [same]
    · exact same
  unfold Runtime.orElse
  rw [truths]
  split
  · exact opened
  · exact others

theorem bracketed_strip {bracket rest : String} (opens : bracket = "[" ∨ bracket = "\x7b") :
    ∃ char left, (char = '[' ∨ char = '\x7b') ∧ (strip (bracket ++ rest)).toList = char :: left := by
  rcases opens with rfl | rfl
  · have start := @startsWith_strip "[" rest (by decide) (by decide)
    obtain ⟨left, same⟩ := startsWith_iff.mp start
    exact ⟨'[', left.toList, Or.inl rfl, by rw [same, String.toList_append]; rfl⟩
  · have start := @startsWith_strip "\x7b" rest (by decide) (by decide)
    obtain ⟨left, same⟩ := startsWith_iff.mp start
    exact ⟨'\x7b', left.toList, Or.inr rfl, by rw [same, String.toList_append]; rfl⟩

variable {value : Value F}

theorem Bracketed.solid (bracketed : rt.Bracketed value) : strip (rt.str value) ≠ "" := by
  obtain ⟨bracket, rest, opens, text⟩ := bracketed
  obtain ⟨char, left, -, shown⟩ := @bracketed_strip bracket rest opens
  rw [text]
  intro empty
  rw [empty] at shown
  cases shown

theorem Bracketed.clipped (bracketed : rt.Bracketed value) :
    clip 128 (strip (rt.str value)) ≠ "" ∧ isActor (clip 128 (strip (rt.str value))) = false ∧
      isName (clip 128 (strip (rt.str value))) = false := by
  obtain ⟨bracket, rest, opens, text⟩ := bracketed
  obtain ⟨char, left, which, shown⟩ := @bracketed_strip bracket rest opens
  have clipped : (clip 128 (strip (rt.str value))).toList = char :: left.take 127 := by
    rw [clip, String.toList_ofList, text, shown]
    rfl
  refine ⟨?_, ?_, ?_⟩
  · intro empty
    rw [empty] at clipped
    cases clipped
  · unfold isActor
    rw [clipped]
    rcases which with rfl | rfl <;> simp [isWord]
  · unfold isName
    rw [clipped]
    rcases which with rfl | rfl <;> simp [isWord]

/-- `event_scope` finds nothing in the value. -/
def blank (rt : Sanitizer F) (value : Value F) : Bool :=
  value.isNone || decide (strip (rt.str value) = "")

theorem Bracketed.not_blank (bracketed : rt.Bracketed value)
    (present : value.isNone = false) : rt.blank value = false := by
  unfold blank
  rw [present, decide_eq_false bracketed.solid]
  rfl

theorem scopeOf_blank (nothing : rt.blank value = true) : rt.scopeOf key value = [] := by
  unfold scopeOf
  rw [if_neg]
  unfold blank at nothing
  cases absent : value.isNone with
  | true => simp
  | false => simpa [absent] using nothing

theorem scopeOf_present (something : rt.blank value = false) :
    rt.scopeOf key value = [key ++ ":" ++ clip 160 (if key = "target" ∨ key = "subject" then
        "hmac:" ++ rt.hmacValue (strip (rt.str value))
      else rt.str (rt.sanitize key 0 value))] := by
  unfold blank at something
  rw [Bool.or_eq_false_iff, decide_eq_false_iff_not] at something
  unfold scopeOf
  rw [if_pos]
  simpa using something

theorem scopeKeys_plain : ∀ key ∈ scopeKeys, sensitiveKey key = false := by decide

theorem scopeKeys_identity : ∀ key ∈ scopeKeys, identityKey key = true → key = "target" ∨ key = "subject" := by decide

theorem scopeOf_alike {placeholder key : String} (listed : key ∈ scopeKeys)
    (alike : (rt.masked placeholder).Alike Hidden key first second)
    (blanks : key = "target" ∨ key = "subject" → rt.blank first = rt.blank second) :
    (rt.masked placeholder).scopeOf key first = (rt.masked placeholder).scopeOf key second := by
  have sanitized := sanitize_alike (hidden_unseen placeholder) first 0 alike
  have both : (rt.masked placeholder).blank first = false → (rt.masked placeholder).blank second = false →
      (rt.masked placeholder).scopeOf key first = (rt.masked placeholder).scopeOf key second := by
    intro one two
    rw [scopeOf_present one, scopeOf_present two, sanitized]
    rfl
  rcases alike.shape with (secret | ⟨identity, -⟩) | same | ⟨items, others, rfl, rfl, -⟩ |
    ⟨entries, others, rfl, rfl, -⟩
  · have plain := scopeKeys_plain key listed
    rw [show sensitiveKey key = true from secret] at plain
    cases plain
  · have same : (rt.masked placeholder).blank first = (rt.masked placeholder).blank second :=
      blanks (scopeKeys_identity key listed identity)
    cases nothing : (rt.masked placeholder).blank first with
    | true =>
      rw [scopeOf_blank nothing, scopeOf_blank (same ▸ nothing)]
    | false => exact both nothing (same ▸ nothing)
  · rw [same]
  · exact both ((bracketed_list items).not_blank rfl) ((bracketed_list others).not_blank rfl)
  · exact both ((bracketed_dict entries).not_blank rfl) ((bracketed_dict others).not_blank rfl)

def AlikeEvents (rt : Sanitizer F) (free : String → Value F → Value F → Prop) (first second : Value F) : Prop :=
  ∃ entries others, first = .dict entries ∧ second = .dict others ∧ rt.AlikeEntries free entries others

theorem AlikeEvents.get (alike : rt.AlikeEvents free first second)
    (name : String) : rt.Alike free name (first.get name) (second.get name) := by
  obtain ⟨entries, others, rfl, rfl, rest⟩ := alike
  exact rest.get name

theorem AlikeEvents.payload (alike : rt.AlikeEvents free first second)
    (key : String) : rt.Alike free key (payloadOf first) (payloadOf second) := by
  obtain ⟨entries, others, rfl, rfl, rest⟩ := alike
  exact Or.inr ⟨_, rfl, @AlikeEntries.filter _ _ _ (fun key => !(ownColumns.any fun name => key.named name)) _ _ rest⟩

theorem AlikeEvents.open (alike : rt.AlikeEvents Hidden first second)
    (name : String) (plain : sensitiveKey name = false) (anonymous : identityKey name = false) :
    rt.Open (first.get name) (second.get name) :=
  ⟨name, plain, anonymous, alike.get name⟩

theorem Open.identified (opened : rt.Open first second) :
    rt.Open (if first.isDict then first.get "id" else first)
      (if second.isDict then second.get "id" else second) := by
  rcases opened.shape with rfl | ⟨items, others, key, rfl, rfl, rest⟩ | ⟨entries, others, rfl, rfl, rest⟩
  · split
    · exact ⟨"id", by decide, by decide, alike_refl _ _⟩
    · exact opened
  · exact opened
  · exact ⟨"id", by decide, by decide, rest.get "id"⟩

theorem principalOf_open (alike : rt.AlikeEvents Hidden first second) :
    rt.Open (rt.principalOf first) (rt.principalOf second) :=
  (((alike.open "actor" (by decide) (by decide)).orElse (alike.open "principal_id" (by decide) (by decide))).orElse
    (alike.open "principal" (by decide) (by decide))).identified

theorem actorOf_alike (alike : (rt.masked placeholder).AlikeEvents Hidden first second) :
    (rt.masked placeholder).actorOf first = (rt.masked placeholder).actorOf second := by
  unfold actorOf
  rcases (principalOf_open alike).same_or with same | ⟨one, two, truths, -⟩
  · rw [same]
  · simp only [truths]
    split
    · rw [if_pos ⟨one.clipped.1, one.clipped.2.1⟩, if_pos ⟨two.clipped.1, two.clipped.2.1⟩]
      rfl
    · rfl

theorem actionOf_alike (alike : rt.AlikeEvents Hidden first second)
    (valid : isName (rt.actionOf first) = true) : rt.actionOf first = rt.actionOf second := by
  have opened := (alike.open "action" (by decide) (by decide)).orElse
    ⟨"", by decide, by decide, alike_refl (.str "") ""⟩
  rcases opened.same_or with same | ⟨one, -⟩
  · unfold actionOf
    rw [same]
  · unfold actionOf at valid
    rw [one.clipped.2.2] at valid
    cases valid

theorem eventScope_alike (action : String) (alike : (rt.masked placeholder).AlikeEvents Hidden first second)
    (blanks : ∀ key, key = "target" ∨ key = "subject" → rt.blank (first.get key) = rt.blank (second.get key)) :
    (rt.masked placeholder).eventScope action first = (rt.masked placeholder).eventScope action second := by
  have parts : (scopeKeys.flatMap fun key => (rt.masked placeholder).scopeOf key (first.get key)) =
      scopeKeys.flatMap fun key => (rt.masked placeholder).scopeOf key (second.get key) := by
    rw [List.flatMap_def, List.flatMap_def]
    exact congrArg List.flatten (List.map_congr_left fun key listed =>
      scopeOf_alike listed (alike.get key) (blanks key))
  unfold eventScope
  rw [parts]

end Sanitizer

end Dash.Intelligence
