import Dash.Intelligence.Agreement
import Dash.Intelligence.Pseudonyms

/-! Which values of identities are stored as they are, and what the ledger keeps of alike events. -/

set_option autoImplicit false

namespace Dash.Intelligence

open Dash.Python Dash.Foundation List
open Foundation.Transaction (check_bind guard_ok lift_bind pure_ok read_bind write_bind)

variable {F : Type}

def lookup (name : String) (entries : List (Key F × Value F)) : Option (Value F) :=
  (entries.find? fun entry => entry.1.named name).map Prod.snd

theorem named_unique {key : Key F} {first second : String} (one : key.named first = true)
    (two : key.named second = true) : first = second := by
  cases key <;> simp [Key.named] at one two
  exact one.symm.trans two

theorem lookup_replace (name : String) (entries : List (Key F × Value F)) (pair : String × Value F) :
    lookup name (entries.map fun entry =>
        if entry.1.named pair.1 then (entry.1, pair.2) else entry) =
      if pair.1 = name then (lookup name entries).map fun _ => pair.2 else lookup name entries := by
  induction entries with
  | nil => by_cases same : pair.1 = name <;> simp [lookup, same]
  | cons entry rest ih =>
    unfold lookup at ih ⊢
    rw [map_cons, List.find?_cons, List.find?_cons]
    by_cases found : entry.1.named name = true
    · by_cases replaced : entry.1.named pair.1 = true
      · have same := named_unique replaced found
        simp [found, same]
      · have other : pair.1 ≠ name := by
          rintro rfl
          exact replaced found
        simp [found, replaced, other]
    · by_cases replaced : entry.1.named pair.1 = true
      · simp only [replaced, if_true, found]
        exact ih
      · simp only [replaced, Bool.false_eq_true, if_false, found]
        exact ih

theorem lookup_insert (name : String) (entries : List (Key F × Value F)) (pair : String × Value F) :
    lookup name (insertEntry entries pair) =
      if pair.1 = name then some pair.2 else lookup name entries := by
  unfold insertEntry
  by_cases present : (entries.any fun entry => entry.1.named pair.1) = true
  · rw [if_pos present, lookup_replace]
    by_cases same : pair.1 = name
    · rw [if_pos same, if_pos same]
      rw [same] at present
      have found : (entries.find? fun entry => entry.1.named name).isSome = true := by
        rw [List.find?_isSome]
        obtain ⟨entry, member, named⟩ := any_eq_true.mp present
        exact ⟨entry, member, named⟩
      unfold lookup
      cases hit : entries.find? fun entry => entry.1.named name with
      | none =>
        rw [hit] at found
        cases found
      | some entry => rfl
    · rw [if_neg same, if_neg same]
  · rw [if_neg present]
    unfold lookup
    rw [List.find?_append]
    have absent : ∀ entry ∈ entries, ¬ entry.1.named pair.1 = true := by
      intro entry member named
      exact present (any_eq_true.mpr ⟨entry, member, named⟩)
    by_cases same : pair.1 = name
    · have nothing : (entries.find? fun entry => entry.1.named name) = none := by
        rw [List.find?_eq_none, ← same]
        exact absent
      rw [nothing]
      simp [same, Key.named]
    · cases entries.find? fun entry => entry.1.named name with
      | some entry => simp [same]
      | none => simp [same, Key.named]

theorem lookup_dictOf {name : String} {value : Value F} (before : List (String × Value F))
    {after : List (String × Value F)} (last : ∀ pair ∈ after, pair.1 ≠ name) :
    lookup name (dictOf (before ++ (name, value) :: after)) = some value := by
  unfold dictOf
  rw [foldl_append, foldl_cons]
  have kept : ∀ entries : List (Key F × Value F), lookup name entries = some value →
      lookup name (after.foldl insertEntry entries) = some value := by
    induction after with
    | nil => exact fun _ found => found
    | cons pair rest ih =>
      intro entries found
      apply ih fun other member => last other (mem_cons_of_mem _ member)
      rw [lookup_insert, if_neg (last pair (mem_cons_self)), found]
  exact kept _ ((lookup_insert _ _ _).trans (if_pos rfl))

inductive Place (F : Type) where
  | here
  | item (before : List (Value F)) (inner : Place F) (after : List (Value F))
  | entry (before : List (Key F × Value F)) (key : Key F) (inner : Place F)
      (after : List (Key F × Value F))

namespace Place

def fill (value : Value F) : Place F → Value F
  | .here => value
  | .item before inner after => .list (before ++ inner.fill value :: after)
  | .entry before key inner after => .dict (before ++ (key, inner.fill value) :: after)

end Place

namespace Sanitizer

variable (rt : Sanitizer F)

def keyAt (key : String) : Place F → String
  | .here => key
  | .item _ inner _ => keyAt key inner
  | .entry _ own inner _ => keyAt (rt.keyStr own) inner

def depthAt (depth : Nat) : Place F → Nat
  | .here => depth
  | .item _ inner _ => depthAt (depth + 1) inner
  | .entry _ _ inner _ => depthAt (depth + 1) inner

/-- `sanitize` comes to the place: not too deep, under no secret, within the first items and
entries, and no later entry has the same clipped key. -/
def Reached (key : String) (depth : Nat) : Place F → Prop
  | .here => depth ≤ 6 ∧ sensitiveKey key = false
  | .item before inner _ => depth ≤ 6 ∧ sensitiveKey key = false ∧ before.length < 32 ∧
      Reached key (depth + 1) inner
  | .entry before own inner after => depth ≤ 6 ∧ sensitiveKey key = false ∧ before.length < 64 ∧
      (∀ other ∈ after.take (63 - before.length), clip 128 (rt.keyStr other.1) ≠ clip 128 (rt.keyStr own)) ∧
      Reached (rt.keyStr own) (depth + 1) inner

variable {rt}

theorem sanitizeItems_map (key : String) (depth left : Nat) (items : List (Value F)) :
    rt.sanitizeItems key depth left items = (items.take left).map (rt.sanitize key depth) := by
  induction items generalizing left with
  | nil => cases left <;> rfl
  | cons item rest ih =>
    cases left with
    | zero => rfl
    | succ left => rw [sanitizeItems, ih, take_succ_cons, map_cons]

theorem sanitizeEntries_map (depth left : Nat) (entries : List (Key F × Value F)) :
    rt.sanitizeEntries depth left entries = (entries.take left).map fun entry =>
      (clip 128 (rt.keyStr entry.1), rt.sanitize (rt.keyStr entry.1) depth entry.2) := by
  induction entries generalizing left with
  | nil => cases left <;> rfl
  | cons entry rest ih =>
    cases left with
    | zero => rfl
    | succ left => rw [sanitizeEntries, ih, take_succ_cons, map_cons]

theorem take_around {α : Type} {before after : List α} {item : α} {count : Nat} (short : before.length < count) :
    (before ++ item :: after).take count = before ++ item :: after.take (count - 1 - before.length) := by
  rw [take_append, take_of_length_le (Nat.le_of_lt short)]
  have step : count - before.length = (count - 1 - before.length) + 1 := by omega
  rw [step, take_succ_cons]

variable {depth : Nat} {key : String}

theorem guarded_passes (shallow : depth ≤ 6)
    (plain : sensitiveKey key = false) (value : Value F) : guarded key depth value = value := by
  unfold guarded
  rw [if_neg (Nat.not_lt.mpr shallow), plain, if_neg Bool.false_ne_true]

/-- What is at a place that is reached shows in what is stored. -/
theorem sanitize_place {first second : Value F} (place : Place F) (reached : rt.Reached key depth place)
    (same : rt.sanitize key depth (place.fill first) = rt.sanitize key depth (place.fill second)) :
    rt.sanitize (rt.keyAt key place) (depthAt depth place) first =
      rt.sanitize (rt.keyAt key place) (depthAt depth place) second := by
  induction place generalizing key depth with
  | here => exact same
  | item before inner after ih =>
    obtain ⟨shallow, plain, short, rest⟩ := reached
    apply ih rest
    simp only [Place.fill, sanitize, guarded_passes shallow plain, sanitizeItems_map,
      take_around short, map_append, map_cons, Value.list.injEq,
      append_cancel_left_eq, List.cons.injEq, and_true] at same
    exact same
  | entry before own inner after ih =>
    obtain ⟨shallow, plain, short, last, rest⟩ := reached
    apply ih rest
    simp only [Place.fill, sanitize, guarded_passes shallow plain, sanitizeEntries_map,
      take_around short, map_append, map_cons, Value.dict.injEq] at same
    have later : ∀ pair ∈ (after.take (64 - 1 - before.length)).map (fun entry =>
        (clip 128 (rt.keyStr entry.1), rt.sanitize (rt.keyStr entry.1) (depth + 1) entry.2)),
        pair.1 ≠ clip 128 (rt.keyStr own) := by
      intro pair member
      obtain ⟨entry, inside, rfl⟩ := mem_map.mp member
      exact last entry inside
    have shown := congrArg (lookup (clip 128 (rt.keyStr own))) same
    rw [lookup_dictOf _ later, lookup_dictOf _ later] at shown
    exact Option.some.inj shown

theorem reached_here {place : Place F} (reached : rt.Reached key depth place) :
    depthAt depth place ≤ 6 ∧ sensitiveKey (rt.keyAt key place) = false := by
  induction place generalizing key depth with
  | here => exact reached
  | item before inner after ih => exact ih reached.2.2.2
  | entry before own inner after ih => exact ih reached.2.2.2.2

def scalar : Value F → Bool
  | .list _ => false
  | .dict _ => false
  | _ => true

def isText : Value F → Bool
  | .str _ => true
  | _ => false

theorem sanitize_identity {placeholder key : String} (shallow : depth ≤ 6)
    (plain : sensitiveKey key = false) (identity : identityKey key = true) {value : Value F}
    (single : scalar value = true) :
    (rt.masked placeholder).sanitize key depth value =
      if isText value then .str ("hmac:" ++ placeholder) else value := by
  cases value with
  | list items => cases single
  | dict entries => cases single
  | str text => rw [sanitize_pseudonym identity, guarded_passes shallow plain]; rfl
  | _ => simp only [sanitize, guarded_passes shallow plain]; rfl

/-- Two scalars at a place of an identity give one payload only if both are strings. -/
theorem payload_exact {placeholder : String} {place : Place F} (reached : (rt.masked placeholder).Reached "" 0 place)
    (identity : identityKey ((rt.masked placeholder).keyAt "" place) = true)
    {first second : Value F} (one : scalar first = true) (two : scalar second = true) :
    (rt.masked placeholder).sanitize "" 0 (place.fill first) =
        (rt.masked placeholder).sanitize "" 0 (place.fill second) ↔
      first = second ∨ (isText first = true ∧ isText second = true) := by
  obtain ⟨shallow, plain⟩ := reached_here reached
  constructor
  · intro same
    have shown := sanitize_place place reached same
    rw [sanitize_identity shallow plain identity one, sanitize_identity shallow plain identity two] at shown
    cases textOne : isText first with
    | true =>
      cases textTwo : isText second with
      | true => exact Or.inr ⟨rfl, rfl⟩
      | false =>
        rw [textOne, textTwo, if_pos rfl, if_neg Bool.false_ne_true] at shown
        rw [← shown] at textTwo
        cases textTwo
    | false =>
      cases textTwo : isText second with
      | true =>
        rw [textOne, textTwo, if_pos rfl, if_neg Bool.false_ne_true] at shown
        rw [shown] at textOne
        cases textOne
      | false =>
        rw [textOne, textTwo, if_neg Bool.false_ne_true, if_neg Bool.false_ne_true] at shown
        exact Or.inl shown
  · rintro (rfl | ⟨textOne, textTwo⟩)
    · rfl
    · have alike : (rt.masked placeholder).Alike Hidden "" (place.fill first) (place.fill second) := by
        have texts : (∃ text, first = .str text) ∧ ∃ text, second = .str text := by
          cases first <;> cases second <;> simp_all [isText]
        clear one two reached shallow plain textOne textTwo
        revert identity
        generalize "" = key
        intro identity
        induction place generalizing key with
        | here =>
          obtain ⟨⟨text, rfl⟩, shown⟩ := texts
          exact Or.inl (Or.inr ⟨identity, ⟨text, rfl⟩, shown⟩)
        | item before inner after ih =>
          refine Or.inr ⟨_, rfl, ?_⟩
          induction before with
          | nil => exact ⟨_, _, rfl, ih key identity, alikeItems_refl after key⟩
          | cons item rest step => exact ⟨_, _, rfl, alike_refl item key, step identity⟩
        | entry before own inner after ih =>
          refine Or.inr ⟨_, rfl, ?_⟩
          induction before with
          | nil => exact ⟨_, _, rfl, ih _ identity, alikeEntries_refl after⟩
          | cons entry rest step => exact ⟨_, _, rfl, alike_refl entry.2 _, step identity⟩
      exact sanitize_alike (hidden_unseen placeholder) _ 0 alike

/-- Two strings of an identity give one scope only if both are blank or neither is. -/
theorem scopeOf_exact {placeholder key : String} (named : key = "target" ∨ key = "subject") (first second : String) :
    (rt.masked placeholder).scopeOf key (.str first) = (rt.masked placeholder).scopeOf key (.str second) ↔
      rt.blank (.str first) = rt.blank (.str second) := by
  have listed : key ∈ scopeKeys := by rcases named with rfl | rfl <;> decide
  have identity : identityKey key = true := by rcases named with rfl | rfl <;> decide
  constructor
  · intro same
    cases one : (rt.masked placeholder).blank (.str first) <;>
      cases two : (rt.masked placeholder).blank (.str second)
    · exact one.trans two.symm
    · rw [scopeOf_present one, scopeOf_blank two] at same
      cases same
    · rw [scopeOf_blank one, scopeOf_present two] at same
      cases same
    · exact one.trans two.symm
  · intro blanks
    exact scopeOf_alike listed (Or.inl (Or.inr ⟨identity, ⟨first, rfl⟩, second, rfl⟩)) fun _ => blanks

end Sanitizer

/-- `record` adds this row. -/
def Platform.Stores {T D : Type} (rt : Platform F T D) (event : Value F) (source : String)
    (time : Value F) (id : String) (row : Event T D) : Prop :=
  ∃ db after, rt.record event source time id db = .ok ((), after) ∧ after.events = db.events ++ [row]

theorem Platform.stores_details {T D : Type} {rt : Platform F T D} {event : Value F}
    {source : String} {time : Value F} {id : String} {row : Event T D}
    (stores : rt.Stores event source time id row) :
    isName (clip 128 (strip (rt.str (rt.orElse (event.get "action") (.str ""))))) = true ∧
      ∃ ingested, rt.details event source ingested = .ok row.details := by
  obtain ⟨db, after, recorded, added⟩ := stores
  obtain ⟨prepared, ready, inserted⟩ := lift_bind.mp recorded
  have details : row.details = prepared.details := by
    simp only [insertNew, read_bind, id_eq] at inserted
    split at inserted
    · cases pure_ok.mp inserted
      exact absurd (congrArg List.length added) (by simp)
    · obtain ⟨-, inserted⟩ := guard_ok.mp inserted
      simp only [insertPrepared, read_bind, check_bind, write_bind, lift_bind, pure_ok] at inserted
      obtain ⟨-, text, shown, same⟩ := inserted
      cases same
      rw [append_cancel_left_eq, List.cons.injEq] at added
      rw [← added.1]
  unfold prepare at ready
  split at ready
  · cases ready
  · dsimp only at ready
    split at ready
    · cases ready
    · rename_i valid
      simp only [result_bind, Except.ok.injEq] at ready
      obtain ⟨occurred, -, ingested, -, columns, given, key, -, text, -, rfl⟩ := ready
      rw [details]
      exact ⟨by simpa using valid, ingested, given⟩

namespace Sanitizer

variable {rt : Sanitizer F} {T : Type}

theorem columns_ok {event : Value F} {source : String} {columns : Columns F}
    (given : rt.columns event source = .ok columns) :
    columns.data = rt.sanitize "" 0 (payloadOf event) ∧ columns.actor = rt.actorOf event ∧
      columns.scope = rt.eventScope (rt.actionOf event) event := by
  simp only [Sanitizer.columns, result_bind, result_refuse, Except.ok.injEq] at given
  obtain ⟨encoded, -, -, -, rfl⟩ := given
  exact ⟨rfl, rfl, rfl⟩

theorem stores_columns {base : Platform F T Unit} {event : Value F} {source : String}
    {time : Value F} {id : String} {row : Event T (Columns F)}
    (stores : (rt.ledger base).Stores event source time id row) :
    isName (rt.actionOf event) = true ∧ row.details.data = rt.sanitize "" 0 (payloadOf event) ∧
      row.details.actor = rt.actorOf event ∧
      row.details.scope = rt.eventScope (rt.actionOf event) event := by
  obtain ⟨valid, ingested, given⟩ := Platform.stores_details stores
  exact ⟨valid, columns_ok given⟩

def inPayload (key : Key F) : Bool := !(ownColumns.any fun name => key.named name)

theorem payloadOf_entry (before : List (Key F × Value F)) {key : Key F} (inner : Place F)
    (after : List (Key F × Value F)) (kept : inPayload key = true) (value : Value F) :
    payloadOf ((Place.entry before key inner after).fill value) =
      (Place.entry (before.filter fun entry => inPayload entry.1) key inner
        (after.filter fun entry => inPayload entry.1)).fill value := by
  change Value.dict ((before ++ (key, inner.fill value) :: after).filter fun entry =>
    inPayload entry.1) = Value.dict _
  rw [filter_append, filter_cons, if_pos kept]

theorem secret_unseen : rt.Unseen Secret := by
  intro key first second depth secret
  rw [sanitize_secret secret, sanitize_secret secret]

/-- What the rows of two events show of the values in which they differ. With every pseudonym
replaced by a placeholder, strings of identities show in no column when none of them makes a
target or a subject blank, and any other scalar of an identity shows in the payload. Secrets never
show in the payload. -/
theorem identities_hidden_iff (rt : Sanitizer F) (base : Platform F T Unit) (placeholder : String) :
    (∀ first second source otherSource time otherTime id otherId row other,
      (rt.masked placeholder).AlikeEvents Hidden first second →
      (∀ key, key = "target" ∨ key = "subject" → rt.blank (first.get key) = rt.blank (second.get key)) →
      ((rt.masked placeholder).ledger base).Stores first source time id row →
      ((rt.masked placeholder).ledger base).Stores second otherSource otherTime otherId other →
      row.details.data = other.details.data ∧ row.details.actor = other.details.actor ∧
        row.details.scope = other.details.scope) ∧
    (∀ first second source otherSource time otherTime id otherId row other, rt.AlikeEvents Secret first second →
      (rt.ledger base).Stores first source time id row →
      (rt.ledger base).Stores second otherSource otherTime otherId other →
      row.details.data = other.details.data) ∧
    (∀ before key inner after first second source otherSource time otherTime id otherId row other,
      inPayload key = true →
      (rt.masked placeholder).Reached "" 0 (.entry (before.filter fun entry => inPayload entry.1) key inner
          (after.filter fun entry => inPayload entry.1)) →
      identityKey ((rt.masked placeholder).keyAt (rt.keyStr key) inner) = true →
      scalar first = true → scalar second = true →
      ((rt.masked placeholder).ledger base).Stores
        ((Place.entry before key inner after).fill first) source time id row →
      ((rt.masked placeholder).ledger base).Stores
        ((Place.entry before key inner after).fill second) otherSource otherTime otherId other →
      (row.details.data = other.details.data ↔
        first = second ∨ (isText first = true ∧ isText second = true))) ∧
    ∀ key, key = "target" ∨ key = "subject" → ∀ first second,
      ((rt.masked placeholder).scopeOf key (.str first) = (rt.masked placeholder).scopeOf key (.str second) ↔
        rt.blank (.str first) = rt.blank (.str second)) := by
  refine ⟨?_, ?_, ?_, fun key named => scopeOf_exact named⟩
  · intro first second _ _ _ _ _ _ row other alike blanks stored another
    obtain ⟨valid, data, actor, scope⟩ := stores_columns stored
    obtain ⟨-, data', actor', scope'⟩ := stores_columns another
    have action := actionOf_alike alike valid
    rw [data, data', actor, actor', scope, scope', action]
    exact ⟨sanitize_alike (hidden_unseen placeholder) _ 0 (alike.payload ""), actorOf_alike alike,
      eventScope_alike _ alike blanks⟩
  · intro first second _ _ _ _ _ _ row other alike stored another
    obtain ⟨-, data, -⟩ := stores_columns stored
    obtain ⟨-, data', -⟩ := stores_columns another
    rw [data, data']
    exact sanitize_alike secret_unseen _ 0 (alike.payload "")
  · intro before key inner after first second _ _ _ _ _ _ row other kept reached identity one two stored another
    obtain ⟨-, data, -⟩ := stores_columns stored
    obtain ⟨-, data', -⟩ := stores_columns another
    rw [data, data', payloadOf_entry before inner after kept, payloadOf_entry before inner after kept]
    exact payload_exact reached identity one two

def Identified (key : String) (first second : Value F) : Prop :=
  identityKey key = true ∧ scalar first = true ∧ scalar second = true

def plainSanitizer : Sanitizer FloatText where
  toRuntime := plainRuntime
  hmacValue text := "(" ++ text ++ ")"
  ipAddress _ := false
  redactUrls text := text
  redactBearer text := text
  maxPayloadBytes := 65536

def kick (player : Value FloatText) : Value FloatText :=
  .object [("action", .str "player-kick"), ("ts", .int 5), ("player_id", player)]

def storedOnce {T D : Type} (rt : Platform F T D) (event : Value F) (time : Value F) : Bool :=
  match rt.record event "admin-audit" time "change-1" ⟨[]⟩ with
  | .ok (_, after) => decide (after.events.length = 1)
  | .error _ => false

theorem stores_once {D : Type} {base : Platform F T D} {event time : Value F}
    (once : storedOnce base event time = true) :
    ∃ row, base.Stores event "admin-audit" time "change-1" row := by
  unfold storedOnce at once
  split at once
  · rename_i value after recorded
    obtain ⟨row, events⟩ := length_eq_one_iff.mp (of_decide_eq_true once)
    exact ⟨row, ⟨[]⟩, after, recorded, events⟩
  · cases once

/-- Two kicks of players with different numbers, and their payloads. -/
theorem player_number_shows :
    let rt := plainSanitizer.masked "hidden"
    let first := kick (.int 76561197)
    let second := kick (.int 76561198)
    rt.AlikeEvents Identified first second ∧
      ∃ row other, (rt.ledger plainLedger).Stores first "admin-audit" (.int 5) "change-1" row ∧
        (rt.ledger plainLedger).Stores second "admin-audit" (.int 5) "change-1" other ∧
        row.details.data ≠ other.details.data := by
  intro rt first second
  have identity : identityKey "player_id" = true := by decide
  have alike : rt.AlikeEvents Identified first second :=
    ⟨_, _, rfl, rfl, _, _, rfl, Or.inr rfl, _, _, rfl, Or.inr rfl, _, _, rfl, Or.inl ⟨identity, rfl, rfl⟩, rfl⟩
  obtain ⟨row, stored⟩ := @stores_once FloatText Int (Columns FloatText) (rt.ledger plainLedger) first
    (.int 5) (by decide)
  obtain ⟨other, another⟩ := @stores_once FloatText Int (Columns FloatText) (rt.ledger plainLedger) second
    (.int 5) (by decide)
  refine ⟨alike, row, other, stored, another, ?_⟩
  rw [(stores_columns stored).2.1, (stores_columns another).2.1]
  have reached : rt.Reached "" 0 (.entry [] (.str "player_id") .here []) := by
    refine ⟨by decide, by decide, by decide, ?_, by decide, by decide⟩
    exact fun other member => absurd member (not_mem_nil)
  intro same
  have exact_ := (payload_exact reached identity rfl rfl).mp same
  rcases exact_ with numbers | ⟨text, -⟩
  · cases numbers
  · cases text

end Sanitizer

end Dash.Intelligence
