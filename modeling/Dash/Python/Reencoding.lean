import Dash.Python.Value

/-! When a text that was loaded is written again the same way.

A document is settled if the members of every object have growing names and every float is
written as it is read. A value with string keys is written as a settled document, and a
settled document comes back from the value it loads as.
-/

set_option autoImplicit false

namespace Dash.Python

open List

variable {F : Type}

mutual
/-- Every dictionary in the value has distinct keys, all of them strings. -/
def Value.Plain : Value F → Prop
  | .list items => PlainItems items
  | .dict entries => (∀ entry ∈ entries, entry.1.isStr = true) ∧ (entries.map Prod.fst).Nodup ∧
      PlainEntries entries
  | _ => True

def PlainItems : List (Value F) → Prop
  | [] => True
  | item :: rest => item.Plain ∧ PlainItems rest

def PlainEntries : List (Key F × Value F) → Prop
  | [] => True
  | (_, item) :: rest => item.Plain ∧ PlainEntries rest
end

theorem plain_object {fields : List (String × Value F)} (distinct : (fields.map Prod.fst).Nodup)
    (inside : ∀ field ∈ fields, field.2.Plain) : (Value.object fields).Plain := by
  refine ⟨fun entry member => ?_, ?_, ?_⟩
  · obtain ⟨field, _, rfl⟩ := mem_map.mp member
    rfl
  · rw [map_map]
    have names := distinct.map (f := (Key.str : String → Key F)) fun _ _ same => by simpa using same
    rwa [map_map] at names
  · clear distinct
    induction fields with
    | nil => trivial
    | cons field rest ih =>
      exact ⟨inside field mem_cons_self, ih fun other member => inside other (mem_cons_of_mem _ member)⟩

theorem plain_texts (fields : List (String × String)) (distinct : (fields.map Prod.fst).Nodup) :
    (Value.object (fields.map fun field => (field.1, (.str field.2 : Value F)))).Plain := by
  refine plain_object (by rwa [map_map]) fun field member => ?_
  obtain ⟨text, -, rfl⟩ := mem_map.mp member
  trivial

def named {α : Type} (pairs : List (String × α)) : List (Key F × α) :=
  pairs.map fun pair => (.str pair.1, pair.2)

theorem insertEntry_new {entries : List (String × Value F)} {pair : String × Value F}
    (fresh : pair.1 ∉ entries.map Prod.fst) :
    insertEntry (named entries) pair = named (entries ++ [pair]) := by
  have absent : (named entries : List (Key F × Value F)).any (fun entry => entry.1.named pair.1) = false := by
    rw [any_eq_false]
    intro entry member
    obtain ⟨old, present, rfl⟩ := mem_map.mp member
    simp only [Key.named, decide_eq_true_eq]
    exact fun same => fresh (same ▸ mem_map_of_mem present)
  rw [insertEntry, absent, if_neg Bool.false_ne_true, named, named, map_append]
  rfl

theorem dictOf_named {pairs : List (String × Value F)} (distinct : (pairs.map Prod.fst).Nodup) :
    dictOf pairs = named pairs := by
  induction pairs using List.reverseRecOn with
  | nil => rfl
  | append_singleton pairs pair ih =>
    rw [map_append, nodup_append] at distinct
    have fresh : pair.1 ∉ pairs.map Prod.fst := fun member =>
      distinct.2.2 _ member _ mem_cons_self rfl
    rw [dictOf, foldl_append, ← dictOf, ih distinct.1]
    exact insertEntry_new fresh

theorem sortable_named {α : Type} (entries : List (String × α)) :
    sortable ((named entries : List (Key F × α)).map Prod.fst) = true := by
  simp [sortable, named, Key.isStr]

def byName {α : Type} (first second : String × α) : Prop := first.1 ≤ second.1

instance {α : Type} : DecidableRel (byName : String × α → String × α → Prop) := fun first second =>
  inferInstanceAs (Decidable (first.1 ≤ second.1))

instance {α : Type} : Std.Total (byName : String × α → String × α → Prop) :=
  ⟨fun first second => le_total first.1 second.1⟩

instance {α : Type} : IsTrans (String × α) byName := ⟨fun _ _ _ one other => le_trans one other⟩

theorem sorted_names {α : Type} {entries : List (String × α)} (distinct : (entries.map Prod.fst).Nodup) :
    ((entries.insertionSort byName).map Prod.fst).Pairwise (· < ·) := by
  have perm := perm_insertionSort byName entries
  have sorted := pairwise_insertionSort byName entries
  have apart := (perm.map Prod.fst).nodup_iff.mpr distinct
  rw [nodup_iff_pairwise_ne, pairwise_map] at apart
  rw [pairwise_map]
  exact (sorted.and apart).imp fun both => lt_of_le_of_ne both.1 both.2

theorem sorted_eq_iff_perm {α : Type} {first second : List (String × α)} (distinct : (first.map Prod.fst).Nodup) :
    first.insertionSort byName = second.insertionSort byName ↔ first.Perm second := by
  have one := perm_insertionSort byName first
  have other := perm_insertionSort byName second
  constructor
  · exact fun same => one.symm.trans (same ▸ other)
  · intro perm
    refine (one.trans (perm.trans other.symm)).eq_of_pairwise (fun left right here there le ge => ?_)
      (pairwise_insertionSort _ _) (pairwise_insertionSort _ _)
    exact inj_on_of_nodup_map distinct (one.mem_iff.mp here) (perm.mem_iff.mpr (other.mem_iff.mp there))
      (le_antisymm le ge)

namespace Runtime

variable (rt : Runtime F)

theorem sortEntries_named {α : Type} (entries : List (String × α)) :
    rt.sortEntries (named entries) = named (entries.insertionSort byName) := by
  rw [Runtime.sortEntries, named, named,
    map_insertionSort byName (fun first second => rt.keyLe first.1 second.1 = true)]
  intro first _ second _
  simp [Runtime.keyLe, byName]

mutual
/-- Names grow in every object, and a float is written as it is read. -/
def Settled : Document → Prop
  | .float text => rt.floatText (rt.floatOf text) = text
  | .array items => SettledItems items
  | .object members => (members.map Prod.fst).Pairwise (· < ·) ∧ SettledMembers members
  | _ => True

def SettledItems : List Document → Prop
  | [] => True
  | item :: rest => Settled item ∧ SettledItems rest

def SettledMembers : List (String × Document) → Prop
  | [] => True
  | (_, item) :: rest => Settled item ∧ SettledMembers rest
end

theorem named_texts {α : Type} (entries : List (String × α)) :
    (named entries : List (Key F × α)).map (fun entry => (rt.keyText entry.1, entry.2)) =
      entries := by
  rw [named, map_map]
  exact map_id entries

theorem jsonable_fields {fields : List (String × Value F)} {members : List (String × Document)}
    (written : rt.jsonableEntries (named fields) = .ok (named members)) :
    rt.jsonable (Value.object fields) = .ok (.object (members.insertionSort byName)) := by
  rw [Value.object, ← named, jsonable, sortable_named, if_pos rfl, written]
  simp [Except.map, sortEntries_named, named_texts]

theorem ofMembers_names (members : List (String × Document)) :
    (rt.ofMembers members).map Prod.fst = members.map Prod.fst := by
  induction members with
  | nil => rfl
  | cons member rest ih =>
    obtain ⟨name, item⟩ := member
    simp [ofMembers, ih]

mutual
/-- A settled document comes back from the value it loads as. -/
theorem jsonable_ofDocument : ∀ document : Document, rt.Settled document →
    rt.jsonable (rt.ofDocument document) = .ok document
  | .null, _ => rfl
  | .bool _, _ => rfl
  | .int _, _ => rfl
  | .float text, settled => by
    rw [Settled] at settled
    rw [ofDocument, jsonable, settled]
  | .str _, _ => rfl
  | .array items, settled => by
    rw [Settled] at settled
    rw [ofDocument, jsonable, jsonables_ofItems items settled]
    rfl
  | .object members, settled => by
    rw [Settled] at settled
    have distinct : ((rt.ofMembers members).map Prod.fst).Nodup := by
      rw [ofMembers_names, nodup_iff_pairwise_ne]
      exact settled.1.imp fun less => ne_of_lt less
    have sorted : members.insertionSort byName = members :=
      (pairwise_map.mp settled.1).imp (fun less => le_of_lt less) |>.insertionSort_eq
    rw [ofDocument, dictOf_named distinct, jsonable, sortable_named, if_pos rfl,
      jsonableEntries_ofMembers members settled.2]
    simp [Except.map, sortEntries_named, sorted, named_texts]

theorem jsonables_ofItems : ∀ items : List Document, rt.SettledItems items → rt.jsonables (rt.ofItems items) = .ok items
  | [], _ => rfl
  | item :: rest, settled => by
    rw [SettledItems] at settled
    rw [ofItems, jsonables, jsonable_ofDocument item settled.1, jsonables_ofItems rest settled.2]

theorem jsonableEntries_ofMembers : ∀ members : List (String × Document), rt.SettledMembers members →
    rt.jsonableEntries (named (rt.ofMembers members)) = .ok (named members)
  | [], _ => rfl
  | (name, item) :: rest, settled => by
    rw [SettledMembers] at settled
    have tail := jsonableEntries_ofMembers rest settled.2
    rw [named] at tail
    rw [ofMembers, named, map_cons, jsonableEntries, jsonable_ofDocument item settled.1, tail]
    rfl
end

theorem settledMembers_iff {members : List (String × Document)} :
    rt.SettledMembers members ↔ ∀ member ∈ members, rt.Settled member.2 := by
  induction members with
  | nil => simp [SettledMembers]
  | cons member rest ih =>
    obtain ⟨name, item⟩ := member
    simp [SettledMembers, ih]

theorem named_of_strings {α : Type} {entries : List (Key F × α)}
    (strings : ∀ entry ∈ entries, entry.1.isStr = true) : ∃ pairs, entries = named pairs := by
  induction entries with
  | nil => exact ⟨[], rfl⟩
  | cons entry rest ih =>
    obtain ⟨pairs, rfl⟩ := ih fun other member => strings other (mem_cons_of_mem _ member)
    have string := strings entry mem_cons_self
    obtain ⟨key, item⟩ := entry
    cases key with
    | str name => exact ⟨(name, item) :: pairs, rfl⟩
    | _ => cases string

mutual
/-- What a plain value is written as is settled. -/
theorem jsonable_settled : ∀ value : Value F, value.Plain → ∀ {document : Document},
    rt.jsonable value = .ok document → rt.Settled document
  | .none, _, _, written => by cases written; trivial
  | .bool _, _, _, written => by cases written; trivial
  | .int _, _, _, written => by cases written; trivial
  | .float value, _, _, written => by
    cases written
    rw [Settled, rt.floatOf_text]
  | .str _, _, _, written => by cases written; trivial
  | .list items, plain, document, written => by
    rw [Value.Plain] at plain
    rw [jsonable] at written
    cases encoded : rt.jsonables items with
    | error why => simp [encoded, Except.map] at written
    | ok documents =>
      obtain rfl : Document.array documents = document := by
        simpa [encoded, Except.map] using written
      rw [Settled]
      exact jsonables_settled items plain encoded
  | .dict entries, plain, document, written => by
    rw [Value.Plain] at plain
    obtain ⟨strings, distinct, inside⟩ := plain
    rw [jsonable] at written
    split at written
    next =>
      cases encoded : rt.jsonableEntries entries with
      | error why => simp [encoded, Except.map] at written
      | ok members =>
        obtain ⟨keys, settled⟩ := jsonableEntries_settled entries inside encoded
        have strings' : ∀ entry ∈ members, entry.1.isStr = true := by
          intro entry member
          have key : entry.1 ∈ entries.map Prod.fst := keys ▸ mem_map_of_mem member
          obtain ⟨old, present, same⟩ := mem_map.mp key
          exact same ▸ strings old present
        obtain ⟨pairs, rfl⟩ := named_of_strings strings'
        have names : (pairs.map Prod.fst).Nodup := by
          rw [← keys, named, map_map] at distinct
          refine List.Nodup.of_map (Key.str : String → Key F) ?_
          rwa [map_map]
        simp only [encoded, Except.map, sortEntries_named, named_texts, Except.ok.injEq] at written
        subst written
        rw [Settled]
        refine ⟨sorted_names names, rt.settledMembers_iff.mpr fun member inside => ?_⟩
        have old := (perm_insertionSort byName pairs).mem_iff.mp inside
        exact settled (.str member.1, member.2) (mem_map.mpr ⟨member, old, rfl⟩)
    next => simp [typeError] at written

theorem jsonables_settled : ∀ items : List (Value F), PlainItems items →
    ∀ {documents : List Document}, rt.jsonables items = .ok documents → rt.SettledItems documents
  | [], _, _, written => by cases written; trivial
  | item :: rest, plain, documents, written => by
    rw [PlainItems] at plain
    rw [jsonables] at written
    split at written
    next first others one more =>
      cases written
      exact ⟨jsonable_settled item plain.1 one, jsonables_settled rest plain.2 more⟩
    next => cases written
    next => cases written

theorem jsonableEntries_settled : ∀ entries : List (Key F × Value F), PlainEntries entries →
    ∀ {members : List (Key F × Document)}, rt.jsonableEntries entries = .ok members →
    members.map Prod.fst = entries.map Prod.fst ∧ ∀ member ∈ members, rt.Settled member.2
  | [], _, _, written => by
    cases written
    exact ⟨rfl, fun _ impossible => nomatch impossible⟩
  | (key, item) :: rest, plain, members, written => by
    rw [PlainEntries] at plain
    rw [jsonableEntries] at written
    split at written
    next first others one more =>
      cases written
      obtain ⟨keys, settled⟩ := jsonableEntries_settled rest plain.2 more
      refine ⟨by simp [keys], fun member inside => ?_⟩
      rcases mem_cons.mp inside with rfl | later
      · exact jsonable_settled item plain.1 one
      · exact settled member later
    next => cases written
    next => cases written
end

theorem dumps_loads {ascii : Bool} {value : Value F} {text : String} (plain : value.Plain)
    (written : rt.dumps ascii value = .ok text) :
    ∃ document, rt.jsonable value = .ok document ∧ rt.loads text = .ok (rt.ofDocument document) ∧
      rt.jsonable (rt.ofDocument document) = .ok document := by
  obtain ⟨document, encoded, loaded⟩ := rt.loads_dumps written
  exact ⟨document, encoded, loaded, rt.jsonable_ofDocument document (rt.jsonable_settled value plain encoded)⟩

theorem loads_line (ascii : Bool) (document : Document) :
    rt.loads (String.ofList (document.text ascii) ++ "\n") = .ok (rt.ofDocument document) := by
  have line : "\n".toList = ['\n'] := rfl
  have skipped := skip_text ascii document ['\n']
  have fuel : document.weight ≤ (document.text ascii ++ ['\n']).length := by
    have short := weight_le ascii document
    rw [length_append]
    omega
  have stops : Stops ['\n'] := by
    intro char member
    obtain rfl : '\n' = char := by simpa using member
    decide
  have scanned := scanDocument_text ascii document _ ['\n'] fuel stops
  have blank : skip ['\n'] = [] := by decide
  simp only [loads, String.toList_append, String.toList_ofList, line, parse, skipped, scanned, blank, if_true]

end Runtime

end Dash.Python
