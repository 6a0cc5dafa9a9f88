import Dash.Approvals.Effects

/-! What a reviewer sees of a body says nothing of the values under secret keys, and is of bounded size. -/

set_option autoImplicit false

namespace Dash.Approvals

open Dash.Python Dash.Foundation List
open Foundation.Transaction (bind_ok guard_ok lift_bind pure_ok raise_ok)

variable {F T : Type}

namespace Policies

variable (rt : Runtime F)

mutual
/-- The two values differ in what lies under secret keys only. -/
inductive Shielded : Value F → Value F → Prop where
  | same (value : Value F) : Shielded value value
  | list {first second : List (Value F)} (items : ShieldedItems first second) :
      Shielded (.list first) (.list second)
  | dict {first second : List (Key F × Value F)} (entries : ShieldedEntries first second) :
      Shielded (.dict first) (.dict second)

inductive ShieldedItems : List (Value F) → List (Value F) → Prop where
  | nil : ShieldedItems [] []
  | cons {first second : Value F} {others rest : List (Value F)} (item : Shielded first second)
      (items : ShieldedItems others rest) : ShieldedItems (first :: others) (second :: rest)

inductive ShieldedEntries : List (Key F × Value F) → List (Key F × Value F) → Prop where
  | nil : ShieldedEntries [] []
  | visible (key : Key F) {first second : Value F} {others rest : List (Key F × Value F)}
      (value : Shielded first second) (entries : ShieldedEntries others rest) :
      ShieldedEntries ((key, first) :: others) ((key, second) :: rest)
  | hidden (key : Key F) (first second : Value F) {others rest : List (Key F × Value F)}
      (secret : isSecretKey (keyStr rt key) = true) (entries : ShieldedEntries others rest) :
      ShieldedEntries ((key, first) :: others) ((key, second) :: rest)
end

theorem redactedBody_secret {key : String} (secret : isSecretKey key = true) (value : Value F) :
    redactedBody rt key value = .str "[redacted]" := by
  cases value <;> rw [redactedBody, if_pos secret]

theorem redactedItems_length (key : String) (items : List (Value F)) :
    (redactedItems rt key items).length = items.length := by
  induction items with
  | nil => rfl
  | cons item rest ih => rw [redactedItems, length_cons, length_cons, ih]

variable {rt}

mutual
theorem Shielded.redacted : ∀ {first second : Value F}, Shielded rt first second → ∀ key : String,
    redactedBody rt key first = redactedBody rt key second
  | _, _, .same _, _ => rfl
  | _, _, .list items, key => by
    have same := items.redacted key
    have sizes := congrArg List.length same
    rw [redactedItems_length, redactedItems_length] at sizes
    rw [redactedBody, redactedBody, same, sizes]
  | _, _, .dict entries, key => by rw [redactedBody, redactedBody, entries.redacted]

theorem ShieldedItems.redacted : ∀ {first second : List (Value F)}, ShieldedItems rt first second →
    ∀ key : String, redactedItems rt key first = redactedItems rt key second
  | _, _, .nil, _ => rfl
  | _, _, .cons item items, key => by
    rw [redactedItems, redactedItems, item.redacted key, items.redacted key]

theorem ShieldedEntries.redacted : ∀ {first second : List (Key F × Value F)},
    ShieldedEntries rt first second → redactedEntries rt first = redactedEntries rt second
  | _, _, .nil => rfl
  | _, _, .visible key value entries => by
    rw [redactedEntries, redactedEntries, value.redacted, entries.redacted]
  | _, _, .hidden key first second secret entries => by
    rw [redactedEntries, redactedEntries, redactedBody_secret rt secret, redactedBody_secret rt secret,
      entries.redacted]
end

/-- Entries that are dropped by their keys are dropped from both. -/
theorem ShieldedEntries.filter {first second : List (Key F × Value F)} (keep : Key F → Bool)
    (entries : ShieldedEntries rt first second) :
    ShieldedEntries rt (first.filter fun entry => keep entry.1) (second.filter fun entry => keep entry.1) := by
  induction first generalizing second with
  | nil =>
    cases entries
    exact .nil
  | cons entry others ih =>
    cases entries with
    | visible key value rest =>
      rw [filter_cons, filter_cons]
      split
      · exact .visible key value (ih rest)
      · exact ih rest
    | hidden key one two secret rest =>
      rw [filter_cons, filter_cons]
      split
      · exact .hidden key one two secret (ih rest)
      · exact ih rest

theorem normalizedBody_shielded {first second one two : Value F} {text other : String}
    (alike : Shielded rt first second) (here : normalizedBody rt first = .ok (one, text))
    (there : normalizedBody rt second = .ok (two, other)) :
    redactedBody rt "" one = redactedBody rt "" two := by
  have cleaned : ∀ {body clean : Value F} {text : String}, normalizedBody rt body = .ok (clean, text) →
      ∃ entries, body = .dict entries ∧ clean = .dict (entries.filter fun entry =>
        !(entry.1.named "approvalId" || entry.1.named "approval_id")) := by
    intro body clean text normal
    unfold normalizedBody at normal
    split at normal
    · next entries =>
      obtain ⟨encoded, -, normal⟩ := result_bind.mp normal
      rw [result_refuse] at normal
      cases normal.2
      exact ⟨entries, rfl, rfl⟩
    · cases normal
  obtain ⟨entries, rfl, rfl⟩ := cleaned here
  obtain ⟨others, rfl, rfl⟩ := cleaned there
  have within : ShieldedEntries rt entries others ∨ entries = others := by
    cases alike with
    | same => exact .inr rfl
    | dict alike => exact .inl alike
  rcases within with alike | rfl
  · exact (Shielded.dict (alike.filter fun key =>
      !(key.named "approvalId" || key.named "approval_id"))).redacted ""
  · rfl

mutual
/-- No string of it, its keys aside, has more than 2001 characters, and no list more than 201 items. -/
def Bounded : Value F → Prop
  | .none => True
  | .bool _ => True
  | .int _ => True
  | .float _ => True
  | .str text => text.toList.length ≤ 2001
  | .list items => items.length ≤ 201 ∧ BoundedItems items
  | .dict entries => BoundedEntries entries

def BoundedItems : List (Value F) → Prop
  | [] => True
  | item :: rest => Bounded item ∧ BoundedItems rest

def BoundedEntries : List (Key F × Value F) → Prop
  | [] => True
  | (_, item) :: rest => Bounded item ∧ BoundedEntries rest
end

theorem boundedItems_iff {items : List (Value F)} : BoundedItems items ↔ ∀ item ∈ items, Bounded item := by
  induction items with
  | nil => simp [BoundedItems]
  | cons item rest ih => simp [BoundedItems, ih]

theorem boundedEntries_iff {entries : List (Key F × Value F)} :
    BoundedEntries entries ↔ ∀ entry ∈ entries, Bounded entry.2 := by
  induction entries with
  | nil => simp [BoundedEntries]
  | cons entry rest ih => simp [BoundedEntries, ih]

/-- A dictionary has the values of the pairs it was built from. -/
theorem dictOf_bounded {pairs : List (String × Value F)} (each : ∀ pair ∈ pairs, Bounded pair.2) :
    BoundedEntries (dictOf pairs) := by
  rw [boundedEntries_iff]
  induction pairs using List.reverseRecOn with
  | nil => exact fun _ impossible => nomatch impossible
  | append_singleton pairs pair ih =>
    have before := ih fun other member => each other (mem_append_left _ member)
    have last := each pair (mem_append_right _ mem_cons_self)
    rw [dictOf, foldl_append, ← dictOf]
    change ∀ entry ∈ insertEntry (dictOf pairs) pair, Bounded entry.2
    intro entry member
    unfold insertEntry at member
    split at member
    · obtain ⟨old, there, rfl⟩ := mem_map.mp member
      split
      · exact last
      · exact before old there
    · rcases mem_append.mp member with old | new
      · exact before entry old
      · rw [mem_singleton.mp new]
        exact last

theorem clip_length (count : Nat) (text : String) : (clip count text).toList.length ≤ count := by
  rw [clip, String.toList_ofList]
  exact length_take_le _ _

theorem redacted_word : Bounded (.str "[redacted]" : Value F) := by
  rw [Bounded]
  decide

mutual
theorem redactedBody_bounded (rt : Runtime F) : ∀ (value : Value F) (key : String), Bounded (redactedBody rt key value)
  | .dict entries, key => by
    rw [redactedBody]
    split
    · exact redacted_word
    · rw [Bounded]
      exact dictOf_bounded (redactedEntries_bounded rt entries)
  | .list items, key => by
    rw [redactedBody]
    split
    · exact redacted_word
    · rw [Bounded, boundedItems_iff]
      have small : ((redactedItems rt key items).take 200).length ≤ 200 := length_take_le _ _
      constructor
      · rw [length_append]
        have mark : (if 200 < items.length then [(.str "[truncated]" : Value F)] else []).length ≤ 1 := by
          split <;> simp
        omega
      · intro item member
        rcases mem_append.mp member with kept | mark
        · exact redactedItems_bounded rt items key item (mem_of_mem_take kept)
        · split at mark
          · rw [mem_singleton.mp mark, Bounded]
            decide
          · cases mark
  | .str text, key => by
    rw [redactedBody]
    split
    · exact redacted_word
    · rw [Bounded, String.toList_append, length_append]
      have first := clip_length 2000 text
      have last : (if 2000 < text.length then "…" else "").toList.length ≤ 1 := by
        split <;> decide
      omega
  | .none, key => by
    rw [redactedBody]
    split
    · exact redacted_word
    · exact trivial
  | .bool value, key => by
    rw [redactedBody]
    split
    · exact redacted_word
    · exact trivial
  | .int value, key => by
    rw [redactedBody]
    split
    · exact redacted_word
    · exact trivial
  | .float value, key => by
    rw [redactedBody]
    split
    · exact redacted_word
    · exact trivial

theorem redactedItems_bounded (rt : Runtime F) : ∀ (items : List (Value F)) (key : String),
    ∀ item ∈ redactedItems rt key items, Bounded item
  | [], _ => fun _ impossible => nomatch impossible
  | item :: rest, key => by
    rw [redactedItems]
    exact forall_mem_cons.mpr ⟨redactedBody_bounded rt item key, redactedItems_bounded rt rest key⟩

theorem redactedEntries_bounded (rt : Runtime F) : ∀ (entries : List (Key F × Value F)),
    ∀ pair ∈ redactedEntries rt entries, Bounded pair.2
  | [] => fun _ impossible => nomatch impossible
  | (child, item) :: rest => by
    rw [redactedEntries]
    exact forall_mem_cons.mpr ⟨redactedBody_bounded rt item (keyStr rt child), redactedEntries_bounded rt rest⟩
end

end Policies

namespace Platform

variable [LinearOrder T] (rt : Platform F T)

/-- A call of `create` with this body stored this review. -/
def Reviews (body : Value F) (review : String) : Prop :=
  ∃ principal path capability risk summary ttl now token db id after row,
    rt.create principal path body capability risk summary ttl now token db = .ok (id, after) ∧
      after.requests.getLast? = some row ∧ row.id = id ∧ row.reviewJson = review

theorem reviewed_body {body : Value F} {review : String} (reviewed : rt.Reviews body review) :
    ∃ clean text, Policies.normalizedBody rt.toRuntime body = .ok (clean, text) ∧
      rt.canonical (Policies.redactedBody rt.toRuntime "" clean) = .ok review := by
  obtain ⟨principal, path, capability, risk, summary, ttl, now, token, db, id, after, row, success, last, -,
    rfl⟩ := reviewed
  obtain ⟨actor, -, success⟩ := lift_bind.mp success
  obtain ⟨policy, -, success⟩ := lift_bind.mp success
  cases policy with
  | none => exact (raise_ok.mp success).elim
  | some policy =>
    obtain ⟨-, success⟩ := guard_ok.mp success
    simp only [openRequest, guard_ok, lift_bind] at success
    obtain ⟨-, seconds, -, digest, -, ⟨clean, encoded⟩, normal, review, written, rest⟩ := success
    obtain ⟨count, swept, -, rest⟩ := bind_ok.mp rest
    obtain ⟨_, middle, inserted, rest⟩ := bind_ok.mp rest
    obtain ⟨_, final, recorded, same⟩ := bind_ok.mp rest
    cases pure_ok.mp same
    obtain ⟨made, ⟨requestHmac, stateHmac, rfl⟩, -, -, rfl⟩ := rt.insertRequest_ok inserted
    obtain ⟨event, rfl, -⟩ := rt.appendEvent_ok recorded
    have newest : some (Request.withCodes requestHmac stateHmac (Request.pending (rt.stamp now ++ token) now
        (rt.later now seconds) actor policy capability
        (strip (rt.str (rt.orElse summary (.str policy.label)))) digest review)) = some row := by
      rw [← last]
      exact List.getLast?_concat.symm
    cases newest
    exact ⟨clean, encoded, normal, written⟩

/-- Bodies that differ under secret keys only have one review, and no review has a long string or list. -/
theorem reviews_redacted : (∀ {first second : Value F} {one two : String}, Policies.Shielded rt.toRuntime first second →
      rt.Reviews first one → rt.Reviews second two → one = two) ∧
    ∀ {body : Value F} {review : String}, rt.Reviews body review →
      ∃ value, rt.canonical value = .ok review ∧ Policies.Bounded value := by
  constructor
  · intro first second one two alike here there
    obtain ⟨clean, text, normal, written⟩ := rt.reviewed_body here
    obtain ⟨other, encoded, alsoNormal, alsoWritten⟩ := rt.reviewed_body there
    rw [Policies.normalizedBody_shielded alike normal alsoNormal, alsoWritten] at written
    exact (Except.ok.inj written).symm
  · intro body review reviewed
    obtain ⟨clean, text, -, written⟩ := rt.reviewed_body reviewed
    exact ⟨_, written, Policies.redactedBody_bounded rt.toRuntime clean ""⟩

end Platform

def passwordBody (password : String) : Value FloatText :=
  .object [("key", .str "value"), ("password", .str password)]

def storesReview (body : Value FloatText) (review : String) : Bool :=
  match plain.create (person "requester") envPath body "settings.write" "critical" .none .none 0 requestToken
      (Db.empty Int) with
  | .ok (id, after) => after.requests.getLast?.any fun row => decide (row.id = id ∧ row.reviewJson = review)
  | .error _ => false

theorem reviewed_of_stores {body : Value FloatText} {review : String} (stored : storesReview body review = true) :
    plain.Reviews body review := by
  unfold storesReview at stored
  split at stored
  · next id after success =>
    obtain ⟨row, last, same⟩ := (Option.any_eq_true _ _).mp stored
    obtain ⟨named, written⟩ := of_decide_eq_true same
    exact ⟨_, _, _, _, _, _, _, _, _, id, after, row, success, last, named, written⟩
  · cases stored

theorem reviews_redacted_password :
    plain.Reviews (passwordBody "first") "\x7b\"key\":\"value\",\"password\":\"[redacted]\"\x7d" ∧
      ∀ review, plain.Reviews (passwordBody "second") review →
        review = "\x7b\"key\":\"value\",\"password\":\"[redacted]\"\x7d" := by
  have first : plain.Reviews (passwordBody "first") "\x7b\"key\":\"value\",\"password\":\"[redacted]\"\x7d" :=
    reviewed_of_stores (by decide +kernel)
  have alike : Policies.Shielded plain.toRuntime (passwordBody "second") (passwordBody "first") :=
    .dict (.visible _ (.same _) (.hidden _ _ _ (by decide +kernel) .nil))
  exact ⟨first, fun review second => plain.reviews_redacted.1 alike second first⟩

theorem redactedBody_key (rt : Runtime F) (key : String) (value : Value F) :
    Policies.redactedBody rt "" (.object [(key, value)]) = .dict [(.str key, Policies.redactedBody rt key value)] := by
  have open_ : ¬ isSecretKey "" = true := by decide +kernel
  rw [Value.object, map_cons, map_nil, Policies.redactedBody, if_neg open_]
  rfl

theorem replicate_length (count : Nat) : (String.ofList (List.replicate count 'k')).toList.length = count := by
  rw [String.toList_ofList, length_replicate]

theorem review_keeps_key : ∃ key value, Policies.redactedBody plain.toRuntime "" (.object [(key, .str "v")]) =
      .dict [(.str key, value)] ∧ 2001 < key.toList.length :=
  ⟨_, _, redactedBody_key plain.toRuntime (String.ofList (List.replicate 2100 'k')) (.str "v"),
    (by decide : 2001 < 2100).trans_eq (replicate_length 2100).symm⟩

end Dash.Approvals
