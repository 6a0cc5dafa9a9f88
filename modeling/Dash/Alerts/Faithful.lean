import Dash.Alerts.Refinement
import Dash.Intelligence.Ledger
import Dash.Python.Reencoding

/-! The identity of an alert: the digest of its labels, once the values of sensitive keys are hidden. Every row of the
inbox is of one mapping of labels, and a poll is refused only where two of its alerts show the same labels.
-/

set_option autoImplicit false

namespace Dash.Alerts

open Dash.Python Dash.Foundation List

structure LabelMap where
  entries : List (String × String)
  distinct : (entries.map Prod.fst).Nodup

def LabelMap.value {F : Type} (labels : LabelMap) : Value F :=
  Value.object (labels.entries.map fun entry => (entry.1, .str entry.2))

section Mappings

variable {first second : List (String × String)}

variable {key item : String}

theorem lookup_some (distinct : (first.map Prod.fst).Nodup) : lookup key first = some item ↔ (key, item) ∈ first := by
  rw [Table.mem_find distinct, lookup, Option.map_eq_some_iff]
  constructor
  · rintro ⟨⟨name, value⟩, found, rfl⟩
    obtain rfl : name = key := by simpa using List.find?_some found
    exact found
  · exact fun found => ⟨(key, item), found, rfl⟩

theorem lookup_eq_iff_perm (one : (first.map Prod.fst).Nodup) (other : (second.map Prod.fst).Nodup) :
    (∀ key, lookup key first = lookup key second) ↔ first.Perm second := by
  rw [perm_ext_iff_of_nodup (List.Nodup.of_map _ one) (List.Nodup.of_map _ other)]
  constructor
  · rintro same ⟨key, item⟩
    rw [← lookup_some one, ← lookup_some other, same key]
  · intro same key
    refine Option.ext fun item => ?_
    rw [lookup_some one, lookup_some other]
    exact same (key, item)

theorem assign_fresh (fresh : key ∉ first.map Prod.fst) : assign key item first = first ++ [(key, item)] := by
  have absent : (first.any fun entry => decide (entry.1 = key)) = false := by
    rw [any_eq_false]
    intro entry member same
    exact fresh (mem_map.mpr ⟨entry, member, of_decide_eq_true same⟩)
  rw [assign, absent, if_neg Bool.false_ne_true]

theorem assign_keys (distinct : (first.map Prod.fst).Nodup) : ((assign key item first).map Prod.fst).Nodup := by
  by_cases known : key ∈ first.map Prod.fst
  · obtain ⟨entry, member, same⟩ := mem_map.mp known
    have present : (first.any fun entry => decide (entry.1 = key)) = true :=
      any_eq_true.mpr ⟨entry, member, decide_eq_true same⟩
    have keys : (first.map fun entry => if entry.1 = key then (key, item) else entry).map Prod.fst =
        first.map Prod.fst := by
      rw [map_map]
      refine map_congr_left fun entry _ => ?_
      by_cases hit : entry.1 = key
      · simp [hit]
      · simp [hit]
    rw [assign, present, if_pos rfl, keys]
    exact distinct
  · rw [assign_fresh known]
    exact Table.insert_keys distinct known

theorem foldl_assign {α : Type} {rows : List α} {key item : α → String} (distinct : (rows.map key).Nodup) :
    rows.foldl (fun result row => assign (key row) (item row) result) [] = rows.map fun row => (key row, item row) := by
  induction rows using List.reverseRecOn with
  | nil => rfl
  | append_singleton rows row ih =>
    rw [map_append, nodup_append] at distinct
    obtain ⟨earlier, -, apart⟩ := distinct
    rw [foldl_append, ih earlier, map_append]
    refine assign_fresh fun known => ?_
    rw [map_map] at known
    exact apart _ known _ mem_cons_self rfl

theorem foldl_assign_keys {α : Type} (rows : List α) (key item : α → String) :
    ((rows.foldl (fun result row => assign (key row) (item row) result) []).map Prod.fst).Nodup := by
  induction rows using List.reverseRecOn with
  | nil => exact nodup_nil
  | append_singleton rows row ih =>
    rw [foldl_append]
    exact assign_keys ih

end Mappings

variable {F T : Type} [LinearOrder T]

namespace Platform

variable (rt : Platform F T)

def mappingText (ascii : Bool) (entries : List (String × String)) : String :=
  String.ofList ((Document.object
    ((entries.map fun entry => (entry.1, Document.str entry.2)).insertionSort byName)).text ascii)

theorem mappingJson_ok (ascii : Bool) (entries : List (String × String)) :
    rt.mappingJson ascii entries = .ok (mappingText ascii entries) := by
  have written : rt.jsonableEntries (named (entries.map fun entry => (entry.1, Value.str entry.2))) =
      .ok (named (entries.map fun entry => (entry.1, Document.str entry.2))) := by
    induction entries with
    | nil => rfl
    | cons entry rest ih =>
      rw [named] at ih
      rw [map_cons, named, map_cons, Runtime.jsonableEntries, Runtime.jsonable, ih]
      rfl
  exact (rt.dumps_ok).mpr ⟨_, rt.jsonable_fields written, rfl⟩

variable {first second : List (String × String)}

theorem mappingText_eq_iff (ascii : Bool) (one : (first.map Prod.fst).Nodup) (other : (second.map Prod.fst).Nodup) :
    mappingText ascii first = mappingText ascii second ↔ ∀ key, lookup key first = lookup key second := by
  have texts : Function.Injective fun entry : String × String => (entry.1, Document.str entry.2) := by
    rintro ⟨key, item⟩ ⟨name, value⟩ same
    simpa using same
  have distinct : ((first.map fun entry => (entry.1, Document.str entry.2)).map Prod.fst).Nodup := by
    rwa [map_map]
  rw [lookup_eq_iff_perm one other, ← map_perm_map_iff texts, ← sorted_eq_iff_perm distinct]
  constructor
  · exact fun same => Document.object.inj (Runtime.ofList_text_injective ascii same)
  · exact fun same => by rw [mappingText, same, mappingText]

theorem fingerprint_eq_iff (injective : Function.Injective rt.sha256)
    (one : (first.map Prod.fst).Nodup) (other : (second.map Prod.fst).Nodup) :
    rt.fingerprint first = rt.fingerprint second ↔ ∀ key, lookup key first = lookup key second := by
  rw [← mappingText_eq_iff false one other, fingerprint, fingerprint, mappingJson_ok, mappingJson_ok]
  exact ⟨fun same => injective (Except.ok.inj same), fun same => congrArg Except.ok (congrArg rt.sha256 same)⟩

theorem clip_of_le {count : Nat} {text : String} (short : text.length ≤ count) : clip count text = text := by
  rw [clip, take_of_length_le (by rwa [String.length_toList]), String.ofList_toList]

def hide (entry : String × String) : String × String :=
  (entry.1, if rt.sensitive entry.1 then "[redacted]" else entry.2)

def hidden (labels : LabelMap) (key : String) : Option String :=
  (lookup key labels.entries).map fun item => if rt.sensitive key then "[redacted]" else item

theorem hide_keys (entries : List (String × String)) : (entries.map rt.hide).map Prod.fst = entries.map Prod.fst := by
  rw [map_map]
  rfl

theorem lookup_hide (labels : LabelMap) (key : String) :
    lookup key (labels.entries.map rt.hide) = rt.hidden labels key := by
  rw [hidden, lookup, lookup, List.find?_map, Option.map_map, Option.map_map]
  cases found : labels.entries.find? fun entry => entry.1 = key with
  | none =>
    change ((labels.entries.find? fun entry => entry.1 = key).map _) = _
    rw [found]
    rfl
  | some entry =>
    obtain rfl : entry.1 = key := by simpa using List.find?_some found
    change ((labels.entries.find? fun other => other.1 = entry.1).map _) = _
    rw [found]
    rfl

theorem boundedMapping_distinct (value : Value F) (maximum : Nat) :
    ((rt.boundedMapping value maximum).map Prod.fst).Nodup := by
  unfold boundedMapping
  split
  · exact foldl_assign_keys _ _ _
  · exact nodup_nil

variable {labels : LabelMap}

/-- Labels inside the bounds are kept, but for the hidden values. -/
theorem boundedMapping_labels {maximum : Nat} (few : labels.entries.length ≤ maximum)
    (short : ∀ entry ∈ labels.entries, entry.1.length ≤ maxKey ∧ entry.2.length ≤ maxValue) (key : String) :
    lookup key (rt.boundedMapping labels.value maximum) = rt.hidden labels key := by
  have perm := perm_insertionSort byName labels.entries
  have sorted : ((labels.entries.map fun entry => (entry.1, (Value.str entry.2 : Value F))).map
      fun field => ((Key.str field.1 : Key F), field.2)).insertionSort
        (fun first second => rt.keyStr first.1 ≤ rt.keyStr second.1) =
      (labels.entries.insertionSort byName).map fun entry => (Key.str entry.1, Value.str entry.2) := by
    rw [map_map]
    exact (map_insertionSort byName
      (fun first second : Key F × Value F => rt.keyStr first.1 ≤ rt.keyStr second.1) _ _ fun _ _ _ _ => Iff.rfl).symm
  have bounded : rt.boundedMapping labels.value maximum = (labels.entries.insertionSort byName).map rt.hide := by
    rw [LabelMap.value, Value.object, boundedMapping]
    rw [sorted, take_of_length_le (by rwa [length_map, length_insertionSort]), foldl_map]
    have keys : (labels.entries.insertionSort byName).map (fun entry => clip maxKey entry.1) =
        (labels.entries.insertionSort byName).map Prod.fst :=
      map_congr_left fun entry member => clip_of_le (short entry (perm.mem_iff.mp member)).1
    refine (foldl_assign (keys ▸ (perm.map _).nodup_iff.mpr labels.distinct)).trans ?_
    refine map_congr_left fun entry member => ?_
    obtain ⟨key, item⟩ := short entry (perm.mem_iff.mp member)
    change (clip maxKey entry.1,
      if rt.sensitive (clip maxKey entry.1) then "[redacted]" else clip maxValue entry.2) = _
    rw [clip_of_le key, clip_of_le item, hide]
  rw [bounded, ← lookup_hide]
  refine (lookup_eq_iff_perm ?_ ?_).mpr (perm.map rt.hide) key
  · rw [hide_keys]
    exact (perm.map _).nodup_iff.mpr labels.distinct
  · rw [hide_keys]
    exact labels.distinct

variable {alert : Alert T} {raw : Value F}

theorem normalizeAlert_parts (accepted : rt.normalizeAlert raw = .ok alert) :
    ∃ rawLabels, raw.get "labels" = .dict rawLabels ∧ rawLabels.length ≤ maxLabels ∧
      (∀ entry ∈ rawLabels, (rt.keyStr entry.1).length ≤ maxKey ∧ (rt.str entry.2).length ≤ maxValue) ∧
      alert.labels = rt.boundedMapping (.dict rawLabels) maxLabels ∧
      rt.fingerprint alert.labels = .ok alert.fingerprint := by
  unfold normalizeAlert at accepted
  rw [result_refuse] at accepted
  replace accepted := accepted.2
  split at accepted
  · next rawLabels labelled =>
    rw [result_refuse, result_refuse, result_refuse] at accepted
    obtain ⟨-, few, short, accepted⟩ := accepted
    extract_lets kept annotations state activeAt at accepted
    clear_value activeAt
    rw [result_refuse] at accepted
    replace accepted := accepted.2
    split at accepted
    · cases accepted
    · rw [result_refuse] at accepted
      replace accepted := accepted.2
      obtain ⟨fingerprint, made, accepted⟩ := result_bind.mp accepted
      have parts : alert.labels = kept ∧ alert.fingerprint = fingerprint := by
        dsimp only at accepted
        split at accepted
        · obtain ⟨activeAtIso, -, accepted⟩ := result_bind.mp accepted
          rw [← Except.ok.inj accepted]
          exact ⟨rfl, rfl⟩
        · rw [← Except.ok.inj accepted]
          exact ⟨rfl, rfl⟩
      refine ⟨rawLabels, labelled, not_lt.mp few, fun entry member => ?_, parts.1, by rw [parts.1, parts.2, made]⟩
      have bounds := any_eq_false.mp (Bool.eq_false_of_not_eq_true short) entry member
      rw [Bool.or_eq_true, not_or, decide_eq_true_eq, decide_eq_true_eq] at bounds
      exact ⟨not_lt.mp bounds.1, not_lt.mp bounds.2⟩
  · cases accepted

theorem lookup_labels
    (labelled : raw.get "labels" = labels.value) (accepted : rt.normalizeAlert raw = .ok alert) (key : String) :
    lookup key alert.labels = rt.hidden labels key := by
  obtain ⟨rawLabels, same, few, short, kept, -⟩ := rt.normalizeAlert_parts accepted
  have dict : (.dict rawLabels : Value F) = labels.value := same.symm.trans labelled
  rw [kept, dict]
  rw [LabelMap.value, Value.object, Value.dict.injEq] at dict
  subst dict
  refine rt.boundedMapping_labels (by simpa using few) (fun entry member => ?_) key
  exact short _ (mem_map_of_mem (mem_map_of_mem member))

theorem normalizeAlert_distinct (accepted : rt.normalizeAlert raw = .ok alert) : (alert.labels.map Prod.fst).Nodup := by
  obtain ⟨rawLabels, -, -, -, kept, -⟩ := rt.normalizeAlert_parts accepted
  rw [kept]
  exact rt.boundedMapping_distinct _ _

theorem fingerprint_alert (injective : Function.Injective rt.sha256)
    (labelled : raw.get "labels" = labels.value) (accepted : rt.normalizeAlert raw = .ok alert)
    {mapping : List (String × String)} (distinct : (mapping.map Prod.fst).Nodup) {fingerprint : String}
    (hashed : rt.fingerprint mapping = .ok fingerprint) :
    alert.fingerprint = fingerprint ↔ ∀ key, rt.hidden labels key = lookup key mapping := by
  obtain ⟨-, -, -, -, -, own⟩ := rt.normalizeAlert_parts accepted
  have same := rt.fingerprint_eq_iff injective (rt.normalizeAlert_distinct accepted) distinct
  rw [own, hashed, Except.ok.injEq] at same
  rw [same]
  exact forall_congr' fun key => by rw [rt.lookup_labels labelled accepted]

def Accepted (rows : List (Value F)) (maps : List LabelMap) : Prop :=
  List.Forall₂ (fun raw labels => raw.get "labels" = labels.value ∧ ∃ alert, rt.normalizeAlert raw = .ok alert)
    rows maps

def Apart (first second : LabelMap) : Prop := ∃ key, rt.hidden first key ≠ rt.hidden second key

def Carries (labels : LabelMap) (alert : Alert T) : Prop :=
  ∃ raw, raw.get "labels" = labels.value ∧ rt.normalizeAlert raw = .ok alert

variable {maps : List LabelMap} {rows : List (Value F)}

theorem normalizeAlerts_accepted (accepted : rt.Accepted rows maps) :
    ∃ alerts, rt.normalizeAlerts rows = .ok alerts ∧ List.Forall₂ rt.Carries maps alerts := by
  induction accepted with
  | nil => exact ⟨[], rfl, .nil⟩
  | cons head _ ih =>
    obtain ⟨labelled, alert, one⟩ := head
    obtain ⟨alerts, others, each⟩ := ih
    refine ⟨alert :: alerts, result_bind.mpr ⟨alert, one, result_bind.mpr ⟨alerts, others, rfl⟩⟩, .cons ?_ each⟩
    exact ⟨_, labelled, one⟩

theorem carries_fingerprint (injective : Function.Injective rt.sha256) {first second : LabelMap}
    {one other : Alert T} (left : rt.Carries first one) (right : rt.Carries second other) :
    one.fingerprint = other.fingerprint ↔ ∀ key, rt.hidden first key = rt.hidden second key := by
  obtain ⟨raw, labelled, accepted⟩ := left
  obtain ⟨otherRaw, otherLabelled, otherAccepted⟩ := right
  obtain ⟨-, -, -, -, -, own⟩ := rt.normalizeAlert_parts otherAccepted
  rw [rt.fingerprint_alert injective labelled accepted (rt.normalizeAlert_distinct otherAccepted) own]
  exact forall_congr' fun key => by rw [rt.lookup_labels otherLabelled otherAccepted]

variable {alerts : List (Alert T)}

theorem fingerprint_fresh (injective : Function.Injective rt.sha256) (own : rt.Carries labels alert)
    (each : List.Forall₂ rt.Carries maps alerts) :
    alert.fingerprint ∉ alerts.map Alert.fingerprint ↔ ∀ other ∈ maps, rt.Apart labels other := by
  induction each with
  | nil => simp
  | cons head _ ih =>
    rw [map_cons, mem_cons, not_or, forall_mem_cons, ih, rt.carries_fingerprint injective own head, not_forall, Apart]

theorem carried_mem (each : List.Forall₂ rt.Carries maps alerts)
    (member : labels ∈ maps) : ∃ alert ∈ alerts, rt.Carries labels alert := by
  induction each with
  | nil => cases member
  | cons head _ ih =>
    rcases mem_cons.mp member with rfl | later
    · exact ⟨_, mem_cons_self, head⟩
    · obtain ⟨alert, listed, carries⟩ := ih later
      exact ⟨alert, mem_cons_of_mem _ listed, carries⟩

theorem fingerprints_distinct (injective : Function.Injective rt.sha256) (each : List.Forall₂ rt.Carries maps alerts) :
    (alerts.map Alert.fingerprint).Nodup ↔ maps.Pairwise rt.Apart := by
  induction each with
  | nil => simp
  | cons head rest ih =>
    rw [map_cons, nodup_cons, pairwise_cons, ih, rt.fingerprint_fresh injective head rest]

structure Response (response : Value F) (rows : List (Value F)) : Prop where
  status : response.get "status" = .str "success"
  alerts : (response.get "data").get "alerts" = .list rows
  few : rows.length ≤ 5000

theorem incoming_eq {response : Value F} (shape : Response response rows)
    (normalized : rt.normalizeAlerts rows = .ok alerts) :
    rt.incoming response = if (alerts.map Alert.fingerprint).Nodup then .ok alerts
      else valueError "Prometheus alerts response contains duplicate bounded label identities" := by
  have dict : response.isDict = true := by
    cases response with
    | dict _ => rfl
    | _ => cases shape.status
  unfold incoming
  rw [shape.status, shape.alerts, dict]
  simp only [decide_true, Bool.not_true, Bool.or_self, Bool.false_eq_true, if_false, not_lt.mpr shape.few]
  rw [normalized]
  rfl

theorem incoming_ok {response : Value F} (shape : Response response rows)
    (normalized : rt.normalizeAlerts rows = .ok alerts) {incoming : List (Alert T)} :
    rt.incoming response = .ok incoming ↔ (alerts.map Alert.fingerprint).Nodup ∧ alerts = incoming := by
  rw [rt.incoming_eq shape normalized]
  split
  · next distinct => exact ⟨fun same => ⟨distinct, Except.ok.inj same⟩, fun both => congrArg Except.ok both.2⟩
  · next same => exact ⟨(fun impossible => nomatch impossible), fun both => absurd both.1 same⟩

end Platform

open Foundation.Transaction (bind_ok commit_ok lift_bind)

variable {F T : Type}

theorem Platform.next_named (prior : Option (Row T)) (alert : Alert T) (labelsJson annotationsJson : String) (now : T) :
    (Platform.next prior alert labelsJson annotationsJson now).1.fingerprint = alert.fingerprint ∧
      (Platform.next prior alert labelsJson annotationsJson now).1.labelsJson = labelsJson := by
  cases prior with
  | none => exact ⟨rfl, rfl⟩
  | some old => by_cases ended : old.state = .resolved <;> simp [Platform.next, ended]

theorem Life.step_poll (life : Option Life) (state : Active) (now : T) :
    ∃ next, (Life.step life ⟨now, .poll (some state)⟩).1 = some next ∧ next.state = .active state := by
  cases life with
  | none => exact ⟨_, rfl, rfl⟩
  | some life =>
    unfold Life.step
    dsimp only
    split <;> exact ⟨_, rfl, rfl⟩

variable [LinearOrder T]

namespace Platform

variable (rt : Platform F T)

variable {response : Value F}

/-- A poll at a time of the calendar raises only for its response. -/
theorem sync_ok {now : T} {db : Db T} (time : ∃ text, rt.iso now = .ok text) :
    (∃ result, rt.sync response now db = .ok result) ↔ ∃ incoming, rt.incoming response = .ok incoming := by
  obtain ⟨text, written⟩ := time
  have transition : ∀ alert change state, ∃ result, (do
      let made ← rt.transition alert change now none none
      pure [made] : Action T (List (Transition T))) state = .ok result := by
    intro alert change state
    have ran : ∃ result, rt.transition alert change now none none state = .ok result :=
      ⟨_, lift_bind.mpr ⟨text, written, rfl⟩⟩
    obtain ⟨⟨made, after⟩, ran⟩ := ran
    exact ⟨_, bind_ok.mpr ⟨made, after, ran, rfl⟩⟩
  constructor
  · rintro ⟨result, done⟩
    obtain ⟨incoming, checked, -⟩ := lift_bind.mp done
    exact ⟨incoming, checked⟩
  · rintro ⟨incoming, checked⟩
    have observes : ∀ alert state, ∃ result, rt.observe db.alerts now alert state = .ok result := by
      intro alert state
      simp only [observe, lift_bind, mappingJson_ok, Except.ok.injEq, exists_eq_left']
      split
      · exact ⟨_, bind_ok.mpr ⟨_, _, rfl, rfl⟩⟩
      · exact transition _ _ _
    have resolves : ∀ prior state, ∃ result, rt.resolve incoming now prior state = .ok result := by
      intro prior state
      unfold resolve
      split
      · exact ⟨_, rfl⟩
      · exact transition _ _ _
    obtain ⟨⟨seen, middle⟩, first⟩ := Transaction.each_succeeds (fun row _ => observes row) db
    obtain ⟨⟨gone, late⟩, second⟩ := Transaction.each_succeeds (fun row _ => resolves row) middle
    exact ⟨_, lift_bind.mpr ⟨incoming, checked, bind_ok.mpr ⟨_, _, rfl,
      bind_ok.mpr ⟨_, _, first, bind_ok.mpr ⟨_, _, second, rfl⟩⟩⟩⟩⟩

structure Holds (row : Row T) (mapping : List (String × String)) : Prop where
  labels : rt.mappingJson true mapping = .ok row.labelsJson
  only : ∀ labels alert, rt.Carries labels alert →
    (alert.fingerprint = row.fingerprint ↔ ∀ key, rt.hidden labels key = lookup key mapping)

def Hashed (row : Row T) : Prop :=
  ∃ mapping, (mapping.map Prod.fst).Nodup ∧ rt.fingerprint mapping = .ok row.fingerprint ∧
    rt.mappingJson true mapping = .ok row.labelsJson

theorem Hashed.holds {rt : Platform F T} (injective : Function.Injective rt.sha256) {row : Row T}
    (hashed : rt.Hashed row) : ∃ mapping, rt.Holds row mapping := by
  obtain ⟨mapping, distinct, own, written⟩ := hashed
  refine ⟨mapping, written, fun labels alert carries => ?_⟩
  obtain ⟨raw, labelled, accepted⟩ := carries
  exact rt.fingerprint_alert injective labelled accepted distinct own

structure Rows (db : Db T) : Prop where
  distinct : (db.alerts.map Row.fingerprint).Nodup
  hashed : ∀ row ∈ db.alerts, rt.Hashed row

def Keeps (before after : Db T) : Prop := rt.Rows before → rt.Rows after

theorem keeps_transition (alert : Subject) (change : Change) (now : T) (actor note : Option String) :
    Transaction.Within rt.Keeps (rt.transition alert change now actor note) := by
  refine .bind (.read _) fun last => .bind (.write fun db rows => ⟨rows.distinct, rows.hashed⟩) fun _ => ?_
  exact .bind (.lift _) fun _ => .pure _

theorem keeps_observe (existing : List (Row T)) (now : T) {raw : Value F} {alert : Alert T}
    (accepted : rt.normalizeAlert raw = .ok alert) :
    Transaction.Within rt.Keeps (rt.observe existing now alert) := by
  obtain ⟨-, -, -, -, -, own⟩ := rt.normalizeAlert_parts accepted
  refine .lift_bind fun labelsJson written => .bind (.lift _) fun annotationsJson => ?_
  generalize existing.find? (fun row => row.fingerprint = alert.fingerprint) = prior
  have facts := next_named prior alert labelsJson annotationsJson now
  generalize next prior alert labelsJson annotationsJson now = made at facts ⊢
  obtain ⟨row, change⟩ := made
  obtain ⟨named, labelled⟩ := facts
  refine .bind (.write fun db rows => ⟨Table.upsert_keys rows.distinct, fun other member => ?_⟩) fun _ => ?_
  · rcases Table.mem_upsert member with rfl | old
    · exact ⟨alert.labels, rt.normalizeAlert_distinct accepted, named ▸ own, labelled ▸ written⟩
    · exact rows.hashed other old
  · cases change with
    | none => exact .pure _
    | some change => exact .bind (rt.keeps_transition _ _ _ _ _) fun _ => .pure _

theorem keeps_update (target : String) (change : Row T → Row T)
    (kept : ∀ row, (change row).fingerprint = row.fingerprint)
    (same : ∀ row, (change row).labelsJson = row.labelsJson) (db : Db T) :
    rt.Keeps db { db with alerts := update Row.fingerprint target change db.alerts } := by
  intro rows
  refine ⟨(Table.update_keys kept).symm ▸ rows.distinct, fun row member => ?_⟩
  rcases Table.mem_update.mp member with ⟨old, present, -, rfl⟩ | ⟨old, -⟩
  · obtain ⟨mapping, distinct, own, written⟩ := rows.hashed old present
    exact ⟨mapping, distinct, (kept old).symm ▸ own, (same old).symm ▸ written⟩
  · exact rows.hashed row old

theorem keeps_resolve (incoming : List (Alert T)) (now : T) (prior : Row T) :
    Transaction.Within rt.Keeps (rt.resolve incoming now prior) := by
  refine .ite (fun _ => .pure _) fun _ => .bind (.write ?_) fun _ => ?_
  · exact rt.keeps_update _ _ (fun _ => rfl) fun _ => rfl
  · exact .bind (rt.keeps_transition _ _ _ _ _) fun _ => .pure _

theorem keeps_acknowledge (fingerprint actor note : Value F) (now : T) :
    Transaction.Within rt.Keeps (rt.acknowledge fingerprint actor note now) := by
  refine .bind (.check _ _) fun _ => .bind (.read _) fun found => ?_
  cases found with
  | none => exact .raise _
  | some alert =>
    refine .ite (fun _ => .raise _) fun _ => .ite (fun _ => .pure _) fun _ => .bind (.write ?_) fun _ => ?_
    · exact rt.keeps_update _ _ (fun _ => rfl) fun _ => rfl
    · refine .bind (rt.keeps_transition _ _ _ _ _) fun _ => .bind (.write ?_) fun _ => .pure _
      exact fun db rows => ⟨rows.distinct, rows.hashed⟩

variable {alerts : List (Alert T)}

theorem normalizeAlerts_each {rows : List (Value F)} (normalized : rt.normalizeAlerts rows = .ok alerts) :
    ∀ alert ∈ alerts, ∃ raw, rt.normalizeAlert raw = .ok alert := by
  induction rows generalizing alerts with
  | nil =>
    cases normalized
    exact fun _ impossible => nomatch impossible
  | cons raw rest ih =>
    obtain ⟨first, one, normalized⟩ := result_bind.mp normalized
    obtain ⟨others, tail, same⟩ := result_bind.mp normalized
    cases same
    exact forall_mem_cons.mpr ⟨⟨raw, one⟩, ih tail⟩

theorem keeps_sync (response : Value F) (now : T) : Transaction.Within rt.Keeps (rt.sync response now) := by
  refine .lift_bind fun incoming checked => .bind (.read _) fun existing => ?_
  refine .bind (.each_mem fun alert member => ?_) fun seen =>
    .bind (.each (rt.keeps_resolve incoming now) existing) fun gone => ?_
  · obtain ⟨rows, normalized⟩ := (rt.incoming_read checked).1
    obtain ⟨raw, accepted⟩ := rt.normalizeAlerts_each normalized alert member
    exact rt.keeps_observe existing now accepted
  · refine .bind (.write fun db rows => ⟨rows.distinct, rows.hashed⟩) fun _ =>
      .bind (.write fun db rows => ?_) fun _ => .pure _
    exact ⟨rows.distinct.sublist (filter_sublist.map _), fun row member => rows.hashed row (mem_filter.mp member).1⟩

theorem rows_kept {α : Type} {body : Action T α} (within : Transaction.Within rt.Keeps body) {db after : Db T}
    {value : α} (rows : rt.Rows db) (done : body db = .ok (value, after)) : rt.Rows after := by
  have committed := within.commit rt.Rows (fun _ _ keeps => keeps) rows
  rwa [commit_ok done] at committed

theorem perform_rows {run : Run T} (rows : rt.Rows run.db) (call : Call F T) : rt.Rows (rt.perform run call).db := by
  cases call with
  | recordPollError error now => exact ⟨rows.distinct, rows.hashed⟩
  | sync response now =>
    unfold perform
    dsimp only
    split
    · next done => exact rt.rows_kept (rt.keeps_sync response now) rows done
    · exact rows
  | acknowledge fingerprint actor note now =>
    unfold perform
    dsimp only
    split
    · next done => exact rt.rows_kept (rt.keeps_acknowledge fingerprint actor note now) rows done
    · exact rows

theorem run_rows (calls : List (Call F T)) : rt.Rows (rt.run calls).db := by
  induction calls using List.reverseRecOn with
  | nil => exact ⟨nodup_nil, fun _ impossible => nomatch impossible⟩
  | append_singleton calls call ih =>
    rw [run, foldl_append]
    exact rt.perform_rows ih call

theorem sync_stores {db after : Db T} (distinct : (db.alerts.map Row.fingerprint).Nodup)
    {now : T} {result : Synced T} (done : rt.sync response now db = .ok (result, after))
    (checked : rt.incoming response = .ok alerts) {alert : Alert T} (member : alert ∈ alerts) :
    ∃ row ∈ after.alerts, row.fingerprint = alert.fingerprint := by
  obtain ⟨incoming, seen, gone, middle, late, metadata, normalized, first, second, pruned, -⟩ := rt.sync_parts done
  obtain rfl : incoming = alerts := Except.ok.inj (normalized.symm.trans checked)
  have sound : Sound (db.alerts.filterMap Row.resolvedAt ++ [now]) db :=
    ⟨distinct, fun row present time dated =>
      mem_append_left _ (mem_filterMap.mpr ⟨row, present, dated⟩)⟩
  obtain ⟨middleSound, -, seenRounds⟩ := each_touches Alert.fingerprint
    (rt.observe db.alerts now) (fun _ _ _ _ _ ran => (rt.observe_effect ran).1) (rt.incoming_read normalized).2
    sound first
  obtain ⟨-, goneOthers, goneRounds⟩ := each_touches Row.fingerprint (rt.resolve incoming now)
    (fun _ _ _ _ _ ran => (rt.resolve_effect (mem_append_right _ (mem_singleton_self _)) ran).1)
    distinct middleSound second
  obtain ⟨start, finish, made, -, ran, -, ended, -⟩ := seenRounds alert member
  -- the first loop leaves the row active, the second passes it by, and an active row is not pruned
  have active : ∃ row, middle.alert? alert.fingerprint = some row ∧ row.state = .active alert.state := by
    have effect : Touches ([] : List T) alert.fingerprint _ _ _ ∧ _ := rt.observe_effect ran
    have step := congrArg Prod.fst effect.2
    obtain ⟨life, stepped, state⟩ := Life.step_poll
      ((db.alerts.find? fun row => row.fingerprint = alert.fingerprint).map Row.life) alert.state now
    obtain ⟨row, found, same⟩ := Option.map_eq_some_iff.mp (step.trans stepped)
    exact ⟨row, ended.trans found, (congrArg Life.state same).trans state⟩
  obtain ⟨row, found, state⟩ := active
  have passed : late.alert? alert.fingerprint = middle.alert? alert.fingerprint := by
    by_cases known : alert.fingerprint ∈ db.alerts.map Row.fingerprint
    · obtain ⟨old, present, same⟩ := mem_map.mp known
      obtain ⟨start, finish, made, -, ran, before, ended, -⟩ := goneRounds old present
      have skipped := (rt.resolve_effect (mem_singleton_self now) ran).2.1 (same ▸ mem_map_of_mem member)
      rw [same] at before ended skipped
      exact ended.trans (skipped.1.trans before)
    · exact (goneOthers _ known).1
  rw [← passed] at found
  cases pruned
  refine ⟨row, mem_filter.mpr ⟨List.mem_of_find?_eq_some found, ?_⟩, by simpa using List.find?_some found⟩
  unfold expired
  split
  · rw [state]
    rfl
  · rfl

/-- The identity of alerts is what is shown of their labels.

Two alerts have one fingerprint exactly when their labels show the same. A poll of accepted alerts is refused
exactly when two of them show the same. Every row that the inbox ever has is of one mapping, goes to the alerts that
show it and to no others, and each alert of a poll has a row of its own mapping. -/
structure Faithful : Prop where
  identity : ∀ first second one other, rt.Carries first one → rt.Carries second other →
    (one.fingerprint = other.fingerprint ↔ ∀ key, rt.hidden first key = rt.hidden second key)
  admits : ∀ response rows maps now db, Response response rows → rt.Accepted rows maps →
    (∃ text, rt.iso now = .ok text) → ((∃ result, rt.sync response now db = .ok result) ↔ maps.Pairwise rt.Apart)
  rows : ∀ calls, ∀ row ∈ (rt.run calls).db.alerts, ∃ mapping, rt.Holds row mapping
  stored : ∀ calls response rows maps now result after, Response response rows → rt.Accepted rows maps →
    rt.sync response now (rt.run calls).db = .ok (result, after) → ∀ labels ∈ maps, ∃ row ∈ after.alerts,
      ∃ mapping, rt.Holds row mapping ∧ ∀ key, lookup key mapping = rt.hidden labels key

theorem alert_identity (injective : Function.Injective rt.sha256) : rt.Faithful where
  identity _ _ _ _ left right := rt.carries_fingerprint injective left right
  admits response rows maps now db shape accepted time := by
    obtain ⟨alerts, normalized, each⟩ := rt.normalizeAlerts_accepted accepted
    rw [rt.sync_ok time, ← rt.fingerprints_distinct injective each]
    exact (exists_congr fun _ => rt.incoming_ok shape normalized).trans ⟨fun ⟨_, distinct, _⟩ => distinct,
      fun distinct => ⟨alerts, distinct, rfl⟩⟩
  rows calls row member := ((rt.run_rows calls).hashed row member).holds injective
  stored calls response rows maps now result after shape accepted done labels member := by
    obtain ⟨alerts, normalized, each⟩ := rt.normalizeAlerts_accepted accepted
    obtain ⟨incoming, -, -, -, -, -, checked, -, -, -, -⟩ := rt.sync_parts done
    obtain ⟨-, rfl⟩ := (rt.incoming_ok shape normalized).mp checked
    obtain ⟨alert, listed, carries⟩ := rt.carried_mem each member
    have before := rt.run_rows calls
    obtain ⟨row, stored, named⟩ := rt.sync_stores before.distinct done checked listed
    have kept := rt.rows_kept (rt.keeps_sync response now) before done
    obtain ⟨mapping, holds⟩ := (kept.hashed row stored).holds injective
    exact ⟨row, stored, mapping, holds, fun key => ((holds.only labels alert carries).mp named.symm key).symm⟩

end Platform

def openInbox : Platform FloatText Int :=
  { plainInbox with
    sensitive := Intelligence.sensitiveKey
    sha256 := id }

theorem alert_identity_open : openInbox.Faithful := openInbox.alert_identity Function.injective_id

def tokenLabels (token : String) : LabelMap where
  entries := [("alertname", "Login"), ("api_token", token)]
  distinct := (by decide : ["alertname", "api_token"].Nodup)

def tokenAlert (token : String) : Value FloatText :=
  .object [("labels", (tokenLabels token).value), ("state", .str "firing")]

/-- Alerts that differ in a token have one fingerprint, and a poll of both is refused. -/
theorem tokens_collide : (tokenLabels "first").entries ≠ (tokenLabels "second").entries ∧
      ((openInbox.normalizeAlert (tokenAlert "first")).map Alert.fingerprint).toOption.isSome = true ∧
      ((openInbox.normalizeAlert (tokenAlert "first")).map Alert.fingerprint).toOption =
        ((openInbox.normalizeAlert (tokenAlert "second")).map Alert.fingerprint).toOption ∧
      (openInbox.sync (.object [("status", .str "success"), ("data", .object [("alerts",
        .list [tokenAlert "first", tokenAlert "second"])])]) 0 Db.initial).toBool = false := by
  decide +kernel

end Dash.Alerts
