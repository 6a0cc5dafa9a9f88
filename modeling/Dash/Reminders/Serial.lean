import Dash.Foundation.Replacing
import Dash.Foundation.Table
import Dash.Python.Plain

/-! The registry of base-recovery reminders, one JSON file that the command line and the panel both read and
replace, and calls of several processes on it.

A reminder carries the checks of `normalize_reminder` as fields, and saving passes it through
them again. The file is the JSON value it holds. The lock is held while the file is replaced, not from
the read on: where every replacement finds the file its call has read, no update is lost.
-/

set_option autoImplicit false

namespace Dash.Reminders

open Dash.Python Dash.Foundation

def SCHEMA_VERSION : Int := 1

def DEFAULT_MESSAGE : String :=
  "Mara, your base is preserved in the server's Base Reconstruction Tool backup. " ++
    "When you return, please contact a server admin so we can recover it for you."

/-- What `now_iso` can return. -/
def Moment : Type := { text : String // text ≠ "" }

/-- The interpreter, which reads back the numbers it writes. -/
structure Platform (F : Type) extends Runtime F where
  intOfText_toString : ∀ value : Int, 0 < value → intOfText (toString value) = some value

/-- What `normalize_reminder` returns. -/
structure Reminder {F : Type} (rt : Platform F) where
  (accountId backupId totemId : Int)
  message : String
  enabled : Bool
  (createdAt updatedAt : Value F)
  positive : 0 < accountId ∧ 0 < backupId ∧ 0 < totemId
  stripped : strip message = message
  bounded : message ≠ "" ∧ message.utf8ByteSize ≤ 4096
  dated : rt.truthy createdAt = true ∧ rt.truthy updatedAt = true

inductive Stored (F : Type) where
  | missing
  /-- It cannot be read, or is not JSON. -/
  | unreadable
  | document (value : Value F)

/-- The times `now_iso` has while a call normalises its rows, for `createdAt` and `updatedAt`. -/
structure Clock where
  createdAt : Nat → Moment
  updatedAt : Nat → Moment

variable {F : Type}

theorem truthy_orElse (rt : Runtime F) {value other : Value F} (falls : rt.truthy other = true) :
    rt.truthy (rt.orElse value other) = true := by
  unfold Runtime.orElse
  split
  · assumption
  · exact falls

namespace Platform

variable (rt : Platform F)

def positiveInt (value : Value F) (field : String) : Result { parsed : Int // 0 < parsed } :=
  match rt.int value with
  | .ok parsed =>
    if positive : 0 < parsed then .ok ⟨parsed, positive⟩
    else valueError (field ++ " must be a positive integer")
  | .error why =>
    if why.type = .typeError ∨ why.type = .valueError then
      valueError (field ++ " must be a positive integer")
    else .error why

def field (raw : Value F) (camel snake : String) : Value F := getOr raw camel (raw.get snake)

def dateOf (raw : Value F) (camel snake : String) (now : Moment) : Value F :=
  rt.orElse (rt.orElse (raw.get camel) (raw.get snake)) (.str now.val)

theorem dateOf_truthy (raw : Value F) (camel snake : String) (now : Moment) :
    rt.truthy (rt.dateOf raw camel snake now) = true :=
  truthy_orElse rt.toRuntime (decide_eq_true now.property)

def normalizeReminder (raw : Value F) (createdNow updatedNow : Moment) : Result (Reminder rt) := do
  if !raw.isDict then valueError "each base-recovery reminder must be an object"
  else do
    let accountId ← rt.positiveInt (field raw "accountId" "account_id") "accountId"
    let backupId ← rt.positiveInt (field raw "backupId" "backup_id") "backupId"
    let totemId ← rt.positiveInt (field raw "totemId" "totem_id") "totemId"
    let text := rt.str (rt.orElse (raw.get "message") (.str DEFAULT_MESSAGE))
    if empty : strip text = "" then valueError "message must not be empty"
    else if long : 4096 < (strip text).utf8ByteSize then
      valueError "message must be at most 4096 UTF-8 bytes"
    else .ok {
      accountId := accountId.val
      backupId := backupId.val
      totemId := totemId.val
      message := strip text
      enabled := rt.truthy (getOr raw "enabled" (.bool true))
      createdAt := rt.dateOf raw "createdAt" "created_at" createdNow
      updatedAt := rt.dateOf raw "updatedAt" "updated_at" updatedNow
      positive := ⟨accountId.property, backupId.property, totemId.property⟩
      stripped := strip_strip text
      bounded := ⟨empty, Nat.le_of_not_lt long⟩
      dated := ⟨rt.dateOf_truthy _ _ _ _, rt.dateOf_truthy _ _ _ _⟩ }

end Platform

def Reminder.value {rt : Platform F} (reminder : Reminder rt) : Value F :=
  .object [("accountId", .int reminder.accountId), ("backupId", .int reminder.backupId),
    ("totemId", .int reminder.totemId), ("message", .str reminder.message),
    ("enabled", .bool reminder.enabled), ("createdAt", reminder.createdAt),
    ("updatedAt", reminder.updatedAt)]

namespace Platform

variable (rt : Platform F)

/-- The loop over the rows: `reminders[str(reminder["accountId"])] = reminder`. -/
def collect (clock : Clock) : Nat → List (Value F) → List (Reminder rt) → Result (List (Reminder rt))
  | _, [], reminders => .ok reminders
  | index, raw :: rest, reminders => do
    let reminder ← rt.normalizeReminder raw (clock.createdAt index) (clock.updatedAt index)
    collect clock (index + 1) rest (upsert Reminder.accountId reminder reminders)

def loadRegistry (clock : Clock) : Stored F → Result (List (Reminder rt))
  | .missing => .ok []
  | .unreadable => valueError "could not read reminder registry"
  | .document value =>
    if !value.isDict then valueError "base-recovery reminder registry must be an object"
    else do
      let version ← rt.int (getOr value "schemaVersion" (.int SCHEMA_VERSION))
      if version ≠ SCHEMA_VERSION then
        valueError "unsupported base-recovery reminder registry schema"
      else
        match getOr value "reminders" (.dict []) with
        | .list rows => rt.collect clock 0 rows []
        | .dict entries => rt.collect clock 0 (entries.map Prod.snd) []
        | _ => valueError "base-recovery reminder registry reminders must be an object or array"

/-- The value that `save_registry` writes. -/
def registryValue (reminders : List (Reminder rt)) : Value F :=
  .object [("schemaVersion", .int SCHEMA_VERSION), ("reminders",
    .object (reminders.map fun reminder => (toString reminder.accountId, reminder.value)))]

/-- What `save_registry` puts in the place of the file. -/
def saveRegistry (clock : Clock) (reminders : List (Reminder rt)) : Result (Stored F) := do
  let normalized ← rt.collect clock 0 (reminders.map Reminder.value) []
  .ok (.document (rt.registryValue normalized))

end Platform

/-- The arguments of a call and the times it reads. -/
inductive Call (F : Type) where
  | upsert (accountId backupId totemId message : Value F) (createdNow updatedNow : Moment)
      (clock : Clock)
  | remove (accountId : Value F) (clock : Clock)

namespace Platform

variable (rt : Platform F)

/-- What `upsert_reminder` makes of the registry it has read. -/
def upsertReminder (accountId backupId totemId message : Value F) (createdNow updatedNow : Moment)
    (clock : Clock) : Transaction (Stored F) Exception (Option (Reminder rt)) := fun stored => do
  let reminders ← rt.loadRegistry clock stored
  let key ← rt.positiveInt accountId "accountId"
  let prior := reminders.find? fun reminder => reminder.accountId = key.val
  let createdAt := rt.orElse ((prior.map Reminder.createdAt).getD .none) (.str createdNow.val)
  let reminder ← rt.normalizeReminder (.object [("accountId", .str (toString key.val)),
    ("backupId", backupId), ("totemId", totemId), ("message", message), ("enabled", .bool true),
    ("createdAt", createdAt), ("updatedAt", .str updatedNow.val)]) createdNow updatedNow
  let saved ← rt.saveRegistry clock (upsert Reminder.accountId reminder reminders)
  .ok (some reminder, saved)

/-- What `remove_reminder` makes of it. -/
def removeReminder (accountId : Value F) (clock : Clock) :
    Transaction (Stored F) Exception (Option (Reminder rt)) := fun stored => do
  let reminders ← rt.loadRegistry clock stored
  let key ← rt.positiveInt accountId "accountId"
  let removed := reminders.find? fun reminder => reminder.accountId = key.val
  let saved ← rt.saveRegistry clock (reminders.filter fun reminder => !decide (reminder.accountId = key.val))
  .ok (removed, saved)

def body : Call F → Transaction (Stored F) Exception (Option (Reminder rt))
  | .upsert accountId backupId totemId message createdNow updatedNow clock =>
    rt.upsertReminder accountId backupId totemId message createdNow updatedNow clock
  | .remove accountId clock => rt.removeReminder accountId clock

end Platform

open List

namespace Platform

variable (rt : Platform F)

theorem positiveInt_pos {value : Int} (positive : 0 < value) (field : String) :
    rt.positiveInt (.int value) field = .ok ⟨value, positive⟩ := by
  simp [positiveInt, Runtime.int, positive]

theorem positiveInt_text {value : Int} (positive : 0 < value) (field : String) :
    rt.positiveInt (.str (toString value)) field = .ok ⟨value, positive⟩ := by
  have parsed : rt.int (.str (toString value)) = .ok value := by
    rw [Runtime.int, rt.intOfText_toString value positive]
  rw [positiveInt, parsed]
  exact dif_pos positive

/-- What the checks accept, whatever the members are called. -/
theorem normalizeReminder_ok {raw : Value F} {createdNow updatedNow : Moment}
    (reminder : Reminder rt) (dict : raw.isDict = true)
    (account : rt.positiveInt (field raw "accountId" "account_id") "accountId" =
      .ok ⟨reminder.accountId, reminder.positive.1⟩)
    (backup : rt.positiveInt (field raw "backupId" "backup_id") "backupId" =
      .ok ⟨reminder.backupId, reminder.positive.2.1⟩)
    (totem : rt.positiveInt (field raw "totemId" "totem_id") "totemId" = .ok ⟨reminder.totemId, reminder.positive.2.2⟩)
    (message : strip (rt.str (rt.orElse (raw.get "message") (.str DEFAULT_MESSAGE))) = reminder.message)
    (enabled : rt.truthy (getOr raw "enabled" (.bool true)) = reminder.enabled)
    (created : rt.dateOf raw "createdAt" "created_at" createdNow = reminder.createdAt)
    (updated : rt.dateOf raw "updatedAt" "updated_at" updatedNow = reminder.updatedAt) :
    rt.normalizeReminder raw createdNow updatedNow = .ok reminder := by
  obtain ⟨accountId, backupId, totemId, text, isEnabled, createdAt, updatedAt, positive, stripped,
    bounded, dated⟩ := reminder
  subst message enabled created updated
  have refused : ¬ (!raw.isDict) = true := by simp [dict]
  rw [normalizeReminder, if_neg refused]
  refine result_bind.mpr ⟨_, account, result_bind.mpr ⟨_, backup, result_bind.mpr ⟨_, totem, ?_⟩⟩⟩
  exact (dif_neg bounded.1).trans (dif_neg (Nat.not_lt_of_le bounded.2))

theorem normalizeReminder_account {raw : Value F} {createdNow updatedNow : Moment} {reminder : Reminder rt}
    (accepted : rt.normalizeReminder raw createdNow updatedNow = .ok reminder) :
    ∃ positive : 0 < reminder.accountId, rt.positiveInt (field raw "accountId" "account_id")
      "accountId" = .ok ⟨reminder.accountId, positive⟩ := by
  rw [normalizeReminder] at accepted
  split at accepted
  · cases accepted
  · obtain ⟨account, parsed, rest⟩ := result_bind.mp accepted
    obtain ⟨backup, -, rest⟩ := result_bind.mp rest
    obtain ⟨totem, -, rest⟩ := result_bind.mp rest
    simp only at rest
    split at rest
    · cases rest
    · split at rest
      · cases rest
      · cases rest
        exact ⟨account.property, parsed⟩

/-- A reminder passes its own checks and comes back as it is. -/
theorem normalizeReminder_value (reminder : Reminder rt) (createdNow updatedNow : Moment) :
    rt.normalizeReminder reminder.value createdNow updatedNow = .ok reminder := by
  have account : field reminder.value "accountId" "account_id" = .int reminder.accountId := by
    simp [field, getOr, Reminder.value, Value.get?, Value.object, Key.named]
  have backup : field reminder.value "backupId" "backup_id" = .int reminder.backupId := by
    simp [field, getOr, Reminder.value, Value.get?, Value.object, Key.named]
  have totem : field reminder.value "totemId" "totem_id" = .int reminder.totemId := by
    simp [field, getOr, Reminder.value, Value.get?, Value.object, Key.named]
  have message : reminder.value.get "message" = .str reminder.message := by
    simp [Value.get, Reminder.value, Value.get?, Value.object, Key.named]
  have enabled : getOr reminder.value "enabled" (.bool true) = .bool reminder.enabled := by
    simp [getOr, Reminder.value, Value.get?, Value.object, Key.named]
  have created : reminder.value.get "createdAt" = reminder.createdAt := by
    simp [Value.get, Reminder.value, Value.get?, Value.object, Key.named]
  have updated : reminder.value.get "updatedAt" = reminder.updatedAt := by
    simp [Value.get, Reminder.value, Value.get?, Value.object, Key.named]
  apply rt.normalizeReminder_ok reminder rfl
  · rw [account, rt.positiveInt_pos reminder.positive.1]
  · rw [backup, rt.positiveInt_pos reminder.positive.2.1]
  · rw [totem, rt.positiveInt_pos reminder.positive.2.2]
  · have truthy : rt.truthy (.str reminder.message) = true := decide_eq_true reminder.bounded.1
    rw [message, Runtime.orElse, if_pos truthy, Runtime.str, reminder.stripped]
  · rw [enabled, Runtime.truthy]
  · rw [dateOf, created]
    simp [Runtime.orElse, reminder.dated.1]
  · rw [dateOf, updated]
    simp [Runtime.orElse, reminder.dated.2]

theorem collect_values (clock : Clock) (index : Nat) (reminders known : List (Reminder rt))
    (distinct : ((known ++ reminders).map Reminder.accountId).Nodup) :
    rt.collect clock index (reminders.map Reminder.value) known = .ok (known ++ reminders) := by
  induction reminders generalizing index known with
  | nil => rw [append_nil]; rfl
  | cons reminder rest ih =>
    have fresh : reminder.accountId ∉ known.map Reminder.accountId := by
      rw [map_append, map_cons, nodup_append] at distinct
      exact fun member => distinct.2.2 _ member _ mem_cons_self rfl
    rw [map_cons, collect]
    refine result_bind.mpr ⟨reminder, rt.normalizeReminder_value reminder _ _, ?_⟩
    rw [upsert, if_neg fresh, ih (index + 1) (known ++ [reminder]) (by simpa using distinct)]
    simp

variable {clock : Clock}

theorem collect_distinct {index : Nat} {rows : List (Value F)}
    {known reminders : List (Reminder rt)} (distinct : (known.map Reminder.accountId).Nodup)
    (collected : rt.collect clock index rows known = .ok reminders) :
    (reminders.map Reminder.accountId).Nodup := by
  induction rows generalizing index known with
  | nil =>
    cases collected
    exact distinct
  | cons raw rest ih =>
    obtain ⟨reminder, -, others⟩ := result_bind.mp collected
    exact ih (Table.upsert_keys distinct) others

variable {reminders : List (Reminder rt)}

theorem load_distinct {stored : Stored F} (loaded : rt.loadRegistry clock stored = .ok reminders) :
    (reminders.map Reminder.accountId).Nodup := by
  cases stored with
  | missing =>
    cases loaded
    exact .nil
  | unreadable => cases loaded
  | document value =>
    rw [loadRegistry] at loaded
    split at loaded
    · cases loaded
    · obtain ⟨version, -, loaded⟩ := result_bind.mp loaded
      obtain ⟨-, loaded⟩ := result_refuse.mp loaded
      have none : (([] : List (Reminder rt)).map Reminder.accountId).Nodup := nodup_nil
      split at loaded
      · exact rt.collect_distinct none loaded
      · exact rt.collect_distinct none loaded
      · cases loaded

theorem saveRegistry_ok (clock : Clock) (distinct : (reminders.map Reminder.accountId).Nodup) :
    rt.saveRegistry clock reminders = .ok (.document (rt.registryValue reminders)) :=
  result_bind.mpr ⟨reminders, rt.collect_values clock 0 reminders [] distinct, rfl⟩

theorem load_saved (clock : Clock) (distinct : (reminders.map Reminder.accountId).Nodup) :
    rt.loadRegistry clock (.document (rt.registryValue reminders)) = .ok reminders := by
  have version : getOr (rt.registryValue reminders) "schemaVersion" (.int SCHEMA_VERSION) =
      .int SCHEMA_VERSION := by
    simp [getOr, registryValue, Value.get?, Value.object, Key.named]
  have rows : getOr (rt.registryValue reminders) "reminders" (.dict []) =
      .object (reminders.map fun reminder => (toString reminder.accountId, reminder.value)) := by
    simp [getOr, registryValue, Value.get?, Value.object, Key.named]
  have members : ((reminders.map fun reminder =>
      ((toString reminder.accountId, reminder.value) : String × Value F)).map fun field =>
        ((.str field.1, field.2) : Key F × Value F)).map Prod.snd =
      reminders.map Reminder.value := by
    simp
  have dict : ¬ (!(rt.registryValue reminders).isDict) = true := by
    simp [registryValue, Value.object, Value.isDict]
  rw [loadRegistry, if_neg dict, version]
  refine result_bind.mpr ⟨SCHEMA_VERSION, rfl, ?_⟩
  rw [if_neg (not_not.mpr rfl), rows]
  exact (congrArg (fun rows => rt.collect clock 0 rows []) members).trans
    (rt.collect_values clock 0 reminders [] distinct)

def reminder? (clock : Clock) (stored : Stored F) (account : Int) : Option (Reminder rt) :=
  (rt.loadRegistry clock stored).toOption.bind fun reminders =>
    reminders.find? fun reminder => reminder.accountId = account

theorem reminder?_loaded {stored : Stored F} (loaded : rt.loadRegistry clock stored = .ok reminders) (account : Int) :
    rt.reminder? clock stored account = reminders.find? fun reminder => reminder.accountId = account := by
  rw [reminder?, loaded]
  rfl

end Platform

def Call.accountId : Call F → Value F
  | .upsert accountId _ _ _ _ _ _ => accountId
  | .remove accountId _ => accountId

def Call.clock : Call F → Clock
  | .upsert _ _ _ _ _ _ clock => clock
  | .remove _ clock => clock

def Call.outcome {rt : Platform F} (call : Call F) (result : Option (Reminder rt)) : Option (Reminder rt) :=
  match call with
  | .upsert _ _ _ _ _ _ _ => result
  | .remove _ _ => none

namespace Platform

variable (rt : Platform F)

def About (call : Call F) (account : Int) : Prop :=
  ∃ positive : 0 < account, rt.positiveInt call.accountId "accountId" = .ok ⟨account, positive⟩

variable {call : Call F}

theorem about_same {first second : Int} (one : rt.About call first)
    (other : rt.About call second) : first = second := by
  obtain ⟨_, one⟩ := one
  obtain ⟨_, other⟩ := other
  exact congrArg Subtype.val (Except.ok.inj (one.symm.trans other))

/-- A call that returns leaves every account but its own as it has read it. -/
theorem body_ok {stored next : Stored F} {result : Option (Reminder rt)}
    (success : rt.body call stored = .ok (result, next)) :
    ∃ account, rt.About call account ∧ ∀ clock other, rt.reminder? clock next other =
      if other = account then call.outcome result else rt.reminder? call.clock stored other := by
  cases call with
  | upsert accountId backupId totemId message createdNow updatedNow clock =>
    obtain ⟨reminders, loaded, rest⟩ := result_bind.mp success
    obtain ⟨key, parsed, rest⟩ := result_bind.mp rest
    obtain ⟨reminder, accepted, rest⟩ := result_bind.mp rest
    obtain ⟨saved, written, same⟩ := result_bind.mp rest
    obtain ⟨rfl, rfl⟩ := Prod.mk.inj (Except.ok.inj same)
    have distinct : ((upsert Reminder.accountId reminder reminders).map
        Reminder.accountId).Nodup := Table.upsert_keys (rt.load_distinct loaded)
    cases (rt.saveRegistry_ok clock distinct).symm.trans written
    -- the reminder is filed under its own account, which is the one the call names
    have named : reminder.accountId = key.val := by
      obtain ⟨positive, own⟩ := rt.normalizeReminder_account accepted
      exact congrArg Subtype.val (Except.ok.inj (own.symm.trans (rt.positiveInt_text key.property "accountId")))
    refine ⟨key.val, ⟨key.property, parsed⟩, fun other_clock other => ?_⟩
    rw [rt.reminder?_loaded (rt.load_saved other_clock distinct), Table.find_upsert, named]
    by_cases same : other = key.val
    · rw [if_pos same, if_pos same]
      rfl
    · rw [if_neg same, if_neg same, Call.clock, rt.reminder?_loaded loaded]
  | remove accountId clock =>
    obtain ⟨reminders, loaded, rest⟩ := result_bind.mp success
    obtain ⟨key, parsed, rest⟩ := result_bind.mp rest
    obtain ⟨saved, written, same⟩ := result_bind.mp rest
    obtain ⟨rfl, rfl⟩ := Prod.mk.inj (Except.ok.inj same)
    have distinct := (rt.load_distinct loaded).sublist ((filter_sublist (p := fun reminder : Reminder rt =>
        !decide (reminder.accountId = key.val))).map Reminder.accountId)
    cases (rt.saveRegistry_ok clock distinct).symm.trans written
    refine ⟨key.val, ⟨key.property, parsed⟩, fun other_clock other => ?_⟩
    rw [rt.reminder?_loaded (rt.load_saved other_clock distinct), List.find?_filter]
    by_cases same : other = key.val
    · rw [if_pos same, Call.outcome, List.find?_eq_none]
      intro reminder _
      simp [same]
    · rw [if_neg same, Call.clock, rt.reminder?_loaded loaded]
      congr 1
      funext reminder
      by_cases this : reminder.accountId = other <;> simp [this, same]

theorem commit_other {stored : Stored F} {account : Int} (other : ¬ rt.About call account) (clock : Clock) :
    ∃ read, rt.reminder? clock ((rt.body call).commit stored) account =
      rt.reminder? read stored account := by
  cases outcome : rt.body call stored with
  | error why => exact ⟨clock, by rw [Transaction.commit_error outcome]⟩
  | ok success =>
    obtain ⟨result, next⟩ := success
    obtain ⟨named, about, rows⟩ := rt.body_ok outcome
    have apart : account ≠ named := fun same => other (same ▸ about)
    refine ⟨call.clock, ?_⟩
    rw [Transaction.commit_ok outcome, rows clock account, if_neg apart]

end Platform

variable {F ι : Type} [DecidableEq ι]

namespace Platform

variable (rt : Platform F) (calls : ι → Call F) (start : Stored F)

/-- The calls on the registry file, after the schedule. -/
abbrev world (schedule : List ι) : Replacing.World ι (Stored F) Exception (Option (Reminder rt)) :=
  Replacing.run (fun call => rt.body (calls call)) start schedule

def Undisturbed (schedule : List ι) : Prop :=
  Replacing.Undisturbed (fun call => rt.body (calls call)) start schedule

/-- Another call about the account began, and had not ended before the call did its read. -/
def Touched (schedule before : List ι) (call : ι) (account : Int) : Prop :=
  ∃ other, other ≠ call ∧ rt.About (calls other) account ∧ (rt.world calls start schedule).phase other ≠ .waiting ∧
    ¬ ((rt.world calls start before).phase other).Ended

/-- The registry is what the ended calls make of it in some order that respects real time. -/
structure Linearizable (schedule : List ι) : Prop where
  serial : ∃ order : List ι, order.Nodup ∧
    (∀ call, call ∈ order ↔ ((rt.world calls start schedule).phase call).Ended) ∧
    (∀ before first second, before <+: schedule → ((rt.world calls start before).phase first).Ended →
      (rt.world calls start before).phase second = .waiting →
      second ∈ order → [first, second].Sublist order) ∧
    (rt.world calls start schedule).state =
      order.foldl (fun stored call => (rt.body (calls call)).commit stored) start ∧
    ∀ call, (∀ result, (rt.world calls start schedule).phase call = .returned result →
        ∃ before rest next, order = before ++ call :: rest ∧ rt.body (calls call)
          (before.foldl (fun stored call => (rt.body (calls call)).commit stored) start) =
            .ok (result, next)) ∧
      ∀ why, (rt.world calls start schedule).phase call = .raised why →
        ∃ before rest, order = before ++ call :: rest ∧ rt.body (calls call)
          (before.foldl (fun stored call => (rt.body (calls call)).commit stored) start) =
            .error why
  /-- What an upsert returned is there until another call about the account comes. -/
  present : ∀ call before account result, before <+: schedule →
    (rt.world calls start before).phase call = .waiting →
    (rt.world calls start schedule).phase call = .returned result →
    rt.About (calls call) account → ¬ rt.Touched calls start schedule before call account →
    ∀ clock, rt.reminder? clock (rt.world calls start schedule).state account = (calls call).outcome result
  /-- A step changes no reminder of an account its call does not name. -/
  others : ∀ before call account, before ++ [call] <+: schedule → ¬ rt.About (calls call) account →
    ∀ clock, ∃ read, rt.reminder? clock (rt.world calls start (before ++ [call])).state account =
      rt.reminder? read (rt.world calls start before).state account

end Platform

namespace Platform

variable {rt : Platform F} {calls : ι → Call F} {start : Stored F} {schedule : List ι}

omit [DecidableEq ι] in
/-- Calls about other accounts keep a reminder that is read the same at any time. -/
theorem replay_other {account : Int} {row : Option (Reminder rt)} {stored : Stored F}
    (settled : ∀ clock, rt.reminder? clock stored account = row) (rest : List ι)
    (other : ∀ call ∈ rest, ¬ rt.About (calls call) account) (clock : Clock) :
    rt.reminder? clock (Replacing.replay (fun call => rt.body (calls call)) stored rest) account =
      row := by
  induction rest generalizing stored with
  | nil => exact settled clock
  | cons call rest ih =>
    refine ih (fun clock => ?_) fun later member => other later (mem_cons_of_mem _ member)
    obtain ⟨read, same⟩ := rt.commit_other (other call mem_cons_self) clock
    exact same.trans (settled read)

omit [DecidableEq ι] in
/-- What comes after a member of a list without repetitions is in no start that lacks it. -/
theorem not_ended_before {first rest start : List ι} {call later : ι}
    (once : (first ++ call :: rest).Nodup) (member : later ∈ rest)
    (initial : start <+: first ++ call :: rest) (ended : later ∈ start) (going : call ∉ start) :
    False := by
  have upto : first ++ [call] <+: first ++ call :: rest := by simp
  rcases List.prefix_or_prefix_of_prefix initial upto with short | long
  · rcases prefix_concat_iff.mp short with rfl | shorter
    · exact going (mem_append_right _ mem_cons_self)
    · exact (nodup_append.mp once).2.2 later (shorter.subset ended) later (mem_cons_of_mem _ member) rfl
  · exact going (long.subset (mem_append_right _ mem_cons_self))

/-- In every schedule whose replacements find what their calls have read, no update is lost. -/
theorem undisturbed_linearizable (undisturbed : rt.Undisturbed calls start schedule) :
    rt.Linearizable calls start schedule := by
  have serial := Replacing.run_serial undisturbed
  have tracked : Replacing.Tracked _ (rt.world calls start schedule) :=
    Replacing.run_tracked schedule
  refine ⟨⟨(rt.world calls start schedule).ended, tracked.once, tracked.ended, ?_, serial.state,
    fun call => ⟨serial.returned call, serial.raised call⟩⟩, ?_, ?_⟩
  · intro before first second earlier done waiting ends
    exact Replacing.ended_before earlier (((Replacing.run_tracked before).ended first).mpr done) waiting ends
  · intro call before account result earlier waiting returned about untouched clock
    obtain ⟨first, rest, next, split, success⟩ := serial.returned call result returned
    obtain ⟨named, own, rows⟩ := rt.body_ok success
    cases rt.about_same about own
    -- a later call about the account would have begun without having ended before
    have once : (first ++ call :: rest).Nodup := split ▸ tracked.once
    have other : ∀ later ∈ rest, ¬ rt.About (calls later) account := by
      intro later member about_later
      refine untouched ⟨later, ?_, about_later, ?_, fun done => ?_⟩
      · rintro rfl
        exact (nodup_cons.mp (nodup_append.mp once).2.1).1 member
      · intro idle
        have ends : later ∈ (rt.world calls start schedule).ended := by
          rw [split]
          exact mem_append_right _ (mem_cons_of_mem _ member)
        have ended := (tracked.ended later).mp ends
        rw [idle] at ended
        exact ended
      · exact not_ended_before once member
          (split ▸ Replacing.run_ended earlier) (((Replacing.run_tracked before).ended later).mpr done)
          fun ended => by
            have finished := ((Replacing.run_tracked before).ended call).mp ended
            rw [waiting] at finished
            exact finished
    have settled : ∀ clock, rt.reminder? clock next account = (calls call).outcome result := by
      intro clock
      rw [rows clock account, if_pos rfl]
    have whole : (rt.world calls start schedule).state =
        Replacing.replay (fun call => rt.body (calls call)) next rest := by
      have after := Transaction.commit_ok success
      rw [serial.state, split, Replacing.replay, foldl_append, foldl_cons]
      exact congrArg (fun stored => Replacing.replay (fun call => rt.body (calls call)) stored rest) after
    rw [whole]
    exact replay_other settled rest other clock
  · intro before call account inside other clock
    have finds := undisturbed before call inside
    have begun : Replacing.Tracked _ (rt.world calls start before) := Replacing.run_tracked before
    have computed := begun.computed call
    rw [world, world, Replacing.run_snoc]
    rcases Replacing.advance_cases (fun call => rt.body (calls call)) _ call with
      ⟨value, next, waiting, outcome, same⟩ | ⟨why, waiting, outcome, same⟩ |
      ⟨seen, value, next, reading, same⟩ | ⟨-, same⟩ <;> rw [same]
    · exact ⟨clock, rfl⟩
    · exact ⟨clock, rfl⟩
    · obtain ⟨named, about, rows⟩ := rt.body_ok (computed seen value next reading)
      have apart : account ≠ named := fun same => other (same ▸ about)
      refine ⟨(calls call).clock, ?_⟩
      rw [finds seen value next reading, rows clock account, if_neg apart]
    · exact ⟨clock, rfl⟩

end Platform

theorem foldl_digits (chars : List Char) (number : Nat) :
    chars.foldl (fun (number : Int) digit => number * 10 + (digit.toNat - '0'.toNat : Nat)) number =
      (Nat.ofDigitChars 10 chars number : Nat) := by
  induction chars generalizing number with
  | nil => rfl
  | cons char rest ih =>
    rw [foldl_cons, Nat.ofDigitChars_cons, ← ih, Nat.mul_comm 10 number]
    rfl

theorem plainInt_toString (value : Int) (positive : 0 < value) : plainInt (toString value) = some value := by
  obtain ⟨number, rfl⟩ := Int.eq_ofNat_of_zero_le (Int.le_of_lt positive)
  have text : (toString (number : Int)).toList = Nat.toDigits 10 number := by
    change (Nat.repr number).toList = _
    rw [Nat.repr, String.toList_ofList]
  have some : toString (number : Int) ≠ "" := by
    intro empty
    rw [empty] at text
    exact Nat.toDigits_ne_nil text.symm
  have digits : (Nat.toDigits 10 number).all Char.isDigit = true :=
    all_eq_true.mpr fun char member =>
      Nat.isDigit_of_mem_toDigits (by decide) (by decide) member
  have read := foldl_digits (Nat.toDigits 10 number) 0
  rw [Nat.ofDigitChars_ten_toDigits] at read
  rw [plainInt, text, if_pos ⟨some, digits⟩]
  exact congrArg Option.some read

def plain : Platform FloatText := { plainRuntime with intOfText_toString := plainInt_toString }

def noon : Moment := ⟨"2026-07-17T12:00:00Z", by decide⟩

def always : Clock := ⟨fun _ => noon, fun _ => noon⟩

def operators : Bool → Call FloatText
  | false => .upsert (.int 1) (.int 10) (.int 100) (.str "come back") noon noon always
  | true => .upsert (.int 2) (.int 20) (.int 200) (.str "come back") noon noon always

theorem undisturbed_linearizable_turns :
    plain.Linearizable operators .missing ([false, true].flatMap fun call => [call, call]) :=
  Platform.undisturbed_linearizable (Replacing.turns_undisturbed [false, true])

def overlapping : List Bool := [false, true, false, true]

theorem overlapping_accounts :
    (plain.loadRegistry always (plain.world operators .missing overlapping).state).toOption.map
      (fun reminders => reminders.map Reminder.accountId) = some [2] := by
  decide

theorem overlapping_returned :
    ((plain.world operators .missing overlapping).phase false).value?.any Option.isSome = true := by
  decide

/-- Both upserts return, and the reminder of account 1 is lost. -/
theorem overlapping_upserts_lose : ¬ plain.Linearizable operators .missing overlapping := by
  intro linear
  obtain ⟨result, value, returned⟩ := (Option.any_eq_true _ _).mp overlapping_returned
  obtain ⟨reminder, rfl⟩ := Option.isSome_iff_exists.mp returned
  have about : plain.About (operators false) 1 := ⟨by decide, plain.positiveInt_pos _ _⟩
  have alone : ¬ plain.Touched operators .missing overlapping [] false 1 := by
    rintro ⟨other, apart, named, -⟩
    rw [Bool.eq_true_of_not_eq_false apart] at named
    have second : plain.About (operators true) 2 := ⟨by decide, plain.positiveInt_pos _ _⟩
    exact absurd (plain.about_same named second) (by decide)
  have present := linear.present false [] 1 (some reminder) (List.nil_prefix) rfl
    (Replacing.Phase.value?_eq_some.mp value) about alone always
  have accounts := overlapping_accounts
  cases loaded : plain.loadRegistry always (plain.world operators .missing overlapping).state with
  | error why =>
    rw [loaded] at accounts
    cases accounts
  | ok reminders =>
    rw [loaded] at accounts
    rw [plain.reminder?_loaded loaded] at present
    have member := mem_map_of_mem (f := Reminder.accountId) (List.mem_of_find?_eq_some present)
    have named : reminder.accountId = 1 := by simpa using List.find?_some present
    have only : reminders.map Reminder.accountId = [2] := Option.some.inj accounts
    rw [only, named] at member
    exact absurd member (by decide)

end Dash.Reminders
