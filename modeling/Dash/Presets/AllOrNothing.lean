import Dash.Foundation.Effectful
import Dash.Presets.Catalog

/-! Presets planned, applied to the files of the game, and rolled back from a backup.

The duration of the cycle is kept by every run of presets, and a preset is applied whole or not at
all. A rollback checks the rule only when the backup is in place.
-/

set_option autoImplicit false

namespace Dash.Presets

open Dash.Python Dash.Foundation Dash.EnvFile List

variable {F : Type}

/-- `TARGETS` -/
inductive Target where
  | userGame | coriolis | pvp
  deriving DecidableEq

def Target.name : Target → String
  | .userGame => "UserGame.ini"
  | .coriolis => "UserGame.deep-desert-coriolis.ini"
  | .pvp => "UserGame.deep-desert-pvp.ini"

def targets : List Target := [.userGame, .coriolis, .pvp]

def targetOf (name : String) : Option Target := targets.find? fun target => target.name = name

/-- The names of the directories down to a file, and its own. -/
abbrev FilePath : Type := List String

/-- The files of the game under the configuration root, and every other file. -/
structure World where
  game : Target → ByteArray
  others : FilePath → Option ByteArray

namespace World

def put (world : World) (target : Target) (content : ByteArray) : World :=
  { world with game := Function.update world.game target content }

def save (world : World) (path : FilePath) (content : ByteArray) : World :=
  { world with others := Function.update world.others path (some content) }

end World

def newlines : List Char → List Char
  | [] => []
  | '\r' :: '\n' :: rest => '\n' :: newlines rest
  | '\r' :: rest => '\n' :: newlines rest
  | char :: rest => char :: newlines rest

/-- `path.read_text(encoding="utf-8")` -/
def readText (content : ByteArray) : Result (List Char) :=
  match String.fromUTF8? content with
  | some text => .ok (newlines text.toList)
  | none => valueError "'utf-8' codec can't decode the content"

def writeText (text : List Char) : ByteArray := (String.ofList text).toByteArray

def cyclePlace : Place :=
  ("/Script/DuneSandbox.CoriolisSubsystem".toList, "m_CycleDurationInDays".toList)

structure Change where
  setting : Setting
  (before after : Option Line)
  changed : Bool

structure Plan (F : Type) where
  preset : Preset F
  target : Target
  changes : List Change
  changed : Bool
  (before after : List Char)
  affectedServices : List String

/-- What `apply` answers, but for the two texts, which it leaves out. -/
structure Applied (F : Type) where
  plan : Plan F
  idempotent : Bool
  backup : Option FilePath

structure RolledBack where
  target : Target
  (restoredFrom recovery : FilePath)

def affectedServices : Target → List String
  | .userGame => ["all default UserGame maps"]
  | .coriolis => ["deep-desert"]
  | .pvp => ["deep-desert-pvp"]

/-- The target and the content of a backup that `rollback` takes: its path, resolved, lies under the
root, it has the name of a target, and it is a file. -/
def backupOf (others : FilePath → Option ByteArray) (root backup : FilePath) : Option (Target × ByteArray) :=
  if root <+: backup ∧ root ≠ backup then
    match backup.getLast?.bind targetOf, others backup with
    | some target, some content => some (target, content)
    | _, _ => none
  else none

def recoveryName (target : Target) (stamp : String) : String := target.name ++ ".before-rollback-" ++ stamp

abbrev Presetting (α : Type) : Type := Effectful World Exception α

namespace Numbers

variable (rt : Numbers F)

def checkCycle (target : Target) (content : ByteArray) : Result String := do
  let text ← readText content
  let duration := sectionValues text cyclePlace
  if duration ≠ some ['7'] then
    valueError (target.name ++ " must keep m_CycleDurationInDays=7 for Landsraad; found " ++
      rt.repr (.ofOption (duration.map String.ofList)))
  else .ok target.name

def validateLandsraadCycle (game : Target → ByteArray) : Result (List String) :=
  [Target.userGame, .coriolis].mapM fun target => rt.checkCycle target (game target)

def changeOf (old new : Values) (setting : Setting) : Change where
  setting := setting
  before := old setting.place
  after := new setting.place
  changed := old setting.place ≠ new setting.place

def plan (game : Target → ByteArray) (catalog : ByteArray) (presetId name : String) : Result (Plan F) :=
  match targetOf name with
  | none => valueError "unsupported UserGame target"
  | some target => do
    let text ← readText catalog
    let presets ← rt.loadCatalog (String.ofList text)
    match presets.find? fun preset => preset.id = presetId with
    | none => valueError "gameplay preset not found"
    | some preset =>
      let _ ← rt.validateLandsraadCycle game
      let before ← readText (game target)
      let after := merge before preset.settings
      .ok
        { preset := preset
          target := target
          changes := preset.settings.map (changeOf (sectionValues before) (sectionValues after))
          changed := before ≠ after
          before := before
          after := after
          affectedServices := affectedServices target }

/-- `apply`; the directory of the backup is named by the time, `stamp`. -/
def apply (catalog : ByteArray) (presetId name : String) (backupRoot : FilePath) (stamp : String) :
    Presetting (Applied F) := do
  let game ← Effectful.look World.game
  let plan ← Effectful.lift (rt.plan game catalog presetId name)
  if plan.changed = false then pure ⟨plan, true, none⟩
  else
    let backup := backupRoot ++ ["gameplay-presets", stamp, plan.target.name]
    Effectful.modify fun world => world.save backup (world.game plan.target)
    Effectful.modify fun world => world.put plan.target (writeText plan.after)
    let game ← Effectful.look World.game
    let _ ← Effectful.lift (rt.validateLandsraadCycle game)
    pure ⟨plan, false, some backup⟩

/-- `rollback`; both paths are resolved. -/
def rollback (configRoot root backup : FilePath) (stamp : String) : Presetting RolledBack := do
  let others ← Effectful.look World.others
  match backupOf others root backup with
  | none =>
    Effectful.raise ⟨.valueError, "rollback backup is outside the gameplay preset backup root"⟩
  | some (target, content) =>
    let recovery := configRoot ++ [recoveryName target stamp]
    Effectful.modify fun world => world.save recovery (world.game target)
    Effectful.modify fun world => world.put target ((world.others backup).getD content)
    let game ← Effectful.look World.game
    let _ ← Effectful.lift (rt.validateLandsraadCycle game)
    pure ⟨target, backup, recovery⟩

end Numbers

theorem newlines_plain {text : List Char} (plain : '\r' ∉ text) : newlines text = text := by
  induction text with
  | nil => rfl
  | cons char rest ih =>
    obtain ⟨first, others⟩ := not_or.mp fun within => plain (mem_cons.mpr within)
    have same : newlines (char :: rest) = char :: newlines rest := by
      rw [newlines]
      · exact fun _ carriage => absurd carriage.symm first
      · exact fun carriage => absurd carriage.symm first
    rw [same, ih others]

theorem readText_writeText {text : List Char} (plain : '\r' ∉ text) : readText (writeText text) = .ok text := by
  have decoded : String.fromUTF8? (writeText text) = some (String.ofList text) := by
    have valid : (writeText text).IsValidUTF8 := (String.ofList text).isValidUTF8
    rw [String.fromUTF8?, dif_pos valid]
    rfl
  rw [readText, decoded]
  simp [String.toList_ofList, newlines_plain plain]

theorem joined_char {lines : List Line} {char : Char} (member : char ∈ joined lines) :
    char = '\n' ∨ ∃ line ∈ lines, char ∈ line := by
  induction lines with
  | nil => cases member
  | cons line rest ih =>
    cases rest with
    | nil => exact .inr ⟨line, mem_cons_self, member⟩
    | cons next others =>
      rw [joined_cons (cons_ne_nil _ _)] at member
      rcases mem_append.mp member with own | later
      · exact .inr ⟨line, mem_cons_self, own⟩
      · rcases mem_cons.mp later with rfl | behind
        · exact .inl rfl
        · rcases ih behind with newline | ⟨other, there, within⟩
          · exact .inl newline
          · exact .inr ⟨other, mem_cons_of_mem _ there, within⟩

theorem merge_carriage {settings : List Setting} (plain : ∀ setting ∈ settings, setting.Plain)
    (text : List Char) : '\r' ∉ merge text settings := by
  intro carriage
  rcases mem_append.mp carriage with inner | newline
  · have within := (List.rdropWhile_prefix isSpace _).subset inner
    rcases joined_char within with impossible | ⟨line, there, own⟩
    · exact absurd impossible (by decide)
    · have clean := mergedLines_clean plain (fun _ member => splitlines_clean member) line there '\r' own
      exact absurd clean (by decide)
  · exact absurd (mem_singleton.mp newline) (by decide)

open Function (update_of_ne update_self)

theorem targetOf_name {name : String} {target : Target} (found : targetOf name = some target) : target.name = name := by
  have same := List.find?_some found
  exact of_decide_eq_true same

def Keeps (content : ByteArray) : Prop :=
  ∃ text, readText content = .ok text ∧ sectionValues text cyclePlace = some ['7']

def Rule (game : Target → ByteArray) : Prop := Keeps (game .userGame) ∧ Keeps (game .coriolis)

theorem Rule.keeps {game : Target → ByteArray} (rule : Rule game) {target : Target} (checked : target ≠ .pvp) :
    Keeps (game target) := by
  cases target with
  | userGame => exact rule.1
  | coriolis => exact rule.2
  | pvp => exact absurd rfl checked

theorem Rule.update {game : Target → ByteArray} (rule : Rule game) {target : Target} {content : ByteArray}
    (keeps : target ≠ .pvp → Keeps content) : Rule (Function.update game target content) := by
  have still : ∀ other, other ≠ .pvp → Keeps (Function.update game target content other) := by
    intro other checked
    by_cases own : other = target
    · subst own
      rw [update_self]
      exact keeps checked
    · rw [update_of_ne own]
      exact rule.keeps checked
  exact ⟨still _ (by decide), still _ (by decide)⟩

namespace Numbers

variable (rt : Numbers F)

theorem checkCycle_ok {target : Target} {content : ByteArray} {name : String} :
    rt.checkCycle target content = .ok name ↔ name = target.name ∧ Keeps content := by
  unfold checkCycle
  rw [result_bind]
  constructor
  · rintro ⟨text, read, checked⟩
    dsimp only at checked
    split at checked
    · cases checked
    · next kept =>
      cases checked
      exact ⟨rfl, text, read, not_not.mp kept⟩
  · rintro ⟨rfl, text, read, kept⟩
    refine ⟨text, read, ?_⟩
    dsimp only
    rw [if_neg (not_not.mpr kept)]

theorem validateLandsraadCycle_ok {game : Target → ByteArray} {names : List String} :
    rt.validateLandsraadCycle game = .ok names ↔
      names = ["UserGame.ini", "UserGame.deep-desert-coriolis.ini"] ∧ Rule game := by
  have run : rt.validateLandsraadCycle game = (rt.checkCycle .userGame (game .userGame)).bind fun first =>
      (rt.checkCycle .coriolis (game .coriolis)).bind fun second => .ok [first, second] := by
    unfold validateLandsraadCycle
    rw [mapM_cons, mapM_cons, mapM_nil]
    cases rt.checkCycle .userGame (game .userGame) with
    | error why => rfl
    | ok first =>
      cases rt.checkCycle .coriolis (game .coriolis) <;> rfl
  rw [run]
  constructor
  · intro checked
    obtain ⟨first, one, checked⟩ := result_bind.mp checked
    obtain ⟨second, two, checked⟩ := result_bind.mp checked
    cases checked
    obtain ⟨rfl, keeps⟩ := rt.checkCycle_ok.mp one
    obtain ⟨rfl, also⟩ := rt.checkCycle_ok.mp two
    exact ⟨rfl, keeps, also⟩
  · rintro ⟨rfl, keeps, also⟩
    exact result_bind.mpr ⟨_, rt.checkCycle_ok.mpr ⟨rfl, keeps⟩,
      result_bind.mpr ⟨_, rt.checkCycle_ok.mpr ⟨rfl, also⟩, rfl⟩⟩

end Numbers

theorem keeps_merge {settings : List Setting} (plain : ∀ setting ∈ settings, setting.Plain)
    (apart : ∀ setting ∈ settings, setting.heading ≠ cyclePlace.1) {text : List Char}
    (kept : sectionValues text cyclePlace = some ['7']) : Keeps (writeText (merge text settings)) := by
  refine ⟨_, readText_writeText (merge_carriage plain text), ?_⟩
  have unset : settingAt settings cyclePlace = none := by
    cases found : settingAt settings cyclePlace with
    | none => rfl
    | some setting =>
      obtain ⟨listed, placed⟩ := settingAt_some found
      exact absurd (congrArg Prod.fst placed) (apart setting listed)
  rw [sectionValues_merge plain, override, unset]
  exact kept

theorem sections_apart : ∀ entry ∈ SECTIONS, entry.2.toList ≠ cyclePlace.1 := by
  decide +kernel

namespace Numbers

variable (rt : Numbers F)

theorem plan_ok {game : Target → ByteArray} {catalog : ByteArray} {presetId name : String} {plan : Plan F}
    (planned : rt.plan game catalog presetId name = .ok plan) :
    Rule game ∧ readText (game plan.target) = .ok plan.before ∧
      plan.after = merge plan.before plan.preset.settings ∧ plan.changed = decide (plan.before ≠ plan.after) ∧
      plan.target.name = name ∧ plan.preset.id = presetId ∧
      ∀ setting ∈ plan.preset.settings, setting.Plain ∧ setting.heading ≠ cyclePlace.1 := by
  unfold Numbers.plan at planned
  split at planned
  · cases planned
  next target named =>
  obtain ⟨text, -, planned⟩ := result_bind.mp planned
  obtain ⟨presets, loaded, planned⟩ := result_bind.mp planned
  split at planned
  · cases planned
  next preset found =>
  obtain ⟨names, checked, planned⟩ := result_bind.mp planned
  obtain ⟨before, read, planned⟩ := result_bind.mp planned
  have same := List.find?_some found
  cases planned
  refine ⟨(rt.validateLandsraadCycle_ok.mp checked).2, read, rfl, rfl, targetOf_name named,
    of_decide_eq_true same, fun setting listed => ?_⟩
  obtain ⟨plain, entry, member, heading⟩ :=
    rt.loadCatalog_ok loaded preset (List.mem_of_find?_eq_some found) setting listed
  exact ⟨plain, heading ▸ sections_apart entry member⟩

/-- The rule holds with the merged text in the place of the target's. -/
theorem plan_keeps {game : Target → ByteArray} {catalog : ByteArray} {presetId name : String} {plan : Plan F}
    (planned : rt.plan game catalog presetId name = .ok plan) :
    Rule (Function.update game plan.target (writeText plan.after)) := by
  obtain ⟨rule, read, merged, -, -, -, listed⟩ := rt.plan_ok planned
  refine rule.update fun checked => ?_
  obtain ⟨text, same, kept⟩ := rule.keeps checked
  rw [read] at same
  cases same
  rw [merged]
  exact keeps_merge (fun setting member => (listed setting member).1)
    (fun setting member => (listed setting member).2) kept

def applied (plan : Plan F) (backupRoot : FilePath) (stamp : String) (world : World) : World :=
  (world.save (backupRoot ++ ["gameplay-presets", stamp, plan.target.name]) (world.game plan.target)).put
    plan.target (writeText plan.after)

/-- `apply` raises what `plan` raises and does nothing, or carries the plan out. -/
theorem apply_run (catalog : ByteArray) (presetId name : String) (backupRoot : FilePath) (stamp : String)
    (world : World) :
    rt.apply catalog presetId name backupRoot stamp world =
      match rt.plan world.game catalog presetId name with
      | .error why => (.error why, world)
      | .ok plan =>
        if plan.changed = false then (.ok ⟨plan, true, none⟩, world)
        else (.ok ⟨plan, false, some (backupRoot ++ ["gameplay-presets", stamp, plan.target.name])⟩,
          applied plan backupRoot stamp world) := by
  unfold apply
  rw [Effectful.bind_ok (Effectful.look_run _ _)]
  cases planned : rt.plan world.game catalog presetId name with
  | error why => exact Effectful.bind_error (Effectful.lift_run _ _)
  | ok plan =>
    rw [Effectful.bind_ok (Effectful.lift_run _ _)]
    dsimp only
    by_cases same : plan.changed = false
    · rw [if_pos same, if_pos same]
      rfl
    · rw [if_neg same, if_neg same]
      rw [Effectful.bind_ok (Effectful.modify_run _ _), Effectful.bind_ok (Effectful.modify_run _ _),
        Effectful.bind_ok (Effectful.look_run _ _)]
      have valid := rt.validateLandsraadCycle_ok.mpr ⟨rfl, rt.plan_keeps planned⟩
      have checked : (Effectful.lift (rt.validateLandsraadCycle
          (applied plan backupRoot stamp world).game) : Presetting (List String))
            (applied plan backupRoot stamp world) =
          (.ok ["UserGame.ini", "UserGame.deep-desert-coriolis.ini"], applied plan backupRoot stamp world) := by
        rw [Effectful.lift_run]
        exact congrArg (fun outcome => (outcome, _)) valid
      exact Effectful.bind_ok checked

/-- A call of `apply`. -/
structure Call where
  catalog : ByteArray
  (presetId target : String)
  backupRoot : FilePath
  stamp : String

def applyAll (calls : List Call) (world : World) : World :=
  calls.foldl (fun world call =>
    (rt.apply call.catalog call.presetId call.target call.backupRoot call.stamp world).2) world

theorem apply_keeps (call : Call) {world : World} (rule : Rule world.game) :
    Rule (rt.apply call.catalog call.presetId call.target call.backupRoot call.stamp world).2.game := by
  rw [rt.apply_run]
  cases planned : rt.plan world.game call.catalog call.presetId call.target with
  | error why => exact rule
  | ok plan =>
    dsimp only
    split
    · exact rule
    · exact rt.plan_keeps planned

theorem applyAll_keeps (calls : List Call) {world : World} (rule : Rule world.game) :
    Rule (rt.applyAll calls world).game := by
  induction calls generalizing world with
  | nil => exact rule
  | cons call rest ih => exact ih (rt.apply_keeps call rule)

end Numbers

def rolledBack (configRoot : FilePath) (stamp : String) (target : Target) (content : ByteArray) (world : World) :
    World :=
  (world.save (configRoot ++ [recoveryName target stamp]) (world.game target)).put target content

theorem backupOf_some {others : FilePath → Option ByteArray} {root backup : FilePath} {target : Target}
    {content : ByteArray} (found : backupOf others root backup = some (target, content)) :
    others backup = some content ∧ backup.getLast? = some target.name := by
  unfold backupOf at found
  split at found
  · split at found
    · next named held =>
      cases found
      obtain ⟨name, last, same⟩ := Option.bind_eq_some_iff.mp named
      exact ⟨held, by rw [last, targetOf_name same]⟩
    · cases found
  · cases found

theorem recovery_apart {backup : FilePath} {target : Target} (named : backup.getLast? = some target.name)
    (configRoot : FilePath) (stamp : String) : backup ≠ configRoot ++ [recoveryName target stamp] := by
  rintro rfl
  rw [List.getLast?_append, List.getLast?_singleton, Option.some_or, Option.some_inj] at named
  have sizes := congrArg (fun name : String => name.toList.length) named
  simp [recoveryName] at sizes

namespace Numbers

variable (rt : Numbers F)

/-- `rollback` refuses the backup, or puts it in place and then raises what the check raises. -/
theorem rollback_run (configRoot root backup : FilePath) (stamp : String) (world : World) :
    rt.rollback configRoot root backup stamp world =
      match backupOf world.others root backup with
      | none => (.error ⟨.valueError, "rollback backup is outside the gameplay preset backup root"⟩, world)
      | some (target, content) =>
        ((rt.validateLandsraadCycle (rolledBack configRoot stamp target content world).game).map fun _ =>
          ⟨target, backup, configRoot ++ [recoveryName target stamp]⟩,
          rolledBack configRoot stamp target content world) := by
  unfold rollback
  rw [Effectful.bind_ok (Effectful.look_run _ _)]
  cases found : backupOf world.others root backup with
  | none => rfl
  | some pair =>
    obtain ⟨target, content⟩ := pair
    obtain ⟨held, named⟩ := backupOf_some found
    have apart := recovery_apart named configRoot stamp
    dsimp only
    have read : ((world.save (configRoot ++ [recoveryName target stamp]) (world.game target)).others
        backup).getD content = content := by
      rw [World.save]
      dsimp only
      rw [update_of_ne apart, held, Option.getD_some]
    have put : World.put (world.save (configRoot ++ [recoveryName target stamp]) (world.game target)) target
        (((world.save (configRoot ++ [recoveryName target stamp]) (world.game target)).others backup).getD
          content) = rolledBack configRoot stamp target content world := by
      rw [read]
      rfl
    rw [Effectful.bind_ok (Effectful.modify_run _ _), Effectful.bind_ok (Effectful.modify_run _ _), put,
      Effectful.bind_ok (Effectful.look_run _ _)]
    cases checked : rt.validateLandsraadCycle (rolledBack configRoot stamp target content world).game with
    | error why => exact Effectful.bind_error (Effectful.lift_run _ _)
    | ok names => exact Effectful.bind_ok (Effectful.lift_run _ _)

end Numbers

/-- A call that raised left the files of the game as they were, and one that returned left them as its
answer says. -/
def AllOrNothing {α : Type} (before : Target → ByteArray) (outcome : Except Exception α × World)
    (wanted : α → (Target → ByteArray) → Prop) : Prop :=
  match outcome.1 with
  | .error _ => outcome.2.game = before
  | .ok answer => wanted answer outcome.2.game

/-- The target holds the merged text, and the other files are as they were. -/
def Merged (before : Target → ByteArray) (presetId name : String) (answer : Applied F)
    (game : Target → ByteArray) : Prop :=
  answer.plan.target.name = name ∧ answer.plan.preset.id = presetId ∧
    (∃ text, readText (before answer.plan.target) = .ok text ∧
      readText (game answer.plan.target) = .ok (merge text answer.plan.preset.settings)) ∧
    ∀ other, other ≠ answer.plan.target → game other = before other

/-- The target holds the content of the backup, and the other files are as they were. -/
def Restored (world : World) (backup : FilePath) (answer : RolledBack) (game : Target → ByteArray) : Prop :=
  ∃ content, world.others backup = some content ∧ backup.getLast? = some answer.target.name ∧
    game = Function.update world.game answer.target content

namespace Numbers

variable (rt : Numbers F)

theorem apply_allOrNothing (catalog : ByteArray) (presetId name : String) (backupRoot : FilePath)
    (stamp : String) (world : World) :
    AllOrNothing world.game (rt.apply catalog presetId name backupRoot stamp world)
      (Merged world.game presetId name) := by
  rw [rt.apply_run]
  cases planned : rt.plan world.game catalog presetId name with
  | error why => exact rfl
  | ok plan =>
    obtain ⟨-, read, merged, same, named, chosen, listed⟩ := rt.plan_ok planned
    have plain := fun setting member => (listed setting member).1
    dsimp only
    split
    · next unchanged =>
      refine ⟨named, chosen, ⟨plan.before, read, ?_⟩, fun _ _ => rfl⟩
      rw [same, decide_eq_false_iff_not, not_not] at unchanged
      exact read.trans (congrArg Except.ok (unchanged.trans merged))
    · refine ⟨named, chosen, ⟨plan.before, read, ?_⟩, fun other apart => ?_⟩
      · change readText (Function.update world.game plan.target (writeText plan.after) plan.target) = _
        rw [update_self, merged]
        exact readText_writeText (merge_carriage plain _)
      · exact update_of_ne apart _ _

/-- A rollback is all or nothing unless it takes a backup that breaks the rule and is not what the
target holds. -/
theorem rollback_allOrNothing (configRoot root backup : FilePath) (stamp : String) (world : World) :
    AllOrNothing world.game (rt.rollback configRoot root backup stamp world) (Restored world backup) ↔
      ∀ target content, backupOf world.others root backup = some (target, content) →
        Rule (Function.update world.game target content) ∨ content = world.game target := by
  rw [rt.rollback_run]
  cases found : backupOf world.others root backup with
  | none => exact ⟨(fun _ _ _ impossible => nomatch impossible), fun _ => rfl⟩
  | some pair =>
    obtain ⟨target, content⟩ := pair
    obtain ⟨held, named⟩ := backupOf_some found
    dsimp only
    have placed : (rolledBack configRoot stamp target content world).game =
        Function.update world.game target content := rfl
    cases checked : rt.validateLandsraadCycle (rolledBack configRoot stamp target content world).game with
    | error why =>
      have broken : ¬ Rule (Function.update world.game target content) := by
        intro rule
        rw [placed, rt.validateLandsraadCycle_ok.mpr ⟨rfl, rule⟩] at checked
        cases checked
      constructor
      · intro unchanged other written same
        cases same
        refine .inr ?_
        have at_ := congrFun (placed.symm.trans unchanged) target
        rwa [update_self] at at_
      · intro safe
        have same := (safe target content rfl).resolve_left broken
        change Function.update world.game target content = world.game
        rw [same, Function.update_eq_self]
    | ok names =>
      have rule := (rt.validateLandsraadCycle_ok.mp checked).2
      constructor
      · intro _ other written same
        cases same
        exact .inl rule
      · exact fun _ => ⟨content, held, named, rfl⟩

end Numbers

namespace Numbers

variable (rt : Numbers F)

theorem applyAll_others {calls : List Call} {stamp : String} (apart : ∀ call ∈ calls, call.stamp ≠ stamp)
    (root : FilePath) (name : String) (world : World) :
    (rt.applyAll calls world).others (root ++ ["gameplay-presets", stamp, name]) =
      world.others (root ++ ["gameplay-presets", stamp, name]) := by
  induction calls generalizing world with
  | nil => rfl
  | cons call rest ih =>
    obtain ⟨own, others⟩ := forall_mem_cons.mp apart
    refine (ih others _).trans ?_
    dsimp only
    rw [rt.apply_run]
    cases rt.plan world.game call.catalog call.presetId call.target with
    | error why => rfl
    | ok plan =>
      dsimp only
      split
      · rfl
      · refine update_of_ne (fun same => own ?_) _ _
        have ends := List.append_inj_right' same rfl
        simp only [List.cons.injEq] at ends
        exact ends.2.1.symm

/-- However many presets follow one that made a backup, the backup can be rolled back, unless one of them
has its stamp: the target is as it was before that one, the other files are as the last one left them. -/
theorem rollback_restores (catalog : ByteArray) (presetId name : String) (backupRoot : FilePath) (stamp : String)
    (world : World) (calls : List Call) (configRoot : FilePath) (later : String) :
    match rt.apply catalog presetId name backupRoot stamp world with
    | (.ok ⟨plan, _, some backup⟩, applied) =>
      let now := rt.applyAll calls applied
      (∃ call ∈ calls, call.stamp = stamp) ∨ ∃ undone recovery,
        rt.rollback configRoot (backupRoot ++ ["gameplay-presets"]) backup later now =
            (.ok ⟨plan.target, backup, recovery⟩, undone) ∧
          undone.game = Function.update now.game plan.target (world.game plan.target) ∧
          undone.others recovery = some (now.game plan.target)
    | _ => True := by
  rw [rt.apply_run]
  cases planned : rt.plan world.game catalog presetId name with
  | error why => trivial
  | ok plan =>
    dsimp only
    by_cases same : plan.changed = false
    · rw [if_pos same]
      trivial
    rw [if_neg same]
    refine or_iff_not_imp_left.mpr fun fresh => ?_
    have apart : ∀ call ∈ calls, call.stamp ≠ stamp := fun call member equal => fresh ⟨call, member, equal⟩
    have held := (rt.applyAll_others apart backupRoot plan.target.name (applied plan backupRoot stamp world)).trans
      (update_self ..)
    have ruled : Rule (rt.applyAll calls (applied plan backupRoot stamp world)).game :=
      rt.applyAll_keeps calls (rt.plan_keeps planned)
    generalize rt.applyAll calls (applied plan backupRoot stamp world) = now at held ruled
    have found : backupOf now.others (backupRoot ++ ["gameplay-presets"])
        (backupRoot ++ ["gameplay-presets", stamp, plan.target.name]) = some (plan.target, world.game plan.target) := by
      have named : targetOf plan.target.name = some plan.target := by cases plan.target <;> rfl
      rw [backupOf, if_pos (by simp), held]
      simp [named]
    -- the check finds the old text in its place, on which the plan was made
    have rule : Rule (Function.update now.game plan.target (world.game plan.target)) :=
      ruled.update (rt.plan_ok planned).1.keeps
    rw [rt.rollback_run, found]
    refine ⟨_, _, Prod.ext ?_ rfl, rfl, update_self ..⟩
    exact congrArg (Except.map _) (rt.validateLandsraadCycle_ok.mpr ⟨rfl, rule⟩)

end Numbers

/-- A merge overrides the values, keeps every other line in its place but for the space at the end, and
does nothing the second time; no run of presets breaks the rule. -/
theorem merge_overlays : (∀ settings : List Setting, (∀ setting ∈ settings, setting.Plain) → ∀ text : List Char,
      sectionValues (merge text settings) = override (sectionValues text) settings ∧
      (∃ rendered, (kept settings none (splitlines text)).Sublist rendered ∧
        splitlines (merge text settings) = endLines rendered) ∧
      merge (merge text settings) settings = merge text settings) ∧
    ∀ {F : Type} (rt : Numbers F) (calls : List Numbers.Call) (world : World), Rule world.game →
      Rule (rt.applyAll calls world).game :=
  ⟨fun settings plain text => ⟨sectionValues_merge plain text,
    ⟨mergedLines settings (splitlines text), kept_merged _, splitlines_merge plain text⟩,
    merge_merge plain text⟩, fun rt calls _ rule => rt.applyAll_keeps calls rule⟩

def shortDay : Setting := ⟨['S'], ['k'], ['1']⟩

def plainNumbers : Numbers FloatText where
  toRuntime := plainRuntime
  floatOfText _ := none
  below _ _ := false
  above _ _ := false

def ruledText : List Char := "[/Script/DuneSandbox.CoriolisSubsystem]\nm_CycleDurationInDays=7\n".toList

def ruledWorld (others : FilePath → Option ByteArray) : World := ⟨fun _ => writeText ruledText, others⟩

theorem keeps_ruled : Keeps (writeText ruledText) :=
  ⟨_, readText_writeText (by decide +kernel), by decide +kernel⟩

theorem merge_overlays_run :
    merge (merge "[S]\nk=0\n;c\n".toList [shortDay]) [shortDay] = merge "[S]\nk=0\n;c\n".toList [shortDay] ∧
      Rule (plainNumbers.applyAll [⟨.empty, "hydration-off", "UserGame.ini", [], "now"⟩]
        (ruledWorld fun _ => none)).game :=
  ⟨(merge_overlays.1 [shortDay] (forall_mem_singleton.mpr {
      named := cons_ne_nil _ _
      heading := forall_mem_singleton.mpr (by decide)
      keyLine := forall_mem_singleton.mpr (by decide)
      keyStart := by
        rintro char ⟨⟩
        decide
      keyStripped := by decide
      valueLine := forall_mem_singleton.mpr (by decide)
      valueStripped := by decide }) _).2.2,
    merge_overlays.2 plainNumbers _ _ ⟨keeps_ruled, keeps_ruled⟩⟩

/-- The space behind the last line goes, and a key with `=` in it is read back as a shorter one. -/
theorem merge_drops_space : ¬ (kept [shortDay] none (splitlines "[S]\nk=1\n;end \n".toList)).Sublist
        (splitlines (merge "[S]\nk=1\n;end \n".toList [shortDay])) ∧
      sectionValues (merge [] [⟨['S'], "a=b".toList, ['1']⟩]) (['S'], "a=b".toList) ≠
        override (sectionValues []) [⟨['S'], "a=b".toList, ['1']⟩] (['S'], "a=b".toList) := by
  decide +kernel

/-- Every `apply` is all or nothing; a rollback is, unless the backup it takes breaks the rule. -/
theorem presets_allOrNothing {F : Type} (rt : Numbers F) (world : World) :
    (∀ (catalog : ByteArray) (presetId name : String) (backupRoot : FilePath) (stamp : String),
      AllOrNothing world.game (rt.apply catalog presetId name backupRoot stamp world)
        (Merged world.game presetId name)) ∧
    ∀ (configRoot root backup : FilePath) (stamp : String),
      AllOrNothing world.game (rt.rollback configRoot root backup stamp world) (Restored world backup) ↔
        ∀ target content, backupOf world.others root backup = some (target, content) →
          Rule (Function.update world.game target content) ∨ content = world.game target :=
  ⟨fun catalog presetId name backupRoot stamp =>
    rt.apply_allOrNothing catalog presetId name backupRoot stamp world,
    fun configRoot root backup stamp => rt.rollback_allOrNothing configRoot root backup stamp world⟩

def brokenBackup : FilePath := ["backups", "gameplay-presets", "20260101T000000Z", "UserGame.ini"]

def brokenWorld : World :=
  ruledWorld fun path => if path = brokenBackup then some (writeText []) else none

/-- The empty backup is put in place, and the check that then fails does not take it back. -/
theorem rollback_leaves_broken : Rule brokenWorld.game ∧ ¬ AllOrNothing brokenWorld.game
        (plainNumbers.rollback ["config"] ["backups", "gameplay-presets"] brokenBackup "20260102T000000Z"
          brokenWorld) (Restored brokenWorld brokenBackup) := by
  have empty : readText (writeText []) = .ok [] := readText_writeText not_mem_nil
  have ruled : readText (writeText ruledText) = .ok ruledText := readText_writeText (by decide +kernel)
  refine ⟨⟨keeps_ruled, keeps_ruled⟩, fun whole => ?_⟩
  have found : backupOf brokenWorld.others ["backups", "gameplay-presets"] brokenBackup =
      some (.userGame, writeText []) := rfl
  rcases (plainNumbers.rollback_allOrNothing _ _ _ _ _).mp whole .userGame (writeText []) found with rule | same
  · obtain ⟨text, read, kept⟩ := rule.1
    rw [update_self, empty] at read
    cases read
    exact absurd kept (by decide +kernel)
  · rw [same] at empty
    have texts := empty.symm.trans ruled
    exact absurd texts (by decide +kernel)

end Dash.Presets
