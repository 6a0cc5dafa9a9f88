import Dash.Community.Growth

/-! Track progress over runs: what an account is owed for a reference, and when the
marker of the reference lets it have that.
-/

set_option autoImplicit false

namespace Dash.Community

open Dash.Python Dash.Foundation
open Foundation.Transaction (bind_ok commit_error commit_ok lift_bind)

variable {F : Type}

/-- The XP of an account on one version of a track, under a reference. -/
structure Progress where
  account : Int
  track : String
  version : Int
  reference : String
  deriving DecidableEq

def Progress.marker (progress : Progress) : String :=
  "track-progress:" ++ progress.track ++ ":" ++ toString progress.version ++ ":" ++ progress.reference

theorem Progress.marker_parts (progress : Progress) : progress.marker =
    "track-progress:" ++ (progress.track ++ (":" ++ (toString progress.version ++ (":" ++ progress.reference)))) := by
  unfold Progress.marker
  simp [String.append_assoc]

theorem Progress.marker_starts (progress : Progress) : startsWith "track-progress:" progress.marker = true := by
  rw [Progress.marker_parts]
  exact startsWith_append _ _

example : Progress.marker ⟨1, "s:1", 1, "r"⟩ = Progress.marker ⟨1, "s", 1, "1:r"⟩ := by decide

def Progress.holder (progress : Progress) : Int × String × Int :=
  (progress.account, progress.track, progress.version)

def TrackProgress.holder (row : TrackProgress) : Int × String × Int :=
  (row.duneAccountId, row.trackId, row.trackVersion)

def Db.xpOf (db : Db F) (holder : Int × String × Int) : Int :=
  ((db.trackProgress.find? fun row => row.holder = holder).map TrackProgress.xp).getD 0

def Db.marked (db : Db F) (marker : String) : Bool :=
  db.metadata.any fun entry => entry.1 = marker

def Db.progressed (db : Db F) (progress : Progress) (track : Track) (amount : Int) (opened now : String) : Db F :=
  let db := db.openAccount progress.account opened
  if db.marked progress.marker then db
  else (db.addProgress progress.account track amount now).appendMetadata progress.marker now

namespace Platform

variable (rt : Platform F)

/-- What a call of `add_track_progress` asks for, with the amount. -/
def asked (db : Db F) (duneAccountId trackId amount reference : Value F) : Result (Progress × Int) := do
  let account ← rt.accountId duneAccountId
  let amount ← rt.positiveInt amount "amount" MAX_LEDGER_AMOUNT
  match db.enabledTrack? (rt.str trackId) with
  | none => valueError ("reward track " ++ rt.repr trackId ++ " is unavailable")
  | some track => do
    let reference ← rt.identifier reference "reference" 128
    .ok (⟨account, track.id, track.version, reference⟩, amount)

def progressOf (db : Db F) : Operation F → Option Progress
  | .addTrackProgress account track amount reference =>
    ((rt.asked db account track amount reference).toOption).map Prod.fst
  | _ => none

def rewardMarkers (db : Db F) (call : Call F) : List String :=
  match call.operation with
  | .observeEngagement .. =>
    ((rt.apply db call).metadata.drop db.metadata.length).map Prod.fst
  | _ => []

def progresses : Db F → List (Call F) → List Progress
  | _, [] => []
  | db, call :: rest =>
    (rt.progressOf db call.operation).toList ++ progresses (rt.apply db call) rest

def rewarded : Db F → List (Call F) → List String
  | _, [] => []
  | db, call :: rest => rt.rewardMarkers db call ++ rewarded (rt.apply db call) rest

def Used (db : Db F) (calls : List (Call F)) (marker : String) : Prop :=
  (∃ progress ∈ rt.progresses db calls, progress.marker = marker) ∨ marker ∈ rt.rewarded db calls

end Platform

theorem xpOf_addProgress (db : Db F) (account : Int) (track : Track) (amount : Int) (now : String)
    (holder : Int × String × Int) :
    (db.addProgress account track amount now).xpOf holder =
      db.xpOf holder + if holder = (account, track.id, track.version) then amount else 0 := by
  have looked : db.progress? account track = db.trackProgress.find? fun row =>
      row.holder = (account, track.id, track.version) := by
    simp only [Db.progress?, TrackProgress.holder, Prod.mk.injEq]
    congr 1
    funext row
    simp [Bool.and_assoc]
  cases found : db.progress? account track with
  | none =>
    have missing := looked.symm.trans found
    have appended : (db.addProgress account track amount now).trackProgress =
        db.trackProgress ++ [⟨account, track.id, track.version, amount, now⟩] := by
      simp [Db.addProgress, found]
    have looks := @Table.find_append _ _ TrackProgress.holder db.trackProgress
      ⟨account, track.id, track.version, amount, now⟩ _ missing holder
    rw [Db.xpOf, appended, looks]
    by_cases same : holder = (account, track.id, track.version)
    · rw [if_pos (by exact same), if_pos same, Db.xpOf, same, missing]
      exact (zero_add amount).symm
    · rw [if_neg (by exact same), if_neg same, add_zero]
      rfl
  | some row =>
    have present := looked.symm.trans found
    have changed : (db.addProgress account track amount now).trackProgress =
        update TrackProgress.holder (account, track.id, track.version)
          (fun row => { row with xp := row.xp + amount, updatedAt := now }) db.trackProgress := by
      simp [Db.addProgress, found, update, TrackProgress.holder]
    rw [Db.xpOf, changed, Table.find_update (by exact fun _ same => same)]
    by_cases same : holder = (account, track.id, track.version)
    · subst same
      rw [if_pos rfl, if_pos rfl, Db.xpOf, present]
      rfl
    · rw [if_neg same, if_neg same, add_zero]
      rfl

theorem marked_iff {db : Db F} {marker : String} : db.marked marker = true ↔ marker ∈ db.metadata.map Prod.fst := by
  simp [Db.marked]

namespace Platform

variable {rt : Platform F}

theorem asked_ok {db : Db F} {account track amount reference : Value F} {progress : Progress}
    {gain : Int} (asked : rt.asked db account track amount reference = .ok (progress, gain)) :
    ∃ row, rt.accountId account = .ok progress.account ∧ rt.positiveInt amount "amount" MAX_LEDGER_AMOUNT = .ok gain ∧
      db.enabledTrack? (rt.str track) = some row ∧ progress.track = row.id ∧
      progress.version = row.version ∧
      rt.identifier reference "reference" 128 = .ok progress.reference := by
  obtain ⟨account, parsed, asked⟩ := result_bind.mp asked
  obtain ⟨amount, positive, asked⟩ := result_bind.mp asked
  cases found : db.enabledTrack? (rt.str track) with
  | none =>
    simp only [found] at asked
    cases asked
  | some row =>
    simp only [found] at asked
    obtain ⟨text, named, same⟩ := result_bind.mp asked
    cases Except.ok.inj same
    exact ⟨row, parsed, positive, rfl, rfl, rfl, named⟩

section Progressing

variable {session : Session F} {account gain : Int} {track amount reference : Value F} {row : Track}
  {text : String} (positive : rt.positiveInt amount "amount" MAX_LEDGER_AMOUNT = .ok gain)
  (found : session.db.enabledTrack? (rt.str track) = some row)
  (named : rt.identifier reference "reference" 128 = .ok text)

include positive found named

theorem addTrackXp_marked (marked : session.db.marked (Progress.marker ⟨account, row.id, row.version, text⟩) = true) :
    rt.addTrackXp account track amount reference session = .ok (.object [("ok", .bool true),
      ("xp", .int (session.db.trackXp account row)), ("idempotent", .bool true)], session) := by
  refine lift_bind.mpr ⟨gain, positive, ?_⟩
  rw [Action.select_bind, found]
  refine lift_bind.mpr ⟨text, named, ?_⟩
  rw [Action.select_bind]
  split
  next => rfl
  next unmarked => exact absurd marked unmarked

theorem addTrackXp_fresh (fresh : session.db.marked (Progress.marker ⟨account, row.id, row.version, text⟩) = false) :
    rt.addTrackXp account track amount reference session = .ok (.object [("ok", .bool true),
      ("trackId", .str row.id), ("version", .int row.version),
      ("xp", .int ((session.db.addProgress account row gain (session.supply.now 0)).trackXp
        account row)), ("idempotent", .bool false)],
      ⟨(session.db.addProgress account row gain (session.supply.now 0)).appendMetadata
        (Progress.marker ⟨account, row.id, row.version, text⟩) (session.supply.now 0),
        { session.supply with now := fun index => session.supply.now (index + 1) }⟩) := by
  refine lift_bind.mpr ⟨gain, positive, ?_⟩
  rw [Action.select_bind, found]
  refine lift_bind.mpr ⟨text, named, ?_⟩
  rw [Action.select_bind]
  split
  next marked => exact absurd marked (Bool.eq_false_iff.mp fresh)
  next => rfl

end Progressing

/-- An accepted progress returns, and this is what it leaves. -/
theorem addTrackProgress_ok {session : Session F} {duneAccountId track amount reference : Value F}
    {progress : Progress} {gain : Int}
    (asked : rt.asked session.db duneAccountId track amount reference = .ok (progress, gain)) :
    ∃ row value after, row.id = progress.track ∧ row.version = progress.version ∧
      rt.addTrackProgress duneAccountId track amount reference session = .ok (value, after) ∧
      after.db = session.db.progressed progress row gain (session.supply.now 0) (session.supply.now 1) := by
  obtain ⟨row, parsed, positive, found, id, version, named⟩ := asked_ok asked
  obtain ⟨account, track, version, text⟩ := progress
  cases id
  cases version
  let opened : Session F := ⟨session.db.openAccount account (session.supply.now 0),
    { session.supply with now := fun index => session.supply.now (index + 1) }⟩
  have ensured : rt.ensureAccount duneAccountId session = .ok (account, opened) :=
    lift_bind.mpr ⟨account, parsed, rfl⟩
  cases marked : opened.db.marked (Progress.marker ⟨account, row.id, row.version, text⟩) with
  | true =>
    have returned := addTrackXp_marked positive (by exact found) named marked
    refine ⟨row, _, opened, rfl, rfl, bind_ok.mpr ⟨_, _, ensured, returned⟩, ?_⟩
    exact (if_pos marked).symm
  | false =>
    have returned := addTrackXp_fresh positive (by exact found) named marked
    refine ⟨row, _, _, rfl, rfl, bind_ok.mpr ⟨_, _, ensured, returned⟩, ?_⟩
    exact (if_neg (Bool.eq_false_iff.mp marked)).symm

theorem addTrackProgress_asked {session after : Session F} {duneAccountId track amount reference value : Value F}
    (success : rt.addTrackProgress duneAccountId track amount reference session = .ok (value, after)) :
    ∃ asked, rt.asked session.db duneAccountId track amount reference = .ok asked := by
  obtain ⟨account, middle, ensured, rest⟩ := bind_ok.mp success
  obtain ⟨parsed, now, opened⟩ := rt.ensureAccount_ok ensured
  obtain ⟨gain, positive, rest⟩ := lift_bind.mp rest
  have same : middle.db.enabledTrack? (rt.str track) = session.db.enabledTrack? (rt.str track) := by
    rw [opened]
    rfl
  rw [Action.select_bind, same] at rest
  cases found : session.db.enabledTrack? (rt.str track) with
  | none =>
    rw [found] at rest
    exact (Action.valueError_ok.mp rest).elim
  | some row =>
    rw [found] at rest
    obtain ⟨text, named, -⟩ := lift_bind.mp rest
    refine ⟨(⟨account, row.id, row.version, text⟩, gain), ?_⟩
    simp only [asked, parsed, positive, found, named]
    rfl

section Runs

variable (rt)

variable {account track amount reference : Value F} {db : Db F}

theorem apply_progress {progress : Progress}
    {gain : Int} (asked : rt.asked db account track amount reference = .ok (progress, gain))
    (supply : Supply) :
    ∃ row : Track, row.id = progress.track ∧ row.version = progress.version ∧
      rt.apply db ⟨.addTrackProgress account track amount reference, supply⟩ =
        db.progressed progress row gain (supply.now 0) (supply.now 1) := by
  have accepted : rt.asked (Session.mk db supply).db account track amount reference = _ := asked
  obtain ⟨row, value, after, id, version, success, left⟩ := addTrackProgress_ok accepted
  refine ⟨row, id, version, Eq.trans ?_ left⟩
  have returned : rt.perform (.addTrackProgress account track amount reference) ⟨db, supply⟩ = .ok ((), after) :=
    bind_ok.mpr ⟨value, after, success, rfl⟩
  exact congrArg Session.db (commit_ok returned)

theorem apply_unasked {supply : Supply}
    (refused : rt.progressOf db (.addTrackProgress account track amount reference) = none) :
    rt.apply db ⟨.addTrackProgress account track amount reference, supply⟩ = db := by
  unfold apply
  cases outcome : rt.perform (.addTrackProgress account track amount reference) ⟨db, supply⟩ with
  | error why => rw [commit_error outcome]
  | ok pair =>
    obtain ⟨value, after, success, -⟩ := bind_ok.mp outcome
    obtain ⟨progress, asked⟩ := addTrackProgress_asked success
    rw [progressOf, asked] at refused
    cases refused

theorem progressed_marked (db : Db F) (progress : Progress) (track : Track) (amount : Int)
    (opened now marker : String) :
    (db.progressed progress track amount opened now).marked marker = true ↔
      db.marked marker = true ∨ progress.marker = marker := by
  have same : (db.openAccount progress.account opened).marked = db.marked := rfl
  unfold Db.progressed
  cases marked : db.marked progress.marker with
  | true =>
    simp only [same, marked, if_true]
    constructor
    · exact .inl
    · rintro (before | rfl)
      · exact before
      · exact marked
  | false =>
    simp only [same, marked, Bool.false_eq_true, if_false]
    simp [Db.marked, Db.appendMetadata, Db.addProgress, Db.openAccount]

/-- A call marks what its progress or its rewards stand for. -/
theorem apply_marked (db : Db F) (call : Call F) (marker : String) :
    (rt.apply db call).marked marker = true ↔ db.marked marker = true ∨
      (∃ progress ∈ rt.progressOf db call.operation, progress.marker = marker) ∨ marker ∈ rt.rewardMarkers db call := by
  have grows := rt.apply_grows db call
  obtain ⟨operation, supply⟩ := call
  cases operation with
  | addTrackProgress account track amount reference =>
    cases accepted : rt.asked db account track amount reference with
    | error why =>
      have refused : rt.progressOf db (.addTrackProgress account track amount reference) = none := by
        rw [progressOf, accepted]
        rfl
      rw [rt.apply_unasked refused, refused]
      simp [rewardMarkers]
    | ok asked =>
      obtain ⟨progress, gain⟩ := asked
      obtain ⟨row, -, -, left⟩ := rt.apply_progress accepted supply
      rw [left, progressed_marked, progressOf, accepted]
      simp [rewardMarkers, Except.toOption]
  | observeEngagement =>
    obtain ⟨added, same⟩ := grows.metadata
    simp [marked_iff, rewardMarkers, progressOf, ← same]
  | _ =>
    have quiet : (rt.apply db _).metadata = db.metadata := grows.quiet rfl
    simp [marked_iff, rewardMarkers, progressOf, quiet]

theorem run_marked (db : Db F) (calls : List (Call F)) (marker : String) :
    (rt.run db calls).marked marker = true ↔ db.marked marker = true ∨ rt.Used db calls marker := by
  induction calls generalizing db with
  | nil => simp [run, Used, progresses, rewarded]
  | cons call rest ih =>
    rw [run, List.foldl_cons]
    refine (ih (rt.apply db call)).trans ?_
    rw [apply_marked]
    simp only [Used, progresses, rewarded, List.mem_append, Option.mem_toList, Option.mem_def, or_and_right, exists_or]
    rw [or_assoc, or_or_or_comm]

theorem progressed_known (db : Db F) (progress : Progress) (track : Track) (amount : Int) (opened now : String) :
    progress.account ∈ (db.progressed progress track amount opened now).accounts.map Account.duneAccountId ∧
      progress.account ∈ (db.progressed progress track amount opened now).wallets.map
        Wallet.duneAccountId := by
  unfold Db.progressed
  simp only
  split
  next => exact ⟨open_accounts.mpr (.inr rfl), open_wallets.mpr (.inr rfl)⟩
  next => exact ⟨open_accounts.mpr (.inr rfl), open_wallets.mpr (.inr rfl)⟩

theorem progress_known {calls : List (Call F)} {progress : Progress} (member : progress ∈ rt.progresses db calls) :
    progress.account ∈ (rt.run db calls).accounts.map Account.duneAccountId ∧
      progress.account ∈ (rt.run db calls).wallets.map Wallet.duneAccountId := by
  induction calls generalizing db with
  | nil => cases member
  | cons call rest ih =>
    rcases List.mem_append.mp member with now | later
    · have grows := rt.run_grows (rt.apply db call) rest
      obtain ⟨operation, supply⟩ := call
      cases operation with
      | addTrackProgress account track amount reference =>
        cases accepted : rt.asked db account track amount reference with
        | error why => simp [progressOf, accepted, Except.toOption] at now
        | ok asked =>
          obtain ⟨other, gain⟩ := asked
          have same : progress = other := by
            simpa [progressOf, accepted, Except.toOption] using now
          subst same
          obtain ⟨row, -, -, left⟩ := rt.apply_progress accepted supply
          have known := progressed_known db progress row gain (supply.now 0) (supply.now 1)
          rw [← left] at known
          exact ⟨grows.accounts known.1, grows.wallets known.2⟩
      | _ => cases now
    · exact ih later

end Runs

end Platform

def own (past : List Progress) (progress : Progress) : List Progress :=
  past.filter fun other => other.account = progress.account ∧ other.track = progress.track

theorem mem_own {past : List Progress} {progress : Progress} : progress ∈ own past progress ↔ progress ∈ past := by
  simp [own]

/-- The first progress under a reference adds its amount, a repeated one changes nothing,
and nobody else gains or loses. -/
structure Honored (earlier : List Progress) (progress : Progress) (gain : Int)
    (db after : Db F) : Prop where
  first : progress ∉ earlier → after.xpOf progress.holder = db.xpOf progress.holder + gain
  again : progress ∈ earlier → after = db
  apart : ∀ holder, holder ≠ progress.holder → after.xpOf holder = db.xpOf holder

namespace Platform

/-- Nothing before stands under the marker of a progress but the progress itself. -/
def Unshared (rt : Platform F) (calls : List (Call F)) (progress : Progress) : Prop :=
  rt.Used (.empty F) calls progress.marker → progress ∈ rt.progresses (.empty F) calls

def gained (rt : Platform F) (calls : List (Call F)) (call : Call F) (holder : Int × String × Int) : Int :=
  (rt.apply (rt.run (.empty F) calls) call).xpOf holder - (rt.run (.empty F) calls).xpOf holder

variable {rt : Platform F}

theorem empty_unmarked (progress : Progress) : (Db.empty F).marked progress.marker = false := by
  have other : "schema_version" ≠ progress.marker := by
    intro same
    have starts := Progress.marker_starts progress
    rw [← same] at starts
    exact absurd starts (by decide)
  simp [Db.marked, Db.empty, other]

theorem used_iff (calls : List (Call F)) (progress : Progress) :
    (rt.run (.empty F) calls).marked progress.marker = true ↔ rt.Used (.empty F) calls progress.marker := by
  rw [rt.run_marked, empty_unmarked]
  simp

section Calls

variable {calls : List (Call F)} {account track amount reference : Value F} (supply : Supply)
  {progress : Progress} {gain : Int}
  (asked : rt.asked (rt.run (.empty F) calls) account track amount reference = .ok (progress, gain))

include asked

theorem honored_unshared_iff : Honored (own (rt.progresses (.empty F) calls) progress) progress gain
        (rt.run (.empty F) calls) (rt.apply (rt.run (.empty F) calls)
          ⟨.addTrackProgress account track amount reference, supply⟩) ↔
      rt.Unshared calls progress := by
  obtain ⟨-, -, positive, -⟩ := asked_ok asked
  have gains : 0 < gain := (rt.positiveInt_ok positive).1
  obtain ⟨row, id, version, left⟩ := rt.apply_progress asked supply
  rw [left]
  cases marked : (rt.run (.empty F) calls).marked progress.marker with
  | true =>
    have opened : (rt.run (.empty F) calls).progressed progress row gain (supply.now 0)
        (supply.now 1) = (rt.run (.empty F) calls).openAccount progress.account (supply.now 0) :=
      if_pos marked
    rw [opened]
    have used := (used_iff calls progress).mp marked
    constructor
    · intro honored _
      by_contra missing
      have added := honored.first fun member => missing (mem_own.mp member)
      have same : ((rt.run (.empty F) calls).openAccount progress.account (supply.now 0)).xpOf
          progress.holder = (rt.run (.empty F) calls).xpOf progress.holder := rfl
      omega
    · intro unshared
      have member := unshared used
      obtain ⟨known, funded⟩ := rt.progress_known member
      exact {
        first := fun missing => absurd (mem_own.mpr member) missing
        again := fun _ => openAccount_again known funded _
        apart := fun holder _ => rfl }
  | false =>
    have unused : ¬ rt.Used (.empty F) calls progress.marker := fun used =>
      absurd ((used_iff calls progress).mpr used) (Bool.eq_false_iff.mp marked)
    have fresh : progress ∉ rt.progresses (.empty F) calls := fun member =>
      unused (.inl ⟨progress, member, rfl⟩)
    have added : (rt.run (.empty F) calls).progressed progress row gain (supply.now 0)
        (supply.now 1) = (((rt.run (.empty F) calls).openAccount progress.account
          (supply.now 0)).addProgress progress.account row gain (supply.now 1)).appendMetadata
            progress.marker (supply.now 1) := if_neg (Bool.eq_false_iff.mp marked)
    rw [added]
    have holds : (progress.account, row.id, row.version) = progress.holder := by
      rw [id, version]
      rfl
    refine iff_of_true ?_ fun used => absurd used unused
    exact {
      first := fun _ => by
        refine (xpOf_addProgress _ _ _ _ _ _).trans ?_
        rw [holds, if_pos rfl]
        rfl
      again := fun member => absurd (mem_own.mp member) fresh
      apart := fun holder other => by
        refine (xpOf_addProgress _ _ _ _ _ _).trans ?_
        rw [holds, if_neg other, add_zero]
        rfl }

theorem gained_unshared (unshared : rt.Unshared calls progress) (holder : Int × String × Int) :
    rt.gained calls ⟨.addTrackProgress account track amount reference, supply⟩ holder =
      if holder = progress.holder ∧ progress ∉ own (rt.progresses (.empty F) calls) progress then
        gain
      else 0 := by
  have honored := (honored_unshared_iff supply asked).mpr unshared
  unfold gained
  by_cases holds : holder = progress.holder
  · subst holds
    by_cases repeated : progress ∈ own (rt.progresses (.empty F) calls) progress
    · rw [honored.again repeated, if_neg fun new => new.2 repeated, sub_self]
    · rw [honored.first repeated, if_pos ⟨rfl, repeated⟩, add_sub_cancel_left]
  · rw [honored.apart holder holds, if_neg fun new => holds new.1, sub_self]

end Calls

/-- A call of `add_track_progress` gives an account what it is owed exactly when nothing
else stands under its marker; then only the calls for the account on the track decide
what it gains. -/
theorem progress_honored_iff (rt : Platform F) (calls : List (Call F))
    (account track amount reference : Value F) (supply : Supply) {progress : Progress} {gain : Int}
    (asked : rt.asked (rt.run (.empty F) calls) account track amount reference = .ok (progress, gain)) :
    (Honored (own (rt.progresses (.empty F) calls) progress) progress gain
        (rt.run (.empty F) calls) (rt.apply (rt.run (.empty F) calls)
          ⟨.addTrackProgress account track amount reference, supply⟩) ↔
      rt.Unshared calls progress) ∧
    ∀ others later, rt.asked (rt.run (.empty F) others) account track amount reference = .ok (progress, gain) →
      own (rt.progresses (.empty F) others) progress = own (rt.progresses (.empty F) calls) progress →
      rt.Unshared calls progress → rt.Unshared others progress → ∀ holder,
        rt.gained others ⟨.addTrackProgress account track amount reference, later⟩ holder =
          rt.gained calls ⟨.addTrackProgress account track amount reference, supply⟩ holder := by
  refine ⟨honored_unshared_iff supply asked, fun others later askedToo same unshared unsharedToo holder => ?_⟩
  rw [gained_unshared supply asked unshared, gained_unshared later askedToo unsharedToo, same]

end Platform

def seasonCatalog : String :=
  "\x7b\"version\":1,\"tracks\":[\x7b\"id\":\"season\",\"levels\":[\x7b\"xp\":5," ++
    "\"rewards\":[\x7b\"templateId\":\"Water\"\x7d]\x7d]\x7d]\x7d"

def seasonStarts : Call FloatText :=
  ⟨.syncConfig (some seasonCatalog), supplyOf "2024-01-01T00:00:00Z" []⟩

def attends (account : Int) (event : String) : Call FloatText :=
  ⟨.addTrackProgress (.int account) (.str "season") (.int 10) (.str event), supplyOf "2024-01-01T00:00:01Z" []⟩

def firstAttends : List (Call FloatText) := [seasonStarts, attends 1 "event-1"]

theorem progress_honored_other_event :
    Honored (own (plain.progresses (.empty FloatText) firstAttends) ⟨2, "season", 1, "event-2"⟩)
      ⟨2, "season", 1, "event-2"⟩ 10 (plain.run (.empty FloatText) firstAttends)
      (plain.apply (plain.run (.empty FloatText) firstAttends) (attends 2 "event-2")) := by
  refine (plain.progress_honored_iff firstAttends (.int 2) (.str "season") (.int 10)
    (.str "event-2") (supplyOf "2024-01-01T00:00:01Z" []) (by decide +kernel)).1.mpr ?_
  rintro (⟨progress, member, same⟩ | member)
  · have only : plain.progresses (.empty FloatText) firstAttends = [⟨1, "season", 1, "event-1"⟩] := by decide +kernel
    rw [only, List.mem_singleton] at member
    subst member
    exact absurd same (by decide)
  · have none : plain.rewarded (.empty FloatText) firstAttends = [] := by rfl
    rw [none] at member
    cases member

/-- The second account that attends the event is accepted and gains nothing. -/
theorem second_account_gains_nothing :
    plain.asked (plain.run (.empty FloatText) firstAttends) (.int 2) (.str "season") (.int 10)
        (.str "event-1") = .ok (⟨2, "season", 1, "event-1"⟩, 10) ∧
      plain.gained firstAttends (attends 2 "event-1") (2, "season", 1) = 0 ∧
      ¬ Honored (own (plain.progresses (.empty FloatText) firstAttends)
        ⟨2, "season", 1, "event-1"⟩) ⟨2, "season", 1, "event-1"⟩ 10
        (plain.run (.empty FloatText) firstAttends)
        (plain.apply (plain.run (.empty FloatText) firstAttends) (attends 2 "event-1")) := by
  have nothing : plain.gained firstAttends (attends 2 "event-1") (2, "season", 1) = 0 := by
    decide +kernel
  refine ⟨by decide +kernel, nothing, fun honored => ?_⟩
  have missing : (⟨2, "season", 1, "event-1"⟩ : Progress) ∉
      own (plain.progresses (.empty FloatText) firstAttends) ⟨2, "season", 1, "event-1"⟩ := by
    decide +kernel
  have added : (plain.run (.empty FloatText) firstAttends).xpOf (2, "season", 1) =
      (plain.run (.empty FloatText) firstAttends).xpOf (2, "season", 1) + 10 :=
    (sub_eq_zero.mp nothing).symm.trans (honored.first missing)
  omega

end Dash.Community
