import Dash.Community.Effects

/-! The catalog after a history of synchronized configurations.

Offers are found by their identifier, and one sync disables every offer that it does not
list. Tracks are found by their newest enabled version, and a sync writes only the versions
it lists: what earlier configurations enabled stays.
-/

set_option autoImplicit false

namespace Dash.Community

open Dash.Python Dash.Foundation List
open Foundation.Transaction (bind_ok commit_induction lift_bind pure_ok)

variable {F : Type}

structure Listing where
  id : String
  version : Int
  enabled : Bool

def Listing.key (listing : Listing) : String × Int := (listing.id, listing.version)

def Track.key (row : Track) : String × Int := (row.id, row.version)

def Track.listing (row : Track) : Listing := ⟨row.id, row.version, row.enabled⟩

def Enabled (listings : List Listing) (id : String) (version : Int) : Prop :=
  ∃ listing, lastOf Listing.key listings (id, version) = some listing ∧ listing.enabled = true

def InForce (listings : List Listing) (id : String) (version : Int) : Prop :=
  Enabled listings id version ∧ ∀ other, Enabled listings id other → other ≤ version

namespace Platform

variable (rt : Platform F)

def readListing (raw : Value F) : Result Listing := do
  let id ← rt.identifier (raw.get "id") "track id" 64
  let version ← rt.positiveInt (getOr raw "version" (.int 1)) "track version" 1000000
  .ok ⟨id, version, rt.flag raw "enabled" true⟩

def readListings : List (Value F) → Result (List Listing)
  | [] => .ok []
  | raw :: rest => do
    let listing ← rt.readListing raw
    let others ← readListings rest
    .ok (listing :: others)

def listed (file : Option String) (now : String) : Result (List Offer × List Listing) := do
  let (_, offers, tracks) ← rt.loadConfig file
  let offers ← rt.readOffers now offers
  let listings ← rt.readListings tracks
  .ok (offers, listings)

end Platform

def Db.available? (db : Db F) (id : String) : Option Offer := (db.offer? id).filter Offer.enabled

/-! The newest row. -/

theorem newest_none {rows : List Track} : newest rows = none ↔ rows = [] := by
  cases rows with
  | nil => exact ⟨fun _ => rfl, fun _ => rfl⟩
  | cons row rest =>
    refine ⟨fun none_ => ?_, fun same => by cases same⟩
    unfold newest at none_
    cases found : newest rest with
    | none => simp [found] at none_
    | some other =>
      simp only [found] at none_
      split at none_ <;> cases none_

theorem newest_some {rows : List Track} {row : Track} (found : newest rows = some row) :
    row ∈ rows ∧ ∀ other ∈ rows, other.version ≤ row.version := by
  induction rows generalizing row with
  | nil => cases found
  | cons head rest ih =>
    unfold newest at found
    cases later : newest rest with
    | none =>
      rw [later] at found
      cases found
      refine ⟨mem_cons_self, fun other member => ?_⟩
      rw [newest_none.mp later, mem_singleton] at member
      rw [member]
    | some other =>
      obtain ⟨member, most⟩ := ih later
      simp only [later] at found
      split at found
      · next newer =>
        cases found
        refine ⟨mem_cons_of_mem _ member, fun another there => ?_⟩
        rcases mem_cons.mp there with rfl | inside
        · exact newer.le
        · exact most another inside
      · next older =>
        cases found
        refine ⟨mem_cons_self, fun another there => ?_⟩
        rcases mem_cons.mp there with rfl | inside
        · exact le_refl _
        · exact (most another inside).trans (not_lt.mp older)

variable {id : String} {db : Db F}

theorem enabledTrack_some {row : Track} (found : db.enabledTrack? id = some row) :
    row ∈ db.tracks ∧ row.id = id ∧ row.enabled = true ∧
      ∀ other ∈ db.tracks, other.id = id → other.enabled = true → other.version ≤ row.version := by
  obtain ⟨member, most⟩ := newest_some found
  simp only [mem_filter, Bool.and_eq_true, decide_eq_true_eq] at member
  refine ⟨member.1, member.2.1, member.2.2, fun other there same on => most other ?_⟩
  simp only [mem_filter, Bool.and_eq_true, decide_eq_true_eq]
  exact ⟨there, same, on⟩

theorem enabledTrack_none : db.enabledTrack? id = none ↔ ∀ row ∈ db.tracks, row.id = id → row.enabled = false := by
  rw [Db.enabledTrack?, newest_none, filter_eq_nil_iff]
  simp

/-- The version that is found is the greatest enabled one of the table. -/
theorem enabledTrack_version {version : Int} : (db.enabledTrack? id).map Track.version = some version ↔
      (∃ row ∈ db.tracks, row.id = id ∧ row.enabled = true ∧ row.version = version) ∧
        ∀ row ∈ db.tracks, row.id = id → row.enabled = true → row.version ≤ version := by
  cases found : db.enabledTrack? id with
  | none =>
    refine ⟨fun same => absurd same (by simp), ?_⟩
    rintro ⟨⟨row, member, same, on, -⟩, -⟩
    have off := enabledTrack_none.mp found row member same
    rw [on] at off
    cases off
  | some row =>
    obtain ⟨member, same, on, most⟩ := enabledTrack_some found
    constructor
    · intro is_
      obtain rfl : row.version = version := Option.some.inj is_
      exact ⟨⟨row, member, same, on, rfl⟩, most⟩
    · rintro ⟨⟨other, there, also, active, rfl⟩, greatest⟩
      exact congrArg some ((greatest row member same on).antisymm (most other there also active))

theorem upsertTrack_tracks (db : Db F) (track : Track) :
    (db.upsertTrack track).tracks = Foundation.upsert Track.key track db.tracks := by
  have known : (db.tracks.any fun row => row.id = track.id && row.version = track.version) = true ↔
      track.key ∈ db.tracks.map Track.key := by
    simp [Track.key]
  have same : ∀ row : Track, row.key = track.key ↔ row.id = track.id ∧ row.version = track.version :=
    fun row => Prod.mk.injEq .. ▸ Iff.rfl
  unfold Db.upsertTrack Foundation.upsert
  by_cases there : track.key ∈ db.tracks.map Track.key
  · rw [if_pos (known.mpr there), if_pos there]
    refine map_congr_left fun row _ => ?_
    simp only [same]
  · rw [if_neg fun found => there (known.mp found), if_neg there]

/-! The offers of a sync. -/

theorem upsertOffers_tracks (db : Db F) (offers : List Offer) :
    (offers.foldl Db.upsertOffer db).tracks = db.tracks := by
  rw [Platform.upserted]

def Offer.terms (row : Offer) : Bool × Int × Int := (row.enabled, row.version, row.price)

theorem upsertOffer_terms (db : Db F) (offer : Offer) (id : String) :
    ((db.upsertOffer offer).offer? id).map Offer.terms =
      if id = offer.id then some offer.terms else (db.offer? id).map Offer.terms := by
  unfold Db.upsertOffer Db.offer?
  by_cases known : (db.offers.any fun row => row.id = offer.id) = true
  · have found : (update Offer.id offer.id (fun row => row.replacedBy offer) db.offers).find?
        (fun row => row.id = id) = if id = offer.id then _ else _ :=
      Table.find_update (by exact fun _ _ => rfl) id
    rw [if_pos known, found]
    split
    · next same =>
      cases old : db.offers.find? fun row => row.id = id with
      | none =>
        obtain ⟨row, member, hit⟩ := any_eq_true.mp known
        have missed := List.find?_eq_none.mp old row member
        simp_all
      | some row => rfl
    · rfl
  · have fresh : db.offers.find? (fun row => row.id = offer.id) = none := by
      refine List.find?_eq_none.mpr fun row member hit => known ?_
      exact any_eq_true.mpr ⟨row, member, hit⟩
    have found : (db.offers ++ [offer]).find? (fun row => row.id = id) =
        if id = offer.id then some offer else _ := Table.find_append fresh id
    rw [if_neg known, found]
    split <;> rfl

theorem upsertOffers_terms (db : Db F) (offers : List Offer) (id : String) :
    ((offers.foldl Db.upsertOffer db).offer? id).map Offer.terms =
      ((lastOf Offer.id offers id).map Offer.terms).or ((db.offer? id).map Offer.terms) := by
  induction offers using List.reverseRecOn with
  | nil => rfl
  | append_singleton offers offer ih =>
    rw [foldl_append, foldl_cons, foldl_nil, upsertOffer_terms, ih, Table.lastOf_append]
    split <;> rfl

theorem disableOffers_found (db : Db F) (kept : List String) (id : String) :
    (db.disableOffers kept).offer? id = (db.offer? id).map fun row =>
      if row.id ∈ kept then row else { row with enabled := false } := by
  unfold Db.disableOffers Db.offer?
  rw [List.find?_map]
  refine congrArg (Option.map _) (congrArg (List.find? · db.offers) (funext fun row => ?_))
  simp only [Function.comp]
  split <;> rfl

/-- After a sync exactly the offers listed as enabled are found, with the listed terms. -/
theorem synced_available (db : Db F) (offers : List Offer) (id : String) :
    ((((offers.foldl Db.upsertOffer db).disableOffers (offers.map Offer.id)).available? id).map
      Offer.terms) = ((lastOf Offer.id offers id).filter Offer.enabled).map Offer.terms := by
  have terms := upsertOffers_terms db offers id
  rw [Db.available?, disableOffers_found]
  cases listed : lastOf Offer.id offers id with
  | none =>
    have unlisted : id ∉ offers.map Offer.id := by
      intro member
      obtain ⟨offer, there, same⟩ := mem_map.mp member
      have missed := List.find?_eq_none.mp listed offer (mem_reverse.mpr there)
      simp_all
    cases found : (offers.foldl Db.upsertOffer db).offer? id with
    | none => rfl
    | some row =>
      have same : row.id = id := by simpa using List.find?_some found
      have unkept : row.id ∉ offers.map Offer.id := same ▸ unlisted
      rw [Option.map_some, if_neg unkept]
      rfl
  | some offer =>
    rw [listed] at terms
    obtain ⟨row, found, same⟩ := Option.map_eq_some_iff.mp terms
    have hit : row.id = id := by simpa using List.find?_some found
    have inside : id ∈ offers.map Offer.id := by
      have member := mem_reverse.mp (List.mem_of_find?_eq_some listed)
      exact mem_map.mpr ⟨offer, member, Table.lastOf_key listed⟩
    have on : row.enabled = offer.enabled := congrArg Prod.fst same
    rw [found, Option.map_some, if_pos (hit ▸ inside)]
    cases enabled : offer.enabled with
    | true => simp [Option.filter, on, enabled, same]
    | false => simp [Option.filter, on, enabled]

/-! The tracks of a sync. -/

namespace Platform

variable (rt : Platform F) {session after : Session F}

theorem bindText_db {value : Value F} {text : Option String}
    (success : rt.bindText value session = .ok (text, after)) : after = session := by
  cases value with
  | int value =>
    simp only [bindText, Action.bind_bind, pure_ok] at success
    exact (congrArg Prod.snd success.2).symm
  | list items => cases success
  | dict entries => cases success
  | _ => exact (congrArg Prod.snd (pure_ok.mp success)).symm

theorem syncTrack_ok {now : String} {raw : Value F} {key : String × Int}
    (success : rt.syncTrack now raw session = .ok (key, after)) :
    ∃ track, rt.readListing raw = .ok track.listing ∧ after.db = session.db.upsertTrack track := by
  unfold syncTrack at success
  split at success
  · exact absurd success (by simp)
  · simp only [lift_bind] at success
    obtain ⟨id, idRead, version, versionRead, levels, -, name, -, levelsJson, -, success⟩ := success
    obtain ⟨startsAt, first, started, success⟩ := bind_ok.mp success
    obtain ⟨endsAt, second, ended, success⟩ := bind_ok.mp success
    cases rt.bindText_db started
    cases rt.bindText_db ended
    simp only [Action.execute_bind, pure_ok] at success
    cases success
    refine ⟨⟨id, version, name, rt.flag raw "enabled" true, startsAt, endsAt, levelsJson, now⟩, ?_, rfl⟩
    simp only [readListing, result_bind]
    exact ⟨id, idRead, version, versionRead, rfl⟩

theorem syncTracks_tracks {now : String} {raws : List (Value F)} {keys : List (String × Int)}
    (success : Transaction.each (rt.syncTrack now) raws session = .ok (keys, after)) :
    ∃ tracks, rt.readListings raws = .ok (tracks.map Track.listing) ∧
      after.db.tracks = upsertAll Track.key tracks session.db.tracks := by
  induction raws generalizing session keys with
  | nil =>
    cases pure_ok.mp success
    exact ⟨[], rfl, rfl⟩
  | cons raw rest ih =>
    rw [Transaction.each] at success
    obtain ⟨key, middle, first, success⟩ := bind_ok.mp success
    obtain ⟨others, last, remaining, same⟩ := bind_ok.mp success
    cases pure_ok.mp same
    obtain ⟨track, read, written⟩ := rt.syncTrack_ok first
    obtain ⟨tracks, reads, writes⟩ := ih remaining
    refine ⟨track :: tracks, ?_, ?_⟩
    · rw [readListings, read]
      simp [bind, Except.bind, reads]
    · rw [writes, written, upsertTrack_tracks]
      rfl

theorem syncConfig_catalog {file : Option String} {value : Value F}
    (success : rt.syncConfig file session = .ok (value, after)) :
    ∃ offers tracks, rt.listed file (session.supply.now 0) = .ok (offers, tracks.map Track.listing) ∧
      after.db.offers = ((offers.foldl Db.upsertOffer session.db).disableOffers (offers.map Offer.id)).offers ∧
      after.db.tracks = upsertAll Track.key tracks session.db.tracks := by
  simp only [syncConfig, lift_bind, Action.now_bind] at success
  obtain ⟨⟨config, rawOffers, rawTracks⟩, loaded, rest⟩ := success
  obtain ⟨ids, second, offered, rest⟩ := bind_ok.mp rest
  obtain ⟨keys, third, tracked, rest⟩ := bind_ok.mp rest
  obtain ⟨offers, read, rfl, changed⟩ := rt.syncOffers_ok offered
  obtain ⟨tracks, reads, writes⟩ := rt.syncTracks_tracks tracked
  have aside := rt.syncTracks_ok tracked
  simp only [Action.execute_bind, pure_ok] at rest
  cases rest
  refine ⟨offers, tracks, ?_, ?_, ?_⟩
  · simp only [listed, result_bind]
    exact ⟨_, loaded, offers, read, _, reads, rfl⟩
  · rw [Db.disableOffers, aside.offers, changed]
    rfl
  · change third.db.tracks = _
    rw [writes, changed, upsertOffers_tracks]

end Platform

/-- The enabled rows that a configuration does not list are older than an enabled version of
their track that it lists. -/
def Superseded (rows : List Track) (listings : List Listing) : Prop :=
  ∀ old ∈ rows, old.enabled = true → lastOf Listing.key listings old.key = none →
    ∃ version, Enabled listings old.id version ∧ old.version < version

namespace Platform

variable (rt : Platform F)

structure Exact (db : Db F) (offers : List Offer) (listings : List Listing) : Prop where
  offered : ∀ id, (db.available? id).map Offer.terms =
    ((lastOf Offer.id offers id).filter Offer.enabled).map Offer.terms
  tracked : ∀ id version, (db.enabledTrack? id).map Track.version = some version ↔ InForce listings id version
  purchase : ∀ account offerId quantity key session value after, session.db = db →
    rt.purchase account offerId quantity key session = .ok (value, after) →
      (∃ row ∈ db.purchases, rt.accountId account = .ok row.duneAccountId ∧
        rt.identifier key "idempotencyKey" 128 = .ok row.idempotencyKey) ∨
      ∃ offer, lastOf Offer.id offers (rt.str offerId) = some offer ∧ offer.enabled = true
  progress : ∀ account trackId amount reference session value after, session.db = db →
    rt.addTrackProgress account trackId amount reference session = .ok (value, after) →
      ∃ version, InForce listings (rt.str trackId) version
  claim : ∀ account trackId level session value after, session.db = db →
    rt.claimTrackLevel account trackId level session = .ok (value, after) →
      ∃ version, InForce listings (rt.str trackId) version

def syncAll (db : Db F) (syncs : List (Option String × Supply)) : Db F :=
  syncs.foldl (fun db sync => ((rt.syncConfig sync.1).commit ⟨db, sync.2⟩).db) db

variable {rt} {db : Db F} {session after : Session F} {value : Value F} {rows : List Track} {tracks : List Track}

/-! What the operations find. -/

theorem purchase_finds {account offerId quantity key : Value F}
    (success : rt.purchase account offerId quantity key session = .ok (value, after)) :
    (∃ row ∈ session.db.purchases, rt.accountId account = .ok row.duneAccountId ∧
        rt.identifier key "idempotencyKey" 128 = .ok row.idempotencyKey) ∨
      ∃ offer, session.db.available? (rt.str offerId) = some offer := by
  simp only [purchase, lift_bind, Action.now_bind] at success
  obtain ⟨number, -, name, named, success⟩ := success
  obtain ⟨own, opened, ensured, success⟩ := bind_ok.mp success
  obtain ⟨parsed, now, changed⟩ := rt.ensureAccount_ok ensured
  have purchases : opened.db.purchases = session.db.purchases := by rw [changed]; rfl
  have offers : opened.db.offers = session.db.offers := by rw [changed]; rfl
  rw [Action.select_bind] at success
  cases existing : opened.db.purchases.find? fun row =>
      row.duneAccountId = own && row.idempotencyKey = name with
  | some row =>
    have member := List.mem_of_find?_eq_some existing
    have same := List.find?_some existing
    simp only [Bool.and_eq_true, decide_eq_true_eq] at same
    exact .inl ⟨row, purchases ▸ member, same.1 ▸ parsed, same.2 ▸ named⟩
  | none =>
    rw [existing] at success
    right
    simp only [placeOrder, Action.select_bind] at success
    rw [Db.available?, Db.offer?, ← offers]
    cases found : opened.db.offer? (rt.str offerId) with
    | none =>
      rw [found] at success
      cases success
    | some offer =>
      rw [found] at success
      simp only at success
      split at success
      · cases success
      · next on =>
        refine ⟨offer, ?_⟩
        rw [Db.offer?] at found
        rw [found]
        simpa using on

theorem addTrackProgress_finds {account trackId amount reference : Value F}
    (success : rt.addTrackProgress account trackId amount reference session = .ok (value, after)) :
    ∃ track, session.db.enabledTrack? (rt.str trackId) = some track := by
  obtain ⟨own, opened, ensured, success⟩ := bind_ok.mp success
  obtain ⟨-, now, changed⟩ := rt.ensureAccount_ok ensured
  have tracks : opened.db.enabledTrack? = session.db.enabledTrack? := by rw [changed]; rfl
  simp only [addTrackXp, lift_bind, Action.select_bind] at success
  obtain ⟨number, -, success⟩ := success
  rw [← tracks]
  cases found : opened.db.enabledTrack? (rt.str trackId) with
  | none =>
    rw [found] at success
    cases success
  | some track => exact ⟨track, rfl⟩

theorem claimTrackLevel_finds {account trackId level : Value F}
    (success : rt.claimTrackLevel account trackId level session = .ok (value, after)) :
    ∃ track, session.db.enabledTrack? (rt.str trackId) = some track := by
  simp only [claimTrackLevel, lift_bind, Action.now_bind] at success
  obtain ⟨number, -, success⟩ := success
  obtain ⟨own, opened, ensured, success⟩ := bind_ok.mp success
  obtain ⟨-, now, changed⟩ := rt.ensureAccount_ok ensured
  have tracks : opened.db.enabledTrack? = session.db.enabledTrack? := by rw [changed]; rfl
  rw [Action.select_bind] at success
  rw [← tracks]
  cases found : opened.db.enabledTrack? (rt.str trackId) with
  | none =>
    rw [found] at success
    cases success
  | some track => exact ⟨track, rfl⟩

/-! What the configuration lists against the rows. -/

theorem lastOf_listing (wanted : String × Int) : lastOf Listing.key (tracks.map Track.listing) wanted =
      (lastOf Track.key tracks wanted).map Track.listing :=
  Table.lastOf_map Track.listing (fun _ => rfl) wanted

theorem enabled_listed {id : String} {version : Int} : Enabled (tracks.map Track.listing) id version ↔
      ∃ row, lastOf Track.key tracks (id, version) = some row ∧ row.enabled = true := by
  rw [Enabled, lastOf_listing]
  constructor
  · rintro ⟨listing, found, on⟩
    obtain ⟨row, there, rfl⟩ := Option.map_eq_some_iff.mp found
    exact ⟨row, there, on⟩
  · rintro ⟨row, there, on⟩
    exact ⟨row.listing, by rw [there]; rfl, on⟩

theorem enabled_row (distinct : (rows.map Track.key).Nodup) {id : String} {version : Int}
    (enabled : Enabled (tracks.map Track.listing) id version) :
    ∃ row ∈ upsertAll Track.key tracks rows, row.id = id ∧ row.enabled = true ∧ row.version = version := by
  obtain ⟨row, there, on⟩ := enabled_listed.mp enabled
  have key : row.key = (id, version) := Table.lastOf_key there
  exact ⟨row, (Table.mem_upsertAll distinct).mpr (.inl (key ▸ there)), congrArg Prod.fst key, on, congrArg Prod.snd key⟩

theorem enabled_cases (distinct : (rows.map Track.key).Nodup) {row : Track}
    (member : row ∈ upsertAll Track.key tracks rows) (on : row.enabled = true) :
    Enabled (tracks.map Track.listing) row.id row.version ∨
      row ∈ rows ∧ lastOf Listing.key (tracks.map Track.listing) row.key = none := by
  rcases (Table.mem_upsertAll distinct).mp member with there | ⟨unlisted, old⟩
  · exact .inl (enabled_listed.mpr ⟨row, there, on⟩)
  · refine .inr ⟨old, ?_⟩
    rw [lastOf_listing, unlisted]
    rfl

/-- Tracks are found as listed exactly when the rows of before are superseded. -/
theorem tracked_iff (distinct : (rows.map Track.key).Nodup) (written : db.tracks = upsertAll Track.key tracks rows) :
    (∀ id version, (db.enabledTrack? id).map Track.version = some version ↔
      InForce (tracks.map Track.listing) id version) ↔ Superseded rows (tracks.map Track.listing) := by
  constructor
  · intro tracked old member on unlisted
    have kept : old ∈ db.tracks := by
      rw [written, Table.mem_upsertAll distinct]
      refine .inr ⟨?_, member⟩
      rwa [lastOf_listing, Option.map_eq_none_iff] at unlisted
    cases found : db.enabledTrack? old.id with
    | none =>
      have off := enabledTrack_none.mp found old kept rfl
      rw [on] at off
      cases off
    | some row =>
      obtain ⟨enabled, -⟩ := (tracked old.id row.version).mp (congrArg (Option.map Track.version) found)
      refine ⟨row.version, enabled, lt_of_le_of_ne ((enabledTrack_some found).2.2.2 old kept rfl on) ?_⟩
      intro same
      obtain ⟨listing, there, -⟩ := enabled
      rw [← same] at there
      cases unlisted.symm.trans there
  · intro superseded id version
    rw [enabledTrack_version, written]
    constructor
    · rintro ⟨⟨row, member, rfl, on, rfl⟩, most⟩
      have newest_ : ∀ other, Enabled (tracks.map Track.listing) row.id other → other ≤ row.version := by
        intro other enabled
        obtain ⟨row', there, same, active, rfl⟩ := enabled_row distinct enabled
        exact most row' there same active
      refine ⟨?_, newest_⟩
      rcases enabled_cases distinct member on with enabled | ⟨old, unlisted⟩
      · exact enabled
      · obtain ⟨version, enabled, newer⟩ := superseded row old on unlisted
        exact absurd newer (not_lt.mpr (newest_ version enabled))
    · rintro ⟨enabled, most⟩
      refine ⟨enabled_row distinct enabled, fun row member same on => ?_⟩
      subst same
      rcases enabled_cases distinct member on with also | ⟨old, unlisted⟩
      · exact most row.version also
      · obtain ⟨other, also, newer⟩ := superseded row old on unlisted
        exact newer.le.trans (most other also)

theorem synced_keys (distinct : (session.db.tracks.map Track.key).Nodup) {file : Option String}
    (success : rt.syncConfig file session = .ok (value, after)) :
    (after.db.tracks.map Track.key).Nodup := by
  obtain ⟨offers, tracks, -, -, written⟩ := rt.syncConfig_catalog success
  rw [written]
  exact Table.upsertAll_keys distinct

theorem syncAll_keys (distinct : (db.tracks.map Track.key).Nodup)
    (syncs : List (Option String × Supply)) : ((rt.syncAll db syncs).tracks.map Track.key).Nodup := by
  induction syncs generalizing db with
  | nil => exact distinct
  | cons sync rest ih =>
    refine ih (commit_induction (fun session : Session F =>
      (session.db.tracks.map Track.key).Nodup) distinct fun value after success => ?_)
    exact @synced_keys F rt ⟨db, sync.2⟩ after value distinct sync.1 success

/-- After any history, the catalog is exactly the last configuration where the rows of the
history are superseded by it. -/
theorem sync_exact (distinct : (db.tracks.map Track.key).Nodup)
    (earlier : List (Option String × Supply)) (file : Option String) (supply : Supply)
    (success : rt.syncConfig file ⟨rt.syncAll db earlier, supply⟩ = .ok (value, after)) :
    ∃ offers listings, rt.listed file (supply.now 0) = .ok (offers, listings) ∧
      (rt.Exact after.db offers listings ↔ Superseded (rt.syncAll db earlier).tracks listings) := by
  obtain ⟨offers, tracks, read, offered, written⟩ := rt.syncConfig_catalog success
  have exactly := tracked_iff (syncAll_keys distinct earlier) written
  have available : ∀ id, (after.db.available? id).map Offer.terms =
      ((lastOf Offer.id offers id).filter Offer.enabled).map Offer.terms := by
    intro id
    rw [← synced_available (rt.syncAll db earlier) offers id, Db.available?, Db.available?, Db.offer?,
      Db.offer?, offered]
  refine ⟨offers, tracks.map Track.listing, read, fun exact_ => exactly.mp exact_.tracked, fun superseded => ?_⟩
  have tracked := exactly.mpr superseded
  have found : ∀ id track, after.db.enabledTrack? id = some track →
      ∃ version, InForce (tracks.map Track.listing) id version := fun id track there =>
    ⟨track.version, (tracked id track.version).mp (by rw [there]; rfl)⟩
  refine ⟨available, tracked, ?_, ?_, ?_⟩
  · rintro account offerId quantity key session value final same done
    rcases purchase_finds done with repeated | ⟨offer, there⟩
    · exact .inl (same ▸ repeated)
    · have listed_ := available (rt.str offerId)
      rw [same] at there
      rw [there] at listed_
      obtain ⟨listed, kept, -⟩ := Option.map_eq_some_iff.mp listed_.symm
      obtain ⟨named, on⟩ := Option.filter_eq_some_iff.mp kept
      exact .inr ⟨listed, named, on⟩
  · rintro account trackId amount reference session value final same done
    obtain ⟨track, there⟩ := addTrackProgress_finds done
    exact found _ track (same ▸ there)
  · rintro account trackId level session value final same done
    obtain ⟨track, there⟩ := claimTrackLevel_finds done
    exact found _ track (same ▸ there)

end Platform

theorem empty_tracks : ((Db.empty F).tracks.map Track.key).Nodup := nodup_nil

def season : String :=
  "\x7b\"version\":1,\"tracks\":[\x7b\"id\":\"season\",\"levels\":[\x7b\"rewards\":[\x7b\"templateId\":\"Water\"\x7d]\x7d]\x7d]\x7d"

def bare : String := "\x7b\"version\":1\x7d"

def then_ : Supply := supplyOf "2024-01-01T00:00:00Z" []

def seasonOver : Db FloatText :=
  plain.syncAll (.empty FloatText) [(some season, then_), (some bare, then_)]

/-- The last configuration lists no track, and progress is still accepted. -/
theorem dropped_track_accepts : ∃ value after offers, plain.syncConfig (some bare)
        ⟨plain.syncAll (.empty FloatText) [(some season, then_)], then_⟩ = .ok (value, after) ∧
      plain.listed (some bare) (then_.now 0) = .ok (offers, []) ∧ ¬ plain.Exact after.db offers [] ∧
      (plain.addTrackProgress (.int 7) (.str "season") (.int 5) (.str "quest")
        ⟨seasonOver, then_⟩).toOption.isSome = true := by
  have evaluated : (plain.syncConfig (some bare) ⟨plain.syncAll (.empty FloatText)
      [(some season, then_)], then_⟩).toOption.map
        (fun result => (result.2.db.enabledTrack? "season").map Track.version) = some (some 1) ∧
      (plain.listed (some bare) (then_.now 0)).toOption.map (fun listed => listed.2.length) = some 0 ∧
      (plain.addTrackProgress (.int 7) (.str "season") (.int 5) (.str "quest")
        ⟨seasonOver, then_⟩).toOption.isSome = true := by
    decide +kernel
  obtain ⟨synced, read, accepted_⟩ := evaluated
  cases done : plain.syncConfig (some bare) ⟨plain.syncAll (.empty FloatText) [(some season, then_)],
      then_⟩ with
  | error why =>
    rw [done] at synced
    cases synced
  | ok result =>
    obtain ⟨value, after⟩ := result
    cases listed : plain.listed (some bare) (then_.now 0) with
    | error why =>
      rw [listed] at read
      cases read
    | ok catalog =>
      obtain ⟨offers, listings⟩ := catalog
      rw [listed] at read
      obtain rfl : listings = [] := length_eq_zero_iff.mp (Option.some.inj read)
      rw [done] at synced
      refine ⟨value, after, offers, rfl, rfl, fun exact_ => ?_, accepted_⟩
      obtain ⟨⟨listing, there, -⟩, -⟩ := (exact_.tracked "season" 1).mp (Option.some.inj synced)
      cases there

theorem sync_exact_season : ∃ value after, plain.syncConfig (some season) ⟨plain.syncAll (.empty FloatText)
        [(some bare, then_)], then_⟩ = .ok (value, after) ∧
      ∃ offers listings, plain.listed (some season) (then_.now 0) = .ok (offers, listings) ∧
        (plain.Exact after.db offers listings ↔
          Superseded (plain.syncAll (.empty FloatText) [(some bare, then_)]).tracks listings) := by
  have evaluated : (plain.syncConfig (some season) ⟨plain.syncAll (.empty FloatText)
      [(some bare, then_)], then_⟩).toOption.isSome = true := by
    decide +kernel
  cases done : plain.syncConfig (some season) ⟨plain.syncAll (.empty FloatText) [(some bare, then_)],
      then_⟩ with
  | error why =>
    rw [done] at evaluated
    cases evaluated
  | ok result => exact ⟨result.1, result.2, rfl, Platform.sync_exact empty_tracks
      [(some bare, then_)] (some season) then_ done⟩

end Dash.Community
