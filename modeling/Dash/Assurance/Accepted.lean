import Dash.Assurance.Store
import Dash.Foundation.Attempts

/-! The receipts that `finish` writes are accepted. -/

set_option autoImplicit false

namespace Dash.Assurance

open Dash.Python Dash.Foundation List

theorem named_append {start rest : String} (token : isToken rest.toList = true) :
    named start (start ++ rest) = true := by
  rw [named, String.toList_append, drop_left, token, Bool.and_true, List.isPrefixOf_iff_prefix]
  exact prefix_append _ _

theorem append_token {rt : Platform} {start : String} {first second : Nat}
    (same : start ++ rt.token first = start ++ rt.token second) : rt.token first = rt.token second := by
  refine String.toList_inj.mp ?_
  have lists := congrArg String.toList same
  rw [String.toList_append, String.toList_append] at lists
  exact append_cancel_left lists

theorem splitSlash_word {word : List Char} (plain : '/' ∉ word) : Addons.splitSlash word = [word] := by
  induction word with
  | nil => rfl
  | cons char rest whole =>
    have other : char ≠ '/' := fun same => plain (same ▸ mem_cons_self)
    rw [Addons.splitSlash, whole fun member => plain (mem_cons_of_mem _ member)]
    exact other

theorem splitSlash_append {word : List Char} (plain : '/' ∉ word) (rest : List Char) :
    Addons.splitSlash (word ++ '/' :: rest) = word :: Addons.splitSlash rest := by
  induction word with
  | nil => rfl
  | cons char word whole =>
    have other : char ≠ '/' := fun same => plain (same ▸ mem_cons_self)
    rw [cons_append, Addons.splitSlash, whole fun member => plain (mem_cons_of_mem _ member)]
    exact other

variable {parts : List (List Char)}

theorem splitSlash_join (some_ : parts ≠ [])
    (plain : ∀ part ∈ parts, '/' ∉ part) : Addons.splitSlash (joinSlash parts) = parts := by
  induction parts with
  | nil => exact absurd rfl some_
  | cons part rest whole =>
    have first := plain part mem_cons_self
    cases rest with
    | nil => exact splitSlash_word first
    | cons next rest =>
      rw [joinSlash, splitSlash_append first,
        whole (cons_ne_nil _ _) fun part member => plain part (mem_cons_of_mem _ member)]
      exact cons_ne_nil _ _

variable {char : Char}

theorem isPathChar_plain (good : isPathChar char = true) : char ≠ '/' ∧ char ≠ '\\' ∧ isSpace char = false := by
  refine ⟨?_, ?_, ?_⟩
  · rintro rfl
    exact absurd good (by decide)
  · rintro rfl
    exact absurd good (by decide)
  · simp only [isPathChar, Bool.or_eq_true, Bool.and_eq_true, decide_eq_true_eq] at good
    simp only [isSpace, Bool.or_eq_false_iff, Bool.and_eq_false_iff, decide_eq_false_iff_not]
    omega

/-- What `safe_relative_path` accepted. -/
structure CleanPath (path : String) (parts : List (List Char)) : Prop where
  joined : path = String.ofList (joinSlash parts)
  parts_some : parts ≠ []
  isPart : ∀ part ∈ parts, isPart part = true ∧ part ≠ ['.']

theorem clean_of_safe {value path : String} (safe : safe_relative_path value = some path) :
    ∃ parts, CleanPath path parts := by
  unfold safe_relative_path at safe
  dsimp only at safe
  split at safe
  · cases safe
  · split at safe
    · cases safe
    · next plain =>
      split at safe
      · cases safe
      · next open_ =>
        refine ⟨_, (Option.some.inj safe).symm, ?_, fun part member => ?_⟩
        · intro empty
          exact open_ (.inl (by rw [empty]; rfl))
        · have good := mt (any_eq_true.mpr ⟨part, member, ·⟩) plain
          rw [Bool.or_eq_true, not_or] at good
          have kept := of_decide_eq_true (mem_filter.mp member).2
          exact ⟨by simpa using good.2, kept.2⟩

theorem mem_joinSlash (member : char ∈ joinSlash parts) : char = '/' ∨ ∃ part ∈ parts, char ∈ part := by
  induction parts with
  | nil => cases member
  | cons part rest whole =>
    cases rest with
    | nil => exact .inr ⟨part, mem_cons_self, member⟩
    | cons next rest =>
      have split : char ∈ part ++ '/' :: joinSlash (next :: rest) := member
      rcases mem_append.mp split with here | there
      · exact .inr ⟨part, mem_cons_self, here⟩
      · rcases mem_cons.mp there with slash | later
        · exact .inl slash
        · rcases whole later with slash | ⟨other, inside, found⟩
          · exact .inl slash
          · exact .inr ⟨other, mem_cons_of_mem _ inside, found⟩

theorem CleanPath.plain {path : String} (clean : CleanPath path parts)
    (member : char ∈ joinSlash parts) : char ≠ '\\' ∧ isSpace char = false := by
  rcases mem_joinSlash member with rfl | ⟨part, inside, found⟩
  · decide
  · have good := (clean.isPart part inside).1
    have plain := isPathChar_plain (all_eq_true.mp (Bool.and_eq_true_iff.mp good).2 char found)
    exact ⟨plain.2.1, plain.2.2⟩

theorem safe_fixed {value path again : String} (safe : safe_relative_path value = some path)
    (second : safe_relative_path path = some again) : again = path := by
  obtain ⟨parts, clean⟩ := clean_of_safe safe
  have text : (strip path).toList.map (fun char => if char = '\\' then '/' else char) = joinSlash parts := by
    rw [@strip_plain path ?_, clean.joined, String.toList_ofList]
    · rw [map_congr_left fun char member => if_neg (clean.plain member).1, map_id']
    · intro char member
      rw [clean.joined, String.toList_ofList] at member
      exact (clean.plain member).2
  have whole : pathParts (joinSlash parts) = parts := by
    rw [pathParts, splitSlash_join clean.parts_some]
    · refine filter_eq_self.mpr fun part member => decide_eq_true ⟨?_, (clean.isPart part member).2⟩
      rintro rfl
      exact absurd (clean.isPart [] member).1 (by decide)
    · intro part member slash
      have good := (clean.isPart part member).1
      exact (isPathChar_plain (all_eq_true.mp (Bool.and_eq_true_iff.mp good).2 '/' slash)).1 rfl
  unfold safe_relative_path at second
  rw [text] at second
  dsimp only at second
  rw [whole] at second
  split at second
  · cases second
  · split at second
    · cases second
    · split at second
      · cases second
      · rw [clean.joined]
        exact (Option.some.inj second).symm

variable {rt : Platform}

/-- What a row that `validate_manifest_rows` passes is. -/
theorem validateRow_some {requireBytes : Bool} {row result : RawFile}
    (passes : rt.validateRow requireBytes row = some result) :
    safe_relative_path row.path = some result.path ∧ isHash result.sha256 = true ∧ result.bytes = row.bytes ∧
      row.bytes.all (fun size => decide (0 ≤ size ∧ size ≤ MAX_FILE_BYTES)) = true := by
  unfold Platform.validateRow at passes
  split at passes
  · cases passes
  · next relative safe =>
    dsimp only at passes
    split at passes
    · cases passes
    · next hash =>
      split at passes
      · cases passes
      · split at passes
        · next bounded =>
          cases passes
          exact ⟨safe, by simpa using hash, rfl, bounded⟩
        · cases passes

/-- What `validate_manifest_rows` accepts. -/
structure Accepted (rt : Platform) (rows results : List RawFile) : Prop where
  few : 1 ≤ rows.length ∧ rows.length ≤ MAX_FILES
  normalized : ∃ (requireBytes : Bool) (normalized : List RawFile),
    List.Forall₂ (fun row result => rt.validateRow requireBytes row = some result) rows normalized ∧
      (normalized.map RawFile.path).Nodup ∧
      (normalized.map fun row => row.bytes.getD 0).sum ≤ MAX_TOTAL_BYTES ∧
      results = Platform.byPath normalized

theorem accepted_of_validate {rows results : List RawFile} {requireBytes : Bool}
    (valid : rt.validate_manifest_rows rows requireBytes = some results) : Accepted rt rows results := by
  unfold Platform.validate_manifest_rows at valid
  split at valid
  · cases valid
  · next count =>
    split at valid
    · cases valid
    · next normalized each =>
      split at valid
      · next distinct =>
        exact ⟨by omega, requireBytes, normalized, Attempts.mapM_some each, distinct.1, distinct.2, (Option.some.inj valid).symm⟩
      · cases valid

def Normal (file : File) : Prop :=
  (∃ value, safe_relative_path value = some file.path) ∧ isHash file.sha256 = true

theorem Accepted.results {rows results : List RawFile} (accepted : Accepted rt rows results) :
    (∀ row ∈ results, (∃ value, safe_relative_path value = some row.path) ∧ isHash row.sha256 = true) ∧
      results.Pairwise fun first second => first.path ≤ second.path := by
  obtain ⟨requireBytes, normalized, each, -, -, rfl⟩ := accepted.normalized
  refine ⟨fun row member => ?_, pairwise_insertionSort _ normalized⟩
  obtain ⟨given, -, passes⟩ := Attempts.forall₂_left each.flip ((mem_insertionSort _).mp member)
  obtain ⟨safe, hash, -⟩ := validateRow_some passes
  exact ⟨⟨given.path, safe⟩, hash⟩

theorem checkRow_some {disk : Disk} {requireMatch : Bool} {row : RawFile} {checked : Checked}
    (passes : checkRow disk requireMatch row = some checked) :
    checked.path = row.path ∧ checked.sha256 = row.sha256 := by
  unfold checkRow at passes
  split at passes
  · cases passes
  · split at passes
    · cases passes
    · split at passes
      · cases passes
      · cases passes
        exact ⟨rfl, rfl⟩

structure Filed (files : List File) : Prop where
  normal : ∀ file ∈ files, Normal file
  sorted : files.Pairwise fun first second => first.path ≤ second.path

variable {files : List File}

theorem startFiles_filed {given : Start} (files_ : rt.startFiles given = some files) : Filed files := by
  unfold Platform.startFiles at files_
  split at files_
  · obtain ⟨checked, normalizes, rfl⟩ := Option.map_eq_some_iff.mp files_
    unfold Platform.normalize_manifest at normalizes
    split at normalizes
    · cases normalizes
    · next expected valid =>
      split at normalizes
      · cases normalizes
      · next rows each =>
        split at normalizes
        · cases normalizes
          obtain ⟨normal, sorted⟩ := (accepted_of_validate valid).results
          have steps := Attempts.mapM_some each
          constructor
          · intro file member
            obtain ⟨row, inside, rfl⟩ := mem_map.mp member
            obtain ⟨item, there, passes⟩ := Attempts.forall₂_left steps.flip inside
            obtain ⟨path, hash⟩ := checkRow_some passes
            obtain ⟨safe, hex⟩ := normal item there
            exact ⟨path ▸ safe, hash ▸ hex⟩
          · have names := Attempts.forall₂_map steps fun item result passes => (checkRow_some passes).1
            have paths : (checked.map Checked.path).Pairwise (· ≤ ·) := names ▸ pairwise_map.mpr sorted
            exact pairwise_map.mpr (pairwise_map.mp paths)
        · cases normalizes
  · obtain ⟨rows, valid, rfl⟩ := Option.map_eq_some_iff.mp files_
    obtain ⟨normal, sorted⟩ := (accepted_of_validate valid).results
    constructor
    · intro file member
      obtain ⟨row, inside, rfl⟩ := mem_map.mp member
      exact normal row inside
    · rw [pairwise_map]
      exact sorted

/-- The manifest of a window as `finish` checks it again. -/
def rawFiles (files : List File) : List RawFile :=
  files.map fun row => ⟨row.path, row.sha256, some row.bytes⟩

/-- A manifest that `finish` checked again is one that `validate_receipt` accepts. -/
theorem files_valid {results : List RawFile} (filed : Filed files) (accepted : Accepted rt (rawFiles files) results) :
    (1 ≤ files.length ∧ files.length ≤ MAX_FILES) ∧ (∀ file ∈ files, validFile file = true) ∧
      (files.map File.path).Nodup ∧ (files.map File.bytes).sum ≤ MAX_TOTAL_BYTES := by
  obtain ⟨requireBytes, normalized, each, distinct, total, -⟩ := accepted.normalized
  have count := accepted.few
  rw [rawFiles, length_map] at count
  -- Each row keeps its path, since that was normalized when the window was opened.
  have kept : ∀ file ∈ files, ∀ result,
      rt.validateRow requireBytes ⟨file.path, file.sha256, some file.bytes⟩ = some result →
        result.path = file.path ∧ result.bytes = some file.bytes ∧ validFile file = true := by
    intro file member result passes
    obtain ⟨safe, -, bytes, bounded⟩ := validateRow_some passes
    obtain ⟨⟨value, first⟩, hash⟩ := filed.normal file member
    have path := safe_fixed first safe
    refine ⟨path, bytes, ?_⟩
    rw [path] at safe
    simp only [Option.all_some] at bounded
    rw [validFile, hash, bounded, decide_eq_true safe]
    rfl
  have rows : ∀ (files : List File) (normalized : List RawFile),
      List.Forall₂ (fun row result => rt.validateRow requireBytes row = some result) (rawFiles files) normalized →
      (∀ file ∈ files, ∀ result, rt.validateRow requireBytes ⟨file.path, file.sha256, some file.bytes⟩ = some result →
          result.path = file.path ∧ result.bytes = some file.bytes ∧ validFile file = true) →
      normalized.map RawFile.path = files.map File.path ∧
        (normalized.map fun row => row.bytes.getD 0) = files.map File.bytes ∧
        ∀ file ∈ files, validFile file = true := by
    intro files
    induction files with
    | nil =>
      intro normalized each _
      cases each
      exact ⟨rfl, rfl, nofun⟩
    | cons file files whole =>
      intro normalized each kept
      cases each with
      | cons passes rest =>
        obtain ⟨path, bytes, valid⟩ := kept file mem_cons_self _ passes
        obtain ⟨paths, sizes, valids⟩ := whole _ rest fun other member =>
          kept other (mem_cons_of_mem _ member)
        refine ⟨?_, ?_, ?_⟩
        · rw [map_cons, map_cons, path, paths]
        · rw [map_cons, map_cons, bytes, sizes]
          rfl
        · intro other member
          rcases mem_cons.mp member with rfl | later
          · exact valid
          · exact valids other later
  obtain ⟨paths, sizes, valid⟩ := rows files normalized each kept
  exact ⟨count, valid, paths ▸ distinct, sizes ▸ total⟩

theorem checked_valid (filed : Filed files) {disk : Disk} {checked : List Checked}
    (normalizes : rt.normalize_manifest disk (rawFiles files) false = some checked) :
    (1 ≤ files.length ∧ files.length ≤ MAX_FILES) ∧ (∀ file ∈ files, validFile file = true) ∧
      (files.map File.path).Nodup ∧ (files.map File.bytes).sum ≤ MAX_TOTAL_BYTES := by
  unfold Platform.normalize_manifest at normalizes
  split at normalizes
  · cases normalizes
  · next expected accepted => exact files_valid filed (accepted_of_validate accepted)

/-- A list as `sorted(set(values))` gives it. -/
structure Ordered (services : List String) : Prop where
  nodup : services.Nodup
  sorted : services.Pairwise (· ≤ ·)

theorem sortedSet_ordered (values : List String) : Ordered (sortedSet values) where
  nodup := (perm_insertionSort _ _).nodup_iff.mpr (nodup_dedup values)
  sorted := pairwise_insertionSort _ _

theorem mem_sortedSet {values : List String} {service : String} : service ∈ sortedSet values ↔ service ∈ values := by
  rw [sortedSet, mem_insertionSort, mem_dedup]

theorem Ordered.eq_sortedSet {services values : List String} (ordered : Ordered services)
    (same : ∀ service, service ∈ values ↔ service ∈ services) : sortedSet values = services := by
  have other := sortedSet_ordered values
  refine List.Perm.eq_of_pairwise (fun _ _ _ _ one two => le_antisymm one two) other.sorted ordered.sorted ?_
  rw [perm_ext_iff_of_nodup other.nodup ordered.nodup]
  exact fun service => mem_sortedSet.trans (same service)

theorem snapshot_services {snapshot : Snapshot} {services : List String} (ordered : Ordered services)
    {rows : List (String × Container)} (normal : rt.normalize_snapshot snapshot services = some rows) :
    rows.map Prod.fst = services := by
  rw [Platform.normalize_snapshot, ordered.eq_sortedSet fun _ => Iff.rfl] at normal
  have names : rows.map Prod.fst = services.map id := by
    refine Attempts.forall₂_map (Attempts.mapM_some normal) fun service row found => ?_
    obtain ⟨container, -, rfl⟩ := Option.map_eq_some_iff.mp found
    rfl
  rw [names, map_id]

theorem compared_services {services strict : List String} (ordered : Ordered services)
    {before after : List (String × Container)} (first : before.map Prod.fst = services)
    (second : after.map Prod.fst = services) :
    compare_snapshots before after strict = .ofRows (services.map (compareOne strict before after)) := by
  rw [compare_snapshots, first, second, ordered.eq_sortedSet fun service => ?_]
  rw [mem_append, or_self]

/-- What `start` guarantees about a window. -/
structure Window.Good (rt : Platform) (window : Window) : Prop where
  commit : isCommit window.commit = true
  reason : 10 ≤ window.reason.length ∧ window.reason.length ≤ 1000
  filed : Filed window.manifest
  digest : window.manifestSha256 = rt.manifestDigest window.manifest
  «protected» : Ordered window.protectedServices
  protected_some : window.protectedServices ≠ []
  strict : Ordered window.strictServices
  listed : ∀ service ∈ window.strictServices, service ∈ window.protectedServices
  backup : window.preChangeBackup.verified = true
  archive : window.preChangeSourceArchive.verified = true ∧
    isHash window.preChangeSourceArchive.sha256 = true ∧ window.preChangeSourceArchive.path ≠ ""
  services : window.before.map Prod.fst = window.protectedServices
  started : (rt.epoch window.startedAt).isSome = true

theorem clip_some {count : Nat} {text : String} (positive : 0 < count) (some_ : text ≠ "") : clip count text ≠ "" := by
  intro empty
  have none_ := congrArg String.toList empty
  rw [clip, String.toList_ofList] at none_
  rcases take_eq_nil_iff.mp none_ with zero | nil
  · omega
  · exact some_ (String.toList_inj.mp nil)

variable {window : Window}

theorem openedWindow_good {given : Start} (opens : rt.openedWindow given = some window) :
    window.Good rt ∧ window.status = .opened ∧
      rt.normalize_snapshot given.snapshot window.protectedServices = some window.before := by
  unfold Platform.openedWindow at opens
  dsimp only at opens
  split at opens
  · cases opens
  · next commit =>
    split at opens
    · cases opens
    · next reason =>
      split at opens
      · cases opens
      · next services =>
        split at opens
        · cases opens
        · split at opens
          · cases opens
          · next archive =>
            split at opens
            · next files before files_ normal =>
              cases opens
              rw [not_or, not_not] at services
              rw [not_or, not_or] at archive
              have ordered := sortedSet_ordered given.protectedServices
              refine ⟨⟨by simpa using commit, not_not.mp reason, startFiles_filed files_, rfl, ordered,
                services.1, sortedSet_ordered _, services.2, rfl, ⟨rfl, by simpa using archive.2.1,
                  clip_some (by decide) archive.2.2⟩, snapshot_services ordered normal, rt.epoch_iso _⟩, rfl,
                normal⟩
            · cases opens

structure Made (rt : Platform) (window : Window) (given : Finish) (id : String) (receipt : Receipt) :
    Prop where
  receipt_ : rt.receipt window given id = some receipt
  id_ : receipt.id = id
  window_ : receipt.windowId = given.windowId
  times_ : receipt.startedAt = window.startedAt ∧ receipt.completedAt = rt.iso given.now
  /-- The receipt is ready where nothing changed and everything is healthy. -/
  ready : ∃ checked after, rt.normalize_manifest given.disk (rawFiles window.manifest) false = some checked ∧
      rt.normalize_snapshot given.snapshot window.protectedServices = some after ∧
      (receipt.ready = true ↔ (∀ pair ∈ checked.zip window.manifest,
          pair.1.sha256 = pair.1.actualSha256 ∧ pair.1.bytes = pair.2.bytes) ∧
        (∀ service ∈ window.protectedServices,
          let compared := compareOne window.strictServices window.before after service
          compared.sameContainer = true ∧ compared.runningProcessUnrestarted = true ∧
            compared.strictContinuity = true) ∧
        given.health.all = true)

variable {receipt : Receipt}

theorem validFiles_of (filed : Filed receipt.files) (digest : receipt.manifestSha256 = rt.manifestDigest receipt.files)
    (valid : (1 ≤ receipt.files.length ∧ receipt.files.length ≤ MAX_FILES) ∧
      (∀ file ∈ receipt.files, validFile file = true) ∧ (receipt.files.map File.path).Nodup ∧
      (receipt.files.map File.bytes).sum ≤ MAX_TOTAL_BYTES) : rt.validFiles receipt = true := by
  obtain ⟨count, each, distinct, total⟩ := valid
  simp only [Platform.validFiles, Bool.and_eq_true, decide_eq_true_eq, all_eq_true]
  exact ⟨⟨⟨⟨⟨count, each⟩, distinct⟩, total⟩, filed.sorted.insertionSort_eq.symm⟩, digest⟩

theorem validServices_of (ordered : Ordered receipt.protectedServices)
    (some_ : receipt.protectedServices ≠ []) (strict : Ordered receipt.strictServices)
    (listed : ∀ service ∈ receipt.strictServices, service ∈ receipt.protectedServices)
    {compare : String → Compared} (names : ∀ service, (compare service).service = service)
    (compared : receipt.containerContinuity = .ofRows (receipt.protectedServices.map compare)) :
    Platform.validServices receipt = true := by
  have rows : receipt.containerContinuity.rows = receipt.protectedServices.map compare := by
    rw [compared, Continuity.ofRows]
  simp only [Platform.validServices, Bool.and_eq_true, decide_eq_true_eq, all_eq_true, contains_iff_mem]
  refine ⟨⟨⟨⟨⟨some_, (ordered.eq_sortedSet fun _ => Iff.rfl).symm⟩,
    (strict.eq_sortedSet fun _ => Iff.rfl).symm⟩, listed⟩, ?_⟩, ?_⟩
  · rw [rows, map_map]
    exact (map_congr_left fun service _ => names service).trans (map_id _)
  · rw [rows]
    exact compared

theorem ready_iff {checked : List Checked} {after : List (String × Container)}
    {health : Health} (services : List String)
    (compared : compare_snapshots window.before after window.strictServices =
      .ofRows (services.map (compareOne window.strictServices window.before after))) :
    (Invariants.mk (Platform.manifestMatches window checked)
        (compare_snapshots window.before after window.strictServices).containersUnrecreated
        (compare_snapshots window.before after window.strictServices).runningProcessesUnrestarted
        (compare_snapshots window.before after window.strictServices).strictServicesContinuous
        health).all = true ↔
      (∀ pair ∈ checked.zip window.manifest, pair.1.sha256 = pair.1.actualSha256 ∧ pair.1.bytes = pair.2.bytes) ∧
      (∀ service ∈ services,
        let compared := compareOne window.strictServices window.before after service
        compared.sameContainer = true ∧ compared.runningProcessUnrestarted = true ∧
          compared.strictContinuity = true) ∧ health.all = true := by
  rw [compared]
  simp only [Invariants.all, Continuity.ofRows, Platform.manifestMatches, Bool.and_eq_true,
    all_eq_true, decide_eq_true_eq, forall_mem_map]
  constructor
  · rintro ⟨⟨⟨⟨files, containers⟩, processes⟩, strict⟩, healthy⟩
    exact ⟨files, fun service member =>
      ⟨containers service member, processes service member, strict service member⟩, healthy⟩
  · rintro ⟨files, all, healthy⟩
    exact ⟨⟨⟨⟨files, fun service member => (all service member).1⟩, fun service member => (all service member).2.1⟩,
      fun service member => (all service member).2.2⟩, healthy⟩

/-- `finish` writes a receipt that is accepted, where its backup and its health agree and its time is
not before the start of the window. -/
theorem receipt_accepted (good : window.Good rt) {given : Finish} {id : String}
    (writes : rt.receipt window given id = some receipt) :
    Made rt window given id receipt ∧ (named RECEIPT_START id = true → named WINDOW_START given.windowId = true →
        given.backup.ok = given.health.backupVerified → rt.validTimes receipt = true →
          rt.verify_signed_document (rt.signed_document receipt given.now) = true) := by
  have whole := writes
  unfold Platform.receipt at writes
  dsimp only at writes
  split at writes
  · next checked after normalizes normal =>
    have services := snapshot_services good.protected normal
    have compared : compare_snapshots window.before after window.strictServices =
        .ofRows (window.protectedServices.map (compareOne window.strictServices window.before after)) :=
      compared_services good.protected good.services services
    obtain rfl := Option.some.inj writes
    refine ⟨⟨whole, rfl, rfl, ⟨rfl, rfl⟩, checked, after, normalizes, normal,
      ready_iff window.protectedServices compared⟩, fun names windows agrees times => ?_⟩
    have principal : (rt.receiptOf window given id checked after).principalId ≠ "" := by
      refine clip_some (by decide) ?_
      split
      · decide
      · assumption
    have files : rt.validFiles (rt.receiptOf window given id checked after) = true :=
      validFiles_of good.filed good.digest (checked_valid good.filed normalizes)
    have listed : Platform.validServices (rt.receiptOf window given id checked after) = true :=
      validServices_of good.protected good.protected_some good.strict good.listed (fun _ => rfl) compared
    have invariants : Platform.validInvariants (rt.receiptOf window given id checked after) = true := by
      simp [Platform.receiptOf, Platform.validInvariants, agrees, good.backup, good.archive.1, good.archive.2.1,
        good.archive.2.2]
    have accepted : rt.validate_receipt (rt.receiptOf window given id checked after) = true := by
      rw [Platform.validate_receipt, times, files, listed, invariants, decide_eq_true principal]
      simp [Platform.receiptOf, names, windows, good.commit, good.reason.1, good.reason.2]
    simp [Platform.verify_signed_document, Platform.signed_document, rt.epoch_iso, accepted, rt.digest_hash,
      rt.mac_hash]
  · cases writes

end Dash.Assurance
