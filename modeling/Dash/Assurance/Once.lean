import Dash.Assurance.Accepted

/-! A window has one receipt, unless `finish` ends between its two files. -/

set_option autoImplicit false

namespace Dash.Assurance

open Dash.Python List
open Function (update_of_ne update_self)

variable {rt : Platform} {system : System}

/-- What the receipt of `given` says about the window that `started` began. -/
def Told (rt : Platform) (started : Snapshot) (window : Window) (given : Finish) (ready : Bool) : Prop :=
  ∃ checked before after, rt.normalize_manifest given.disk (rawFiles window.manifest) false = some checked ∧
      rt.normalize_snapshot started window.protectedServices = some before ∧
      rt.normalize_snapshot given.snapshot window.protectedServices = some after ∧
      (ready = true ↔ (∀ pair ∈ checked.zip window.manifest,
          pair.1.sha256 = pair.1.actualSha256 ∧ pair.1.bytes = pair.2.bytes) ∧
        (∀ service ∈ window.protectedServices,
          let compared := compareOne window.strictServices before after service
          compared.sameContainer = true ∧ compared.runningProcessUnrestarted = true ∧
            compared.strictContinuity = true) ∧
        given.health.all = true)

def Written (status : Status) (entries : List (Document × Finish)) : Prop :=
  match status with
  | .opened => entries = []
  | .completed receiptId ready =>
    ∃ entry, entries = [entry] ∧ entry.1.receipt.id = receiptId ∧ entry.1.receipt.ready = ready
  | .cancelled => entries = []

structure Kept (rt : Platform) (system : System) (id : String) (window : Window) : Prop where
  drawn : ∃ number < system.tokens, id = WINDOW_START ++ rt.token number
  good : window.Good rt
  begun : ∃ snapshot, system.begun id = some snapshot ∧
    rt.normalize_snapshot snapshot window.protectedServices = some window.before
  written : Written window.status (system.receipts id)

/-- A receipt that is accepted, and tells what was given to `start` and to `finish`. -/
def Stands (rt : Platform) (system : System) (entry : Document × Finish) : Prop :=
  rt.verify_signed_document entry.1 = true ∧
    ∃ window snapshot, system.windows entry.1.receipt.windowId = some window ∧
      system.begun entry.1.receipt.windowId = some snapshot ∧
      Told rt snapshot window entry.2 entry.1.receipt.ready

structure Invariant (rt : Platform) (system : System) : Prop where
  kept : ∀ id window, system.windows id = some window → Kept rt system id window
  stands : ∀ entry ∈ system.evidence, Stands rt system entry

theorem start_invariant : Invariant rt start where
  kept := fun _ _ found => Option.some_ne_none _ found.symm |>.elim
  stands := fun _ member => (not_mem_nil member).elim

theorem Invariant.no_receipt (invariant : Invariant rt system) {id : String}
    (unknown : system.windows id = none) : system.receipts id = [] := by
  refine filter_eq_nil_iff.mpr fun entry member names => ?_
  obtain ⟨-, window, -, known, -⟩ := invariant.stands entry member
  rw [of_decide_eq_true names, unknown] at known
  cases known

theorem Invariant.draws (invariant : Invariant rt system) {tokens : Nat} (more : system.tokens ≤ tokens) :
    Invariant rt { system with tokens := tokens } where
  kept id window found :=
    let kept := invariant.kept id window found
    have ⟨number, below, names⟩ := kept.drawn
    ⟨⟨number, Nat.lt_of_lt_of_le below more, names⟩, kept.good, kept.begun, kept.written⟩
  stands := invariant.stands

def Fresh (rt : Platform) (system : System) : Prop :=
  ∀ number < system.tokens, rt.token number ≠ rt.token system.tokens

theorem Invariant.fresh_window (invariant : Invariant rt system) (fresh : Fresh rt system) :
    system.windows (WINDOW_START ++ rt.token system.tokens) = none := by
  cases found : system.windows (WINDOW_START ++ rt.token system.tokens) with
  | none => rfl
  | some window =>
    obtain ⟨number, below, names⟩ := (invariant.kept _ window found).drawn
    exact absurd (append_token names).symm (fresh number below)

theorem begin_invariant (invariant : Invariant rt system) (fresh : Fresh rt system) (given : Start)
    (fate : Fate) : Invariant rt (rt.begin given fate system) := by
  unfold Platform.begin
  split
  · exact invariant
  · next window opens =>
    have later := invariant.draws (Nat.le_succ system.tokens)
    have unknown := invariant.fresh_window fresh
    obtain ⟨good, status, normal⟩ := openedWindow_good opens
    dsimp only
    split
    · exact later
    · constructor
      · intro id kept found
        dsimp only at found
        by_cases same : id = WINDOW_START ++ rt.token system.tokens
        · subst same
          rw [update_self] at found
          cases found
          refine ⟨⟨_, Nat.lt_succ_self _, rfl⟩, good, ⟨_, update_self .., normal⟩, ?_⟩
          rw [status]
          exact invariant.no_receipt unknown
        · rw [update_of_ne same] at found
          obtain ⟨drawn, good, ⟨snapshot, begun, normal⟩, written⟩ := later.kept id kept found
          exact ⟨drawn, good, ⟨snapshot, (update_of_ne same ..).trans begun, normal⟩, written⟩
      · intro entry member
        obtain ⟨verified, other, snapshot, found, begun, told⟩ := invariant.stands entry member
        -- A receipt is of a window that was there before.
        have apart : entry.1.receipt.windowId ≠ WINDOW_START ++ rt.token system.tokens := by
          intro same
          rw [same, unknown] at found
          cases found
        exact ⟨verified, other, snapshot, (update_of_ne apart ..).trans found,
          (update_of_ne apart ..).trans begun, told⟩

/-- A window gets a status, and with it the receipts that the status names. -/
theorem Invariant.updates (invariant : Invariant rt system) {id : String} {window : Window}
    (found : system.windows id = some window) {status : Status} {tokens : Nat}
    (more : system.tokens ≤ tokens) {entries evidence : List (Document × Finish)}
    (whole : evidence = system.evidence ++ entries)
    (own : ∀ entry ∈ entries, entry.1.receipt.windowId = id)
    (verified : ∀ entry ∈ entries, rt.verify_signed_document entry.1 = true)
    (told : ∀ snapshot, system.begun id = some snapshot →
      rt.normalize_snapshot snapshot window.protectedServices = some window.before →
        ∀ entry ∈ entries, Told rt snapshot window entry.2 entry.1.receipt.ready)
    (written : Written status (system.receipts id ++ entries)) :
    Invariant rt
      { tokens := tokens
        windows := Function.update system.windows id (some { window with status := status })
        evidence := evidence
        begun := system.begun } := by
  subst whole
  have kept := invariant.kept id window found
  obtain ⟨snapshot, begun, normal⟩ := kept.begun
  constructor
  · intro other there stored
    dsimp only at stored
    by_cases same : other = id
    · subst same
      rw [update_self] at stored
      cases stored
      obtain ⟨number, below, names⟩ := kept.drawn
      refine ⟨⟨number, Nat.lt_of_lt_of_le below more, names⟩, ?_, ⟨snapshot, begun, normal⟩, ?_⟩
      · exact ⟨kept.good.commit, kept.good.reason, kept.good.filed, kept.good.digest,
          kept.good.protected, kept.good.protected_some, kept.good.strict, kept.good.listed,
          kept.good.backup, kept.good.archive, kept.good.services, kept.good.started⟩
      · rw [System.receipts, filter_append, filter_eq_self.mpr fun entry member => decide_eq_true (own entry member)]
        exact written
    · rw [update_of_ne same] at stored
      obtain ⟨⟨number, below, names⟩, good, begun, written⟩ := invariant.kept other there stored
      refine ⟨⟨number, Nat.lt_of_lt_of_le below more, names⟩, good, begun, ?_⟩
      have apart : (entries.filter fun entry => entry.1.receipt.windowId = other) = [] :=
        filter_eq_nil_iff.mpr fun entry member names =>
          same ((of_decide_eq_true names).symm.trans (own entry member))
      rw [System.receipts, filter_append, apart, append_nil]
      exact written
  · intro entry member
    rcases mem_append.mp member with old | new
    · obtain ⟨accepted, other, first, there, began, tells⟩ := invariant.stands entry old
      refine ⟨accepted, ?_⟩
      by_cases same : entry.1.receipt.windowId = id
      · rw [same] at there began ⊢
        cases found.symm.trans there
        exact ⟨{ window with status := status }, first, update_self .., began, tells⟩
      · exact ⟨other, first, (update_of_ne same ..).trans there, began, tells⟩
    · refine ⟨verified entry new, { window with status := status }, snapshot, ?_, ?_, told snapshot begun normal entry new⟩
      · rw [own entry new]
        exact update_self ..
      · rw [own entry new]
        exact begun

theorem cancel_invariant (invariant : Invariant rt system) (windowId reason : String) (fate : Fate) :
    Invariant rt (cancel windowId reason fate system) := by
  unfold cancel
  dsimp only
  split
  · exact invariant
  · split
    · exact invariant
    · next window found =>
      split
      · exact invariant
      · next open_ =>
        rw [not_or, not_not] at open_
        have written := (invariant.kept windowId window found).written
        rw [open_.1] at written
        refine invariant.updates found (Nat.le_refl _) (append_nil _).symm ?_ ?_ ?_ ?_
        · exact fun _ member => absurd member not_mem_nil
        · exact fun _ member => absurd member not_mem_nil
        · exact fun _ _ _ _ member => absurd member not_mem_nil
        · rw [append_nil]
          exact written

/-- `finish` is not before `start`. -/
def Platform.notBefore (rt : Platform) (window : Window) (now : ℚ) : Bool :=
  match rt.epoch window.startedAt, rt.epoch (rt.iso now) with
  | some started, some completed => decide (started ≤ completed)
  | _, _ => false

/-- A `finish` does not end between its two files, and what it is given agrees. -/
structure Whole (rt : Platform) (system : System) (given : Finish) (fate : Fate) : Prop where
  fate : fate ≠ .afterFirst
  agrees : given.backup.ok = given.health.backupVerified
  times : ∀ window, system.windows given.windowId = some window → rt.notBefore window given.now = true

theorem finish_invariant (invariant : Invariant rt system) {given : Finish} {fate : Fate}
    (whole : Whole rt system given fate) : Invariant rt (rt.finish given fate system) := by
  unfold Platform.finish
  split
  · exact invariant
  · next window found =>
    have kept := invariant.kept given.windowId window found
    split
    · exact invariant
    · next open_ =>
      rw [not_or, not_not] at open_
      have written := kept.written
      rw [open_.1] at written
      dsimp only
      split
      · exact invariant
      · next receipt writes =>
        obtain ⟨made, accepted⟩ := receipt_accepted kept.good writes
        cases fate with
        | beforeFirst => exact invariant.draws (Nat.le_succ _)
        | afterFirst => exact absurd rfl whole.fate
        | whole =>
          refine invariant.updates found (Nat.le_succ _) rfl ?_ ?_ ?_ ?_
          · intro entry member
            cases mem_singleton.mp member
            exact made.window_
          · intro entry member
            cases mem_singleton.mp member
            obtain ⟨number, -, names⟩ := kept.drawn
            refine accepted (named_append (rt.token_hex _)) ?_ whole.agrees ?_
            · rw [names]
              exact named_append (rt.token_hex number)
            · have times := whole.times window found
              have same := made.times_
              unfold Platform.notBefore at times
              unfold Platform.validTimes
              rw [same.1, same.2]
              exact times
          · intro snapshot _ normal entry member
            cases mem_singleton.mp member
            obtain ⟨checked, after, normalizes, finishes, ready⟩ := made.ready
            exact ⟨checked, window.before, after, normalizes, normal, finishes, ready⟩
          · have none_ : system.receipts given.windowId = [] := written
            exact ⟨_, by rw [none_]; rfl, made.id_, rfl⟩

/-- Each `finish` is whole, and the tokens are drawn apart. -/
def Orderly (rt : Platform) (system : System) : List Call → Prop
  | [] => True
  | call :: rest =>
    (match call with
      | .start _ _ => Fresh rt system
      | .finish given fate => Whole rt system given fate
      | .cancel _ _ _ => True) ∧ Orderly rt (rt.perform system call) rest

theorem foldl_invariant (calls : List Call) (invariant : Invariant rt system)
    (orderly : Orderly rt system calls) : Invariant rt (calls.foldl rt.perform system) := by
  induction calls generalizing system with
  | nil => exact invariant
  | cons call rest whole =>
    obtain ⟨first, later⟩ := orderly
    refine whole ?_ later
    cases call with
    | start given fate => exact begin_invariant invariant first given fate
    | finish given fate => exact finish_invariant invariant first
    | cancel windowId reason fate => exact cancel_invariant invariant windowId reason fate

/-- Where no `finish` ends between its two files, a window has at most one receipt, which its status
names, and each receipt is accepted and tells what `start` and `finish` were given. -/
theorem one_receipt (rt : Platform) (calls : List Call) (orderly : Orderly rt start calls) :
    (∀ id, ((rt.run calls).receipts id).length ≤ 1) ∧
    (∀ id window, (rt.run calls).windows id = some window → window.status = .cancelled →
      (rt.run calls).receipts id = []) ∧
    (∀ id window receiptId ready, (rt.run calls).windows id = some window → window.status = .completed receiptId ready →
        ∃ entry, (rt.run calls).receipts id = [entry] ∧ entry.1.receipt.id = receiptId ∧
          entry.1.receipt.ready = ready) ∧
    ∀ entry ∈ (rt.run calls).evidence, Stands rt (rt.run calls) entry := by
  have invariant : Invariant rt (rt.run calls) := foldl_invariant calls start_invariant orderly
  refine ⟨fun id => ?_, fun id window found status => ?_, fun id window receiptId ready found status => ?_,
    invariant.stands⟩
  · cases found : (rt.run calls).windows id with
    | none =>
      rw [invariant.no_receipt found]
      exact Nat.zero_le 1
    | some window =>
      have written := (invariant.kept id window found).written
      cases status : window.status with
      | completed receiptId ready =>
        rw [status] at written
        obtain ⟨entry, single, -⟩ := written
        rw [single]
        exact Nat.le_refl 1
      | opened =>
        rw [status] at written
        rw [show (rt.run calls).receipts id = [] from written]
        exact Nat.zero_le 1
      | cancelled =>
        rw [status] at written
        rw [show (rt.run calls).receipts id = [] from written]
        exact Nat.zero_le 1
  · have written := (invariant.kept id window found).written
    rw [status] at written
    exact written
  · have written := (invariant.kept id window found).written
    rw [status] at written
    exact written

/-! A `finish` that is killed after its receipt, and is done again. -/

def hexDigit (number : Nat) : Char :=
  if number % 16 < 10 then Char.ofNat (48 + number % 16) else Char.ofNat (87 + number % 16)

theorem hexDigit_hex (number : Nat) : isHex (hexDigit number) = true := by
  have each : ∀ digit < 16, isHex (hexDigit digit) = true := by decide
  have same : hexDigit number = hexDigit (number % 16) := by
    rw [hexDigit, hexDigit, Nat.mod_mod]
  rw [same]
  exact each _ (Nat.mod_lt _ (by decide))

def zeros (count : Nat) : List Char := List.replicate count '0'

def hash : String := String.ofList (zeros 64)

/-- A platform at the start of 1970. -/
def platform : Platform where
  lower := id
  iso time := if time = MAX_WINDOW_SECONDS then "1970-01-01T06:00:00Z" else "1970-01-01T00:00:00Z"
  epoch text :=
    if text = "1970-01-01T00:00:00Z" then some 0
    else if text = "1970-01-01T06:00:00Z" then some MAX_WINDOW_SECONDS else none
  epoch_iso time := by
    by_cases six : time = MAX_WINDOW_SECONDS
    · rw [if_pos six]
      decide
    · rw [if_neg six]
      decide
  manifestDigest _ := hash
  digest _ := hash
  digest_hash _ := by decide
  fingerprint := hash
  mac _ _ _ _ := hash
  mac_hash _ _ _ _ := by decide
  token number := String.ofList (zeros 31 ++ [hexDigit number])
  token_hex number := by
    have ends := hexDigit_hex number
    have first : (zeros 31).all isHex = true := by decide
    rw [String.toList_ofList, isToken, all_append, first, all_cons, ends]
    rfl

def workspace : Disk := fun path => if path = "README.md" then some (1, hash) else none

def opening : Start where
  commit := String.ofList (zeros 40)
  reason := "planned deployment"
  manifest := [⟨"README.md", hash, some 1⟩]
  snapshot _ := none
  protectedServices := ["admin"]
  strictServices := []
  recoveryBackup := ⟨true, "backups/1", 0⟩
  sourceRollback := ⟨"backups/2", hash, 1, true⟩
  workspaceMatches := true
  disk := workspace
  now := 0

def opened : String := WINDOW_START ++ platform.token 0

def closing : Finish where
  windowId := opened
  principalId := "operator"
  snapshot _ := none
  health := ⟨true, true, true, true, true, true, true⟩
  backup := ⟨true, "backups/3", 0⟩
  disk := workspace
  now := 0

/-- A second `finish` writes a second receipt, and a `cancel` leaves the first beside it. -/
theorem killed_twice : ((platform.run [.start opening .whole, .finish closing .afterFirst,
      .finish closing .whole]).receipts opened).length = 2 ∧
    ((platform.run [.start opening .whole, .finish closing .afterFirst,
      .cancel opened "not wanted" .whole]).receipts opened).length = 1 ∧
    ((platform.run [.start opening .whole, .finish closing .afterFirst,
      .cancel opened "not wanted" .whole]).windows opened).map Window.status = some .cancelled := by
  decide +kernel

theorem one_receipt_opened :
    ((platform.run [.start opening .whole, .finish closing .whole]).receipts opened).length ≤ 1 := by
  have fresh : Fresh platform start := fun number below => absurd below (Nat.not_lt_zero number)
  have timed : ((platform.perform start (.start opening .whole)).windows opened).all
      (fun window => platform.notBefore window closing.now) = true := by
    decide +kernel
  have whole : Whole platform (platform.perform start (.start opening .whole)) closing .whole := by
    refine ⟨by decide, rfl, fun window there => ?_⟩
    have stored : (platform.perform start (.start opening .whole)).windows opened = some window := there
    rw [stored] at timed
    exact timed
  have orderly : Orderly platform start [.start opening .whole, .finish closing .whole] :=
    ⟨fresh, whole, trivial⟩
  exact (one_receipt platform _ orderly).1 opened

end Dash.Assurance
