import Dash.Audit.Effects

/-! Appends of several processes to one ledger.

An append takes the write lock and checks the head, commits its row and gives the lock back,
and then replaces the anchor. Between the last two the head and the anchor differ, so every
other append is refused until the anchor is in place.
-/

set_option autoImplicit false

namespace Dash.Audit

open Dash.Python Dash.Foundation List

variable {F : Type}

/-- The ledger and the appends under way, each under the number of its call. -/
structure System where
  disk : Disk
  /-- The append that holds the write lock, with the row it inserts. -/
  writing : Option (Nat × Row)
  /-- Appends that have committed their row and not yet replaced the anchor. -/
  anchoring : List (Nat × Row)
  returned : List (Nat × Receipt)
  refused : List (Nat × Exception)

/-- A ledger after `initialize`. -/
def System.opened (anchor : String) : System := ⟨⟨[], anchor⟩, none, [], [], []⟩

/-- The receipts of the appends that added a row, in the order they returned. -/
def System.inserted (system : System) : List Receipt :=
  (system.returned.map Prod.snd).filter fun receipt => !receipt.idempotent

inductive Act (F : Type) where
  /-- `begin immediate` and the head check of an append. -/
  | begin (call : Nat) (event : Value F) (verifyChain : Bool)
  | commit (call : Nat)
  /-- The anchor is replaced at a time, and the append returns. -/
  | anchor (call : Nat) (updatedAt : String)

namespace Platform

variable (rt : Platform F)

/-- One step of one append. A step that has to wait is not taken. -/
def step (system : System) : Act F → Option System
  | .begin call event verifyChain =>
    if system.writing.isSome then none
    else
      match rt.admitEvent event verifyChain system.disk with
      | .error why => some { system with refused := system.refused ++ [(call, why)] }
      | .ok (.known row) =>
        some { system with returned := system.returned ++ [(call, .existing row)] }
      | .ok (.fresh row) => some { system with writing := some (call, row) }
  | .commit call =>
    match system.writing with
    | some (owner, row) =>
      if owner ≠ call then none
      else
        match system.disk.insert row with
        | .ok disk => some { system with
            disk := disk, writing := none, anchoring := system.anchoring ++ [(call, row)] }
        | .error why => some { system with
            writing := none, refused := system.refused ++ [(call, why)] }
    | none => none
  | .anchor call updatedAt =>
    match system.anchoring.find? fun entry => entry.1 = call with
    | some (_, row) =>
      let anchoring := system.anchoring.filter fun entry => entry.1 ≠ call
      match rt.writeAnchor row updatedAt system.disk with
      | .ok disk => some { system with
          disk := disk, anchoring := anchoring,
          returned := system.returned ++ [(call, .inserted row)] }
      | .error why => some { system with
          anchoring := anchoring, refused := system.refused ++ [(call, why)] }
    | none => none

def run (system : System) : List (Act F) → Option System
  | [] => some system
  | act :: rest => (rt.step system act).bind fun next => run next rest

structure Serial (system : System) (settled : List Row) : Prop where
  chain : rt.Chained system.disk.rows
  rows : system.disk.rows = settled ++ system.anchoring.map Prod.snd
  single : system.anchoring.length ≤ 1
  anchored : rt.AnchoredAt system.disk settled.length (place settled).1
  writing : ∀ call row, system.writing = some (call, row) → system.anchoring = [] ∧
    rt.Linked (place system.disk.rows) row ∧ row.eventId ∉ system.disk.rows.map Row.eventId
  inserted : system.inserted = settled.map Receipt.inserted
  repeats : ∀ entry ∈ system.returned, entry.2.idempotent = true → ∃ row ∈ system.disk.rows, entry.2 = .existing row

variable {rt}

theorem Serial.opened {updatedAt text : String} (written : rt.anchorText 0 ZERO_HMAC updatedAt = .ok text) :
    rt.Serial (System.opened text) [] where
  chain := trivial
  rows := rfl
  single := Nat.zero_le 1
  anchored := rt.anchoredAt_text [] le_rfl zero_digest written
  writing _ _ impossible := nomatch impossible
  inserted := rfl
  repeats _ impossible := nomatch impossible

/-- What one step leaves: the chain, an anchor that does not go back, and where the step is a
refusal the same ledger. -/
def Kept (rt : Platform F) (system : System) (settled : List Row) (next : System) : Prop :=
  (∃ later, settled <+: later ∧ rt.Serial next later) ∧ (next.refused ≠ system.refused → next.disk = system.disk)

variable {settled : List Row} {system next : System} {call : Nat}

theorem Serial.begin {event : Value F} {verifyChain : Bool} (serial : rt.Serial system settled)
    (done : rt.step system (.begin call event verifyChain) = some next) :
    Kept rt system settled next := by
  rw [step] at done
  split at done
  · cases done
  next idle =>
    cases admitted : rt.admitEvent event verifyChain system.disk with
    | error why =>
      rw [admitted] at done
      cases done
      exact ⟨⟨settled, prefix_rfl, { serial with }⟩, fun _ => rfl⟩
    | ok admission =>
      obtain ⟨normalized, -, -, ⟨level, -⟩, found⟩ := (admit_iff serial.chain serial.anchored).mp admitted
      -- The head is checked, so no append is between its commit and the anchor.
      have quiet : system.anchoring = [] := by
        rw [serial.rows, length_append, length_map] at level
        exact length_eq_zero_iff.mp (by omega)
      rw [admitted] at done
      cases admission with
      | known row =>
        cases done
        have member := (lookup_known found).1
        refine ⟨⟨settled, prefix_rfl, { serial with inserted := ?_, repeats := ?_ }⟩, fun changed => absurd rfl changed⟩
        · have same := serial.inserted
          simp only [System.inserted, map_append, filter_append] at same ⊢
          simp [same, Receipt.existing]
        · intro entry present idempotent
          rcases mem_append.mp present with old | new
          · exact serial.repeats entry old idempotent
          · rw [mem_singleton.mp new]
            exact ⟨row, member, rfl⟩
      | fresh row =>
        cases done
        obtain ⟨rfl, absent⟩ := lookup_fresh found
        refine ⟨⟨settled, prefix_rfl, { serial with writing := ?_ }⟩, fun changed => absurd rfl changed⟩
        intro owner other same
        cases same
        exact ⟨quiet, rt.linked_nextRow _ _, absent⟩

theorem Serial.commit (serial : rt.Serial system settled)
    (done : rt.step system (.commit call) = some next) : Kept rt system settled next := by
  rw [step] at done
  cases held : system.writing with
  | none => simp [held] at done
  | some entry =>
    obtain ⟨owner, row⟩ := entry
    obtain ⟨quiet, linked, absent⟩ := serial.writing owner row held
    have rows := serial.rows
    rw [quiet, map_nil, append_nil] at rows
    simp only [held, insert_ok serial.chain linked absent] at done
    split at done
    · cases done
    · cases done
      refine ⟨⟨settled, prefix_rfl, ?_⟩, fun changed => absurd rfl changed⟩
      exact {
        chain := serial.chain.concat linked
        rows := by simp [quiet, rows]
        single := by simp [quiet]
        anchored := serial.anchored
        writing := fun _ _ impossible => nomatch impossible
        inserted := serial.inserted
        repeats := fun entry member idempotent => by
          obtain ⟨old, present, same⟩ := serial.repeats entry member idempotent
          exact ⟨old, mem_append_left _ present, same⟩ }

theorem Serial.anchor {updatedAt : String} (serial : rt.Serial system settled)
    (done : rt.step system (.anchor call updatedAt) = some next) :
    Kept rt system settled next := by
  rw [step] at done
  cases found : system.anchoring.find? fun entry => entry.1 = call with
  | none => simp [found] at done
  | some entry =>
    obtain ⟨owner, row⟩ := entry
    have member := List.mem_of_find?_eq_some found
    have mine : owner = call := by simpa using List.find?_some found
    have only : system.anchoring = [(owner, row)] := by
      have single := serial.single
      match pending : system.anchoring, single with
      | [], _ => simp [pending] at member
      | [other], _ =>
        rw [pending] at member
        rw [mem_singleton.mp member]
      | _ :: _ :: _, single => simp at single
    have rows := serial.rows
    rw [only, map_singleton] at rows
    have last := serial.chain
    rw [rows] at last
    have number : row.sequence = (settled.length : Int) + 1 := last.init.2.sequence.trans (place_snd settled)
    have digest : isDigest row.eventHmacSha256 = true := by
      have code := last.code_digest
      rwa [place_concat] at code
    obtain ⟨text, written, anchored⟩ := writeAnchor_ok rt row updatedAt system.disk (by omega) digest
    simp only [found, written] at done
    cases done
    refine ⟨⟨settled ++ [row], prefix_append _ _, ?_⟩, fun changed => absurd rfl changed⟩
    exact {
      chain := serial.chain
      rows := by simp [only, rows, mine]
      single := by simp [only, mine]
      anchored := by
        rw [place_concat, length_append, length_singleton]
        rw [number] at anchored
        exact_mod_cast anchored
      writing := fun caller other busy => by
        have idle := (serial.writing caller other busy).1
        rw [only] at idle
        cases idle
      inserted := by
        have same := serial.inserted
        simp only [System.inserted, map_append, filter_append] at same ⊢
        simp [same, Receipt.inserted]
      repeats := fun entry present idempotent => by
        rcases mem_append.mp present with old | new
        · exact serial.repeats entry old idempotent
        · rw [mem_singleton.mp new] at idempotent
          cases idempotent }

theorem Serial.step {act : Act F} (serial : rt.Serial system settled) (done : rt.step system act = some next) :
    Kept rt system settled next := by
  cases act with
  | begin call event verifyChain => exact serial.begin done
  | commit call => exact serial.commit done
  | anchor call updatedAt => exact serial.anchor done

variable {acts : List (Act F)}

theorem Serial.run : ∀ {system last : System} {settled : List Row},
    rt.Serial system settled → rt.run system acts = some last → ∃ later, settled <+: later ∧ rt.Serial last later := by
  induction acts with
  | nil =>
    intro system last settled serial ran
    cases ran
    exact ⟨settled, prefix_rfl, serial⟩
  | cons act rest ih =>
    intro system last settled serial ran
    obtain ⟨next, done, ran⟩ := Option.bind_eq_some_iff.mp ran
    obtain ⟨⟨middle, grown, serial⟩, -⟩ := serial.step done
    obtain ⟨later, more, serial⟩ := ih serial ran
    exact ⟨later, grown.trans more, serial⟩

theorem run_append {first second : List (Act F)} {system : System} : rt.run system (first ++ second) =
      (rt.run system first).bind fun middle => rt.run middle second := by
  induction first generalizing system with
  | nil => rfl
  | cons act rest ih => simp [run, Option.bind_assoc, ih]

/-- The row was made of the event that an append of this number was called with. -/
def Begun (rt : Platform F) (acts : List (Act F)) (call : Nat) (row : Row) : Prop :=
  ∃ event verifyChain normalized, Act.begin call event verifyChain ∈ acts ∧
    rt.normalizeEvent event = .ok normalized ∧ row.eventJson = normalized.encoded

theorem Begun.later {acts more : List (Act F)} {row : Row}
    (begun : Begun rt acts call row) : Begun rt (acts ++ more) call row := by
  obtain ⟨event, verifyChain, normalized, member, rest⟩ := begun
  exact ⟨event, verifyChain, normalized, mem_append_left _ member, rest⟩

structure Owned (rt : Platform F) (acts : List (Act F)) (system : System) : Prop where
  writing : ∀ call row, system.writing = some (call, row) → Begun rt acts call row
  anchoring : ∀ entry ∈ system.anchoring, Begun rt acts entry.1 entry.2
  returned : ∀ entry ∈ system.returned, entry.2.idempotent = false →
    ∃ row ∈ system.disk.rows, entry.2 = .inserted row ∧ Begun rt acts entry.1 row

theorem Owned.opened (text : String) : Owned rt [] (System.opened text) where
  writing _ _ impossible := nomatch impossible
  anchoring _ impossible := nomatch impossible
  returned _ impossible := nomatch impossible

theorem Owned.later {acts more : List (Act F)} {system : System} (owned : Owned rt acts system) :
    Owned rt (acts ++ more) system where
  writing call row busy := (owned.writing call row busy).later
  anchoring entry member := (owned.anchoring entry member).later
  returned entry member added := by
    obtain ⟨row, present, same, begun⟩ := owned.returned entry member added
    exact ⟨row, present, same, begun.later⟩

theorem Owned.step {act : Act F} (owned : Owned rt acts system) (serial : rt.Serial system settled)
    (done : rt.step system act = some next) : Owned rt (acts ++ [act]) next := by
  have kept : Owned rt (acts ++ [act]) system := owned.later
  cases act with
  | begin call event verifyChain =>
    rw [Platform.step] at done
    split at done
    · cases done
    cases admitted : rt.admitEvent event verifyChain system.disk with
    | error why =>
      rw [admitted] at done
      cases done
      exact ⟨kept.writing, kept.anchoring, kept.returned⟩
    | ok admission =>
      obtain ⟨normalized, accepted, -, -, found⟩ := (admit_iff serial.chain serial.anchored).mp admitted
      rw [admitted] at done
      cases admission with
      | known row =>
        cases done
        refine ⟨kept.writing, kept.anchoring, fun entry member added => ?_⟩
        rcases mem_append.mp member with old | new
        · exact kept.returned entry old added
        · rw [mem_singleton.mp new] at added
          cases added
      | fresh row =>
        cases done
        refine ⟨fun caller other same => ?_, kept.anchoring, kept.returned⟩
        cases same
        exact ⟨event, verifyChain, normalized, by simp, accepted, lookup_text found⟩
  | commit call =>
    rw [Platform.step] at done
    cases held : system.writing with
    | none => simp [held] at done
    | some entry =>
      obtain ⟨owner, row⟩ := entry
      obtain ⟨-, linked, absent⟩ := serial.writing owner row held
      simp only [held, insert_ok serial.chain linked absent] at done
      split at done
      · cases done
      next mine =>
        -- the row now waits for its anchor, under the event it was begun with
        obtain rfl := not_not.mp mine
        cases done
        refine ⟨fun _ _ impossible => (nomatch impossible), fun entry member => ?_, fun entry member added => ?_⟩
        · rcases mem_append.mp member with old | new
          · exact kept.anchoring entry old
          · rw [mem_singleton.mp new]
            exact kept.writing owner row held
        · obtain ⟨other, present, same, begun⟩ := kept.returned entry member added
          exact ⟨other, mem_append_left _ present, same, begun⟩
  | anchor call updatedAt =>
    rw [Platform.step] at done
    cases found : system.anchoring.find? fun entry => entry.1 = call with
    | none => simp [found] at done
    | some entry =>
      obtain ⟨owner, row⟩ := entry
      have member := List.mem_of_find?_eq_some found
      obtain rfl : owner = call := by simpa using List.find?_some found
      have inside : row ∈ system.disk.rows := by
        rw [serial.rows]
        exact mem_append_right _ (mem_map_of_mem member)
      simp only [found] at done
      have others : ∀ entry ∈ system.anchoring.filter fun entry => entry.1 ≠ owner,
          Begun rt (acts ++ [.anchor owner updatedAt]) entry.1 entry.2 :=
        fun entry present => kept.anchoring entry (mem_of_mem_filter present)
      cases replaced : rt.writeAnchor row updatedAt system.disk with
      | error why =>
        rw [replaced] at done
        cases done
        exact ⟨kept.writing, others, kept.returned⟩
      | ok disk =>
        have same : disk.rows = system.disk.rows := by
          rw [writeAnchor, anchorText_eq] at replaced
          cases replaced
          rfl
        rw [replaced] at done
        cases done
        refine ⟨kept.writing, others, fun entry present added => ?_⟩
        rcases mem_append.mp present with old | new
        · obtain ⟨other, there, receipt, begun⟩ := kept.returned entry old added
          exact ⟨other, same ▸ there, receipt, begun⟩
        · rw [mem_singleton.mp new]
          exact ⟨row, same ▸ inside, rfl, kept.anchoring (owner, row) member⟩

theorem Owned.run {text : String} (first : rt.Serial (System.opened text) settled) {system : System}
    (ran : rt.run (System.opened text) acts = some system) : Owned rt acts system := by
  induction acts using List.reverseRecOn generalizing system with
  | nil =>
    cases ran
    exact .opened text
  | append_singleton acts act ih =>
    rw [run_append, Option.bind_eq_some_iff] at ran
    obtain ⟨middle, before, last⟩ := ran
    obtain ⟨next, done, same⟩ := Option.bind_eq_some_iff.mp last
    cases same
    obtain ⟨later, -, serial⟩ := first.run before
    exact (ih before).step serial done

theorem run_first {updatedAt text : String} {event : Value F} {normalized : Normalized F}
    (written : rt.anchorText 0 ZERO_HMAC updatedAt = .ok text)
    (accepted : rt.normalizeEvent event = .ok normalized) (call : Nat) (time : String) :
    ∃ system, rt.run (System.opened text) [.begin call event false, .commit call, .anchor call time] = some system := by
  have chain : rt.Chained (System.opened text).disk.rows := trivial
  have linked := rt.linked_nextRow [] normalized
  have admitted : rt.admitEvent event false (System.opened text).disk = .ok (.fresh (rt.nextRow [] normalized)) :=
    (admit_iff chain (Serial.opened written).anchored).mpr ⟨normalized, accepted,
      fun impossible => (nomatch impossible), ⟨rfl, rfl⟩, lookup_new (by simp [System.opened])⟩
  have inserted := insert_ok chain linked (by simp [System.opened])
  obtain ⟨replaced, wrote, -⟩ := writeAnchor_ok rt (rt.nextRow [] normalized) time
    ⟨[rt.nextRow [] normalized], text⟩ (by simp [nextRow]) (rt.mac_digest _)
  refine ⟨⟨⟨[rt.nextRow [] normalized], replaced⟩, none, [], [(call, .inserted (rt.nextRow [] normalized))], []⟩, ?_⟩
  simp only [System.opened, nil_append] at admitted inserted
  simp [run, step, System.opened, admitted, inserted, wrote]

/-- Appends of any number of processes, their steps interleaved in any way, add their rows one
after another: each that returns has added one row of its own event, the rows are one chain, the
anchor never goes back, and an append that is refused leaves the ledger as it is. -/
theorem writers_serialize {updatedAt text : String} {acts : List (Act F)} {system : System}
    (written : rt.anchorText 0 ZERO_HMAC updatedAt = .ok text)
    (ran : rt.run (System.opened text) acts = some system) :
    rt.Chained system.disk.rows ∧
    (system.disk.rows.map Row.sequence =
      (List.range system.disk.rows.length).map fun index : Nat => (index : Int) + 1) ∧
    (∃ pending : List Row, pending.length ≤ 1 ∧ system.disk.rows.map Receipt.inserted =
        system.inserted ++ pending.map Receipt.inserted) ∧
    (system.inserted.map Receipt.sequence =
      (List.range system.inserted.length).map fun index : Nat => (index : Int) + 1) ∧
    (∀ entry ∈ system.returned, entry.2.idempotent = false →
      ∃ row ∈ system.disk.rows, entry.2 = .inserted row ∧ Begun rt acts entry.1 row) ∧
    (∀ entry ∈ system.returned, entry.2.idempotent = true → ∃ row ∈ system.disk.rows, entry.2 = .existing row) ∧
    (∀ first rest middle, acts = first ++ rest → rt.run (System.opened text) first = some middle →
      ∃ earlier head later code, rt.AnchoredAt middle.disk earlier head ∧
        rt.AnchoredAt system.disk later code ∧ earlier ≤ later) ∧
    (∀ first act rest middle next, acts = first ++ act :: rest →
      rt.run (System.opened text) first = some middle → rt.step middle act = some next →
      next.refused ≠ middle.refused → next.disk = middle.disk) := by
  have start := Serial.opened written
  obtain ⟨settled, -, serial⟩ := start.run ran
  have rows := serial.rows
  have chained : rt.Chained settled := by
    have chain := serial.chain
    rw [rows] at chain
    exact (Sound.append.mp chain).1
  have inserted := serial.inserted
  refine ⟨serial.chain, serial.chain.sequences, ⟨system.anchoring.map Prod.snd, ?_, ?_⟩, ?_,
    (Owned.run start ran).returned, serial.repeats, ?_, ?_⟩
  · rw [length_map]
    exact serial.single
  · rw [rows, map_append, inserted]
  · have numbers := chained.sequences
    have names : (settled.map Receipt.inserted).map Receipt.sequence = settled.map Row.sequence := by
      rw [map_map]
      rfl
    rw [inserted, names, numbers, length_map]
  · rintro first rest middle rfl before
    obtain ⟨earlier, -, between⟩ := start.run before
    rw [run_append, before] at ran
    obtain ⟨later, grown, last⟩ := between.run ran
    refine ⟨_, _, _, _, between.anchored, last.anchored, ?_⟩
    exact_mod_cast grown.length_le
  · rintro first act rest middle next rfl before done changed
    obtain ⟨earlier, -, between⟩ := start.run before
    exact (between.step done).2 changed

end Platform

theorem writers_serialize_first : ∃ text system, plain.anchorText 0 ZERO_HMAC loginTime = .ok text ∧
    plain.run (System.opened text) [.begin 1 (eventOf (eventName "0") "login") false, .commit 1,
      .anchor 1 loginTime] = some system ∧ plain.Chained system.disk.rows := by
  have accepted : ∃ normalized, plain.normalizeEvent (eventOf (eventName "0") "login") = .ok normalized := by
    have fine : (plain.normalizeEvent (eventOf (eventName "0") "login")).isOk = true := by
      decide +kernel
    cases outcome : plain.normalizeEvent (eventOf (eventName "0") "login") with
    | error why => simp [outcome, Except.isOk, Except.toBool] at fine
    | ok normalized => exact ⟨normalized, rfl⟩
  obtain ⟨normalized, accepted⟩ := accepted
  have written := plain.anchorText_eq 0 ZERO_HMAC loginTime
  obtain ⟨system, ran⟩ := Platform.run_first written accepted 1 loginTime
  exact ⟨_, system, written, ran, (Platform.writers_serialize written ran).1⟩

end Dash.Audit
