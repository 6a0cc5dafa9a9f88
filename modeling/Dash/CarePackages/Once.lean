import Dash.Python.DocumentText
import Mathlib.Algebra.Order.Ring.Rat
import Mathlib.Data.List.Nodup

/-! Automatic care packages: scans that run beside each other, step by step, and how often they grant one. -/

set_option autoImplicit false

namespace Dash.CarePackages

open Dash.Python

inductive Action where
  | currency (row : String)
  | xp (row : String)
  | item (row : String)

structure Package where
  id : String
  (enabled oncePerAccount : Bool)
  cooldownHours : Nat
  (items currency xp : List String)

/-- The actions in the order of `economy_bundle`. -/
def Package.actions (package : Package) : List Action :=
  package.currency.map .currency ++ package.xp.map .xp ++ package.items.map .item

inductive GrantWhen where
  | firstOnline
  | lastSeen (days : Nat)
  deriving DecidableEq

structure Rule where
  id : String
  enabled : Bool
  packageId : String
  grantWhen : GrantWhen
  deriving DecidableEq

/-- What `load_care_packages` accepts. -/
structure Catalog where
  packages : List Package
  automatic : Bool
  rules : List Rule
  packageIds : (packages.map Package.id).Nodup
  ruleIds : (rules.map Rule.id).Nodup
  plain : ∀ package ∈ packages, ':' ∉ package.id.toList
  known : ∀ rule ∈ rules, ∃ package ∈ packages, package.id = rule.packageId

/-- A row of `dune.player_state`. -/
structure Player where
  accountId : Int
  online : Bool
  lastLogin : Option ℚ

structure Row where
  ok : Bool
  packageId : String
  accountId : Int
  timestamp : ℚ

inductive Phase where
  | opening
  | choosing
  | checking (rule : Rule) (account : Int)
  | acting (rule : Rule) (package : Package) (account : Int) (executed : Nat)
  | releasing (rule : Rule) (account : Int)
  | noting (rule : Rule) (account : Int)
  | ended

structure Scan where
  now : ℚ
  history : List Row
  claims : String → Bool
  pending : String → Bool
  todo : List (Rule × Player)
  phase : Phase

structure System where
  claims : String → Bool
  pending : String → Bool
  history : List Row
  scans : Nat → Option Scan
  /-- The actions that scans executed: rule, account and place in the rule's package. -/
  received : List (Rule × Int × Nat)
  /-- The grants that raised after an action. -/
  halfway : List (Rule × Int)

def start : System := ⟨fun _ => false, fun _ => false, [], fun _ => none, [], []⟩

def key (rule : Rule) (account : Int) : String :=
  String.ofList (rule.id.toList ++ ':' :: (rule.packageId.toList ++ ':' :: intText account))

def careHistory (rows : List Row) : List Row := (rows.drop (rows.length - 1000)).reverse

def previous (rows : List Row) (packageId : String) (account : Int) : List Row :=
  rows.filter fun row => decide (row.ok = true ∧ row.packageId = packageId ∧ row.accountId = account)

namespace Catalog

variable (catalog : Catalog)

def enabledRules : List Rule :=
  if catalog.automatic then catalog.rules.filter fun rule => rule.enabled else []

def package? (id : String) : Option Package := catalog.packages.find? fun package => package.id = id

end Catalog

inductive Verdict where
  | skipped | pending | eligible

def Scan.verdict (scan : Scan) (rule : Rule) (package : Package) (player : Player) : Verdict :=
  let name := key rule player.accountId
  if previous scan.history package.id player.accountId ≠ [] ∨ scan.claims name = true then .skipped
  else if package.enabled = false then .skipped
  else
    match rule.grantWhen with
    | .firstOnline => if player.online then .eligible else .skipped
    | .lastSeen days =>
      if player.online = false ∧ (player.lastLogin.any fun time => time ≤ scan.now - days * 86400) = true then .pending
      else if player.online = true ∧ scan.pending name = true then .eligible
      else .skipped

/-- The blockers of `care_package_grant`. -/
def blocked (package : Package) (previous : List Row) (now : ℚ) : Bool :=
  !package.enabled || (package.oncePerAccount && decide (previous ≠ [])) ||
    match previous.head? with
    | some row => decide (0 < package.cooldownHours ∧ now < row.timestamp + package.cooldownHours * 3600)
    | none => false

namespace System

variable (system : System)

def put (number : Nat) (scan : Scan) : System :=
  { system with scans := Function.update system.scans number (some scan) }

def claim (name : String) (claimed : Bool) : System :=
  { system with claims := Function.update system.claims name claimed }

def note (row : Row) : System := { system with history := system.history ++ [row] }

end System

/-- The next player of a scan: skipped, marked, or reserved for a grant. -/
def Catalog.choose (catalog : Catalog) (number : Nat) (scan : Scan) (system : System) : System :=
  match scan.todo with
  | [] => { system with pending := scan.pending }.put number { scan with phase := .ended }
  | (rule, player) :: rest =>
    let name := key rule player.accountId
    match catalog.package? rule.packageId with
    | none => system
    | some package =>
      match scan.verdict rule package player with
      | .skipped => system.put number { scan with todo := rest }
      | .pending => system.put number
          { scan with pending := Function.update scan.pending name true, todo := rest }
      | .eligible =>
        if system.claims name = true then system.put number { scan with todo := rest }
        else (system.claim name true).put number
          { scan with
            claims := Function.update scan.claims name true
            todo := rest
            phase := .checking rule player.accountId }

/-- The checks of `care_package_grant`, and what it does before the first action. -/
def Catalog.check (catalog : Catalog) (number : Nat) (now : ℚ) (raises : Bool) (rule : Rule)
    (account : Int) (scan : Scan) (system : System) : System :=
  match catalog.package? rule.packageId with
  | none => system.put number { scan with phase := .releasing rule account }
  | some package =>
    if raises = true ∨ package.actions = [] ∨
        blocked package (previous (careHistory system.history) package.id account) now = true then
      system.put number { scan with phase := .releasing rule account }
    else system.put number { scan with phase := .acting rule package account 0 }

def actOn (number : Nat) (now : ℚ) (raises : Bool) (rule : Rule) (package : Package) (account : Int)
    (executed : Nat) (scan : Scan) (system : System) : System :=
  if raises then
    { system with
      halfway := if executed = 0 then system.halfway
        else system.halfway ++ [(rule, account)] }.put number
      { scan with phase := .releasing rule account }
  else if executed < package.actions.length then
    { system with received := system.received ++ [(rule, account, executed)] }.put number
      { scan with phase := .acting rule package account (executed + 1) }
  else
    (system.note ⟨true, package.id, account, now⟩).put number
      { scan with
        pending := Function.update scan.pending (key rule account) false
        phase := .choosing }

/-- One step of `care_package_auto_scan`; `raises` where something in the step fails. -/
def Catalog.turn (catalog : Catalog) (number : Nat) (now : ℚ) (raises : Bool) (system : System) : System :=
  match system.scans number with
  | none => system
  | some scan =>
    match scan.phase with
    | .opening => system.put number
        { scan with claims := system.claims, pending := system.pending, phase := .choosing }
    | .choosing => catalog.choose number scan system
    | .checking rule account => catalog.check number now raises rule account scan system
    | .acting rule package account executed =>
      actOn number now raises rule package account executed scan system
    | .releasing rule account => (system.claim (key rule account) false).put number
        { scan with
          claims := Function.update scan.claims (key rule account) false
          phase := .noting rule account }
    | .noting rule account => (system.note ⟨false, rule.packageId, account, now⟩).put number
        { scan with phase := .choosing }
    | .ended => system

inductive Step where
  | begin (scan : Nat) (now : ℚ) (players : List Player)
  | turn (scan : Nat) (now : ℚ) (raises : Bool)
  /-- A grant or a retry by hand ends in a row of the history. -/
  | granted (row : Row)
  | clearHistory

/-- `care_package_auto_scan` up to its reading of the history. -/
def Catalog.begin (catalog : Catalog) (number : Nat) (now : ℚ) (players : List Player) (system : System) : System :=
  match system.scans number with
  | some _ => system
  | none => system.put number
      { now := now
        history := careHistory system.history
        claims := fun _ => false
        pending := fun _ => false
        todo := catalog.enabledRules.flatMap fun rule => players.map fun player => (rule, player)
        phase := .opening }

def Catalog.step (catalog : Catalog) (system : System) : Step → System
  | .begin number now players => catalog.begin number now players system
  | .turn number now raises => catalog.turn number now raises system
  | .granted row => system.note row
  | .clearHistory => { system with history := [] }

def Catalog.run (catalog : Catalog) (steps : List Step) : System := steps.foldl catalog.step start

open List
open Function (update_of_ne update_self)

theorem split_last {mark : Char} {first second early late : List Char} (free : mark ∉ early)
    (other : mark ∉ late) (same : first ++ mark :: early = second ++ mark :: late) :
    first = second ∧ early = late := by
  rcases append_eq_append_iff.mp same with ⟨middle, split, rest⟩ | ⟨middle, split, rest⟩
  · cases middle with
    | nil => exact ⟨(split.trans (append_nil _)).symm, (List.cons.inj rest).2⟩
    | cons head tail =>
      refine absurd ?_ free
      rw [(List.cons.inj rest).2]
      exact mem_append_right _ mem_cons_self
  · cases middle with
    | nil => exact ⟨split.trans (append_nil _), (List.cons.inj rest).2.symm⟩
    | cons head tail =>
      refine absurd ?_ other
      rw [(List.cons.inj rest).2]
      exact mem_append_right _ mem_cons_self

theorem colon_free (value : Int) : ':' ∉ intText value := by
  intro member
  rcases mem_append.mp member with sign | digit
  · cases decide (value < 0) <;> simp [signText] at sign
  · have digits := Nat.isDigit_of_mem_toDigits (by decide) (by decide) digit
    exact absurd digits (by decide)

theorem intText_injective : Function.Injective intText := fun _ _ same =>
  Document.int.inj (text_injective true (by simpa only [Document.text] using same))

variable {first second : Rule}

variable {account other : Int}

theorem key_injective (plain : ':' ∉ first.packageId.toList)
    (clean : ':' ∉ second.packageId.toList) (same : key first account = key second other) :
    first.id = second.id ∧ account = other := by
  have lists := congrArg String.toList same
  simp only [key, String.toList_ofList] at lists
  rw [← cons_append, ← append_assoc, ← cons_append, ← append_assoc] at lists
  obtain ⟨names, accounts⟩ := split_last (colon_free account) (colon_free other) lists
  -- A rule's id may have a colon; a package's id has none.
  obtain ⟨ids, -⟩ := split_last plain clean names
  exact ⟨String.toList_inj.mp ids, intText_injective accounts⟩

variable {rule : Rule} {catalog : Catalog}

theorem enabledRules_subset (enabled : rule ∈ catalog.enabledRules) : rule ∈ catalog.rules := by
  unfold Catalog.enabledRules at enabled
  split at enabled
  · exact (mem_filter.mp enabled).1
  · cases enabled

theorem enabled_plain (enabled : rule ∈ catalog.enabledRules) : ':' ∉ rule.packageId.toList := by
  obtain ⟨package, member, same⟩ := catalog.known rule (enabledRules_subset enabled)
  exact same ▸ catalog.plain package member

theorem key_owner (enabled : first ∈ catalog.enabledRules) (also : second ∈ catalog.enabledRules)
    (same : key first account = key second other) : first = second ∧ account = other := by
  obtain ⟨ids, accounts⟩ := key_injective (enabled_plain enabled) (enabled_plain also) same
  exact ⟨inj_on_of_nodup_map catalog.ruleIds (enabledRules_subset enabled) (enabledRules_subset also) ids, accounts⟩

def Phase.holding : Phase → Option (Rule × Int × Nat)
  | .checking rule account => some (rule, account, 0)
  | .acting rule _ account executed => some (rule, account, executed)
  | .releasing rule account => some (rule, account, 0)
  | _ => none

def System.Grants (system : System) (number : Nat) (rule : Rule) (account : Int) (executed : Nat) : Prop :=
  ∃ scan, system.scans number = some scan ∧ scan.phase.holding = some (rule, account, executed)

def Completed (catalog : Catalog) (system : System) (rule : Rule) (account : Int) : Prop :=
  ∃ package, catalog.package? rule.packageId = some package ∧ package.actions ≠ [] ∧
    ∀ index < package.actions.length, (rule, account, index) ∈ system.received

structure Invariant (catalog : Catalog) (system : System) : Prop where
  /-- A grant in progress is of an enabled rule, and claimed. -/
  claimed : ∀ number rule account executed, system.Grants number rule account executed →
    rule ∈ catalog.enabledRules ∧ system.claims (key rule account) = true
  single : ∀ first second rule account executed more, system.Grants first rule account executed →
    system.Grants second rule account more → first = second
  /-- Actions are those of the package, executed in order. -/
  acting : ∀ number scan, system.scans number = some scan → ∀ rule package account executed,
    scan.phase = .acting rule package account executed →
      catalog.package? rule.packageId = some package ∧ package.actions ≠ [] ∧
        executed ≤ package.actions.length ∧
        ∀ index < executed, (rule, account, index) ∈ system.received
  todo : ∀ number scan, system.scans number = some scan → ∀ entry ∈ scan.todo,
    entry.1 ∈ catalog.enabledRules
  known : ∀ entry ∈ system.received, entry.1 ∈ catalog.enabledRules
  most : ∀ rule ∈ catalog.enabledRules, ∀ account index,
    system.received.count (rule, account, index) ≤
      system.halfway.count (rule, account) + 1
  /-- Without a claim, only grants that raised halfway executed anything. -/
  free : ∀ rule ∈ catalog.enabledRules, ∀ account, system.claims (key rule account) = false →
    ∀ index, system.received.count (rule, account, index) ≤
      system.halfway.count (rule, account)
  granting : ∀ number rule account executed, system.Grants number rule account executed →
    ∀ index, system.received.count (rule, account, index) ≤
      system.halfway.count (rule, account) + if index < executed then 1 else 0
  /-- A claim is held by a scan, or its grant was completed. -/
  kept : ∀ rule ∈ catalog.enabledRules, ∀ account, system.claims (key rule account) = true →
    (∃ number executed, system.Grants number rule account executed) ∨
      Completed catalog system rule account

variable {catalog : Catalog} {system next : System} {number : Nat} {scan : Scan}

variable {account : Int}

theorem grants_put {other : Nat} {executed : Nat}
    (scans : next.scans = Function.update system.scans number (some scan)) :
    next.Grants other rule account executed ↔ (other = number ∧ scan.phase.holding = some (rule, account, executed)) ∨
        (other ≠ number ∧ system.Grants other rule account executed) := by
  unfold System.Grants
  rw [scans]
  by_cases same : other = number
  · subst same
    simp
  · simp [same]

theorem grants_unique {executed more : Nat} (one : system.Grants number first account executed)
    (two : system.Grants number second other more) :
    first = second ∧ account = other ∧ executed = more := by
  obtain ⟨scan, found, holding⟩ := one
  obtain ⟨again, same, holds⟩ := two
  cases found.symm.trans same
  cases holding.symm.trans holds
  exact ⟨rfl, rfl, rfl⟩

theorem Invariant.congr (invariant : Invariant catalog system) (claims : next.claims = system.claims)
    (scans : next.scans = system.scans) (received : next.received = system.received)
    (halfway : next.halfway = system.halfway) : Invariant catalog next := by
  cases next
  cases system
  subst claims scans received halfway
  exact ⟨invariant.claimed, invariant.single, invariant.acting, invariant.todo, invariant.known,
    invariant.most, invariant.free, invariant.granting, invariant.kept⟩

structure Moved (catalog : Catalog) (system next : System) (number : Nat) (scan : Scan) : Prop where
  scans : next.scans = Function.update system.scans number (some scan)
  received : system.received ⊆ next.received
  todo : ∀ entry ∈ scan.todo, entry.1 ∈ catalog.enabledRules
  acting : ∀ rule package account executed, scan.phase = .acting rule package account executed →
    catalog.package? rule.packageId = some package ∧ package.actions ≠ [] ∧ executed ≤ package.actions.length ∧
      ∀ index < executed, (rule, account, index) ∈ next.received

theorem Moved.grants (moved : Moved catalog system next number scan) {after other executed : Nat} {owner : Rule}
    {holder : Int} (holding : scan.phase.holding = some (rule, account, after))
    (grants : next.Grants other owner holder executed) :
    (other = number ∧ owner = rule ∧ holder = account ∧ executed = after) ∨
      (other ≠ number ∧ system.Grants other owner holder executed) := by
  rcases (grants_put moved.scans).mp grants with ⟨rfl, holds⟩ | old
  · cases holding.symm.trans holds
    exact .inl ⟨rfl, rfl, rfl, rfl⟩
  · exact .inr old

theorem Moved.all_todo (moved : Moved catalog system next number scan)
    (invariant : Invariant catalog system) : ∀ other scan, next.scans other = some scan →
      ∀ entry ∈ scan.todo, entry.1 ∈ catalog.enabledRules := by
  intro other found there
  rw [moved.scans] at there
  by_cases same : other = number
  · subst same
    rw [update_self] at there
    cases there
    exact moved.todo
  · rw [update_of_ne same] at there
    exact invariant.todo other found there

theorem Moved.all_acting (moved : Moved catalog system next number scan)
    (invariant : Invariant catalog system) : ∀ other scan, next.scans other = some scan →
      ∀ rule package account executed, scan.phase = .acting rule package account executed →
        catalog.package? rule.packageId = some package ∧ package.actions ≠ [] ∧ executed ≤ package.actions.length ∧
          ∀ index < executed, (rule, account, index) ∈ next.received := by
  intro other found there rule package account executed phase
  rw [moved.scans] at there
  by_cases same : other = number
  · subst same
    rw [update_self] at there
    cases there
    exact moved.acting rule package account executed phase
  · rw [update_of_ne same] at there
    obtain ⟨known, some_, short, inside⟩ :=
      invariant.acting other found there rule package account executed phase
    exact ⟨known, some_, short, fun index less => moved.received (inside index less)⟩

theorem Completed.mono (received : system.received ⊆ next.received)
    (completed : Completed catalog system rule account) : Completed catalog next rule account := by
  obtain ⟨package, known, some_, all⟩ := completed
  exact ⟨package, known, some_, fun index less => received (all index less)⟩

section

variable (invariant : Invariant catalog system)
include invariant

/-- A step that changes no claim and executes nothing: the scan stays in its grant, or is in none and
has completed it. -/
theorem Invariant.stays (moved : Moved catalog system next number scan) (claims : next.claims = system.claims)
    (received : next.received = system.received) (halfway : next.halfway = system.halfway)
    (holds : ∀ rule account executed, scan.phase.holding = some (rule, account, executed) →
      system.Grants number rule account executed)
    (leaves : ∀ rule account executed, system.Grants number rule account executed →
      scan.phase.holding = some (rule, account, executed) ∨ Completed catalog system rule account) :
    Invariant catalog next := by
  -- Every grant of the next system is one of this system.
  have before : ∀ other rule account executed, next.Grants other rule account executed →
      system.Grants other rule account executed := by
    intro other rule account executed grants
    rcases (grants_put moved.scans).mp grants with ⟨rfl, holding⟩ | ⟨-, old⟩
    · exact holds rule account executed holding
    · exact old
  refine ⟨fun other rule account executed grants => ?_, fun first second rule account executed more one two =>
      invariant.single first second rule account executed more (before _ _ _ _ one) (before _ _ _ _ two),
    moved.all_acting invariant, moved.all_todo invariant, ?_, ?_, ?_,
    fun other rule account executed grants => ?_, fun rule enabled account claimed => ?_⟩
  · rw [claims]
    exact invariant.claimed other rule account executed (before _ _ _ _ grants)
  · rw [received]
    exact invariant.known
  · rw [received, halfway]
    exact invariant.most
  · rw [claims, received, halfway]
    exact invariant.free
  · rw [received, halfway]
    exact invariant.granting other rule account executed (before _ _ _ _ grants)
  · rw [claims] at claimed
    rcases invariant.kept rule enabled account claimed with ⟨other, executed, grants⟩ | completed
    · by_cases same : other = number
      · subst same
        rcases leaves rule account executed grants with holding | completed
        · exact .inl ⟨other, executed, (grants_put moved.scans).mpr (.inl ⟨rfl, holding⟩)⟩
        · exact .inr (completed.mono moved.received)
      · exact .inl ⟨other, executed, (grants_put moved.scans).mpr (.inr ⟨same, grants⟩)⟩
    · exact .inr (completed.mono moved.received)

/-- A rule is claimed for an account: no scan is in a grant of it. -/
theorem Invariant.reserves (enabled : rule ∈ catalog.enabledRules) (moved : Moved catalog system next number scan)
    (idle : ∀ rule account executed, ¬ system.Grants number rule account executed)
    (unclaimed : system.claims (key rule account) = false)
    (holding : scan.phase.holding = some (rule, account, 0))
    (claims : next.claims = Function.update system.claims (key rule account) true)
    (received : next.received = system.received) (halfway : next.halfway = system.halfway) :
    Invariant catalog next := by
  have grows : ∀ name, system.claims name = true → next.claims name = true := by
    intro name claimed
    rw [claims]
    by_cases same : name = key rule account
    · rw [same, update_self]
    · rw [update_of_ne same]
      exact claimed
  have free : ∀ other executed, ¬ system.Grants other rule account executed := fun other executed grants =>
    Bool.false_ne_true (unclaimed.symm.trans (invariant.claimed _ _ _ _ grants).2)
  refine ⟨fun other owner holder executed grants => ?_,
    fun first second owner holder executed more one two => ?_, moved.all_acting invariant,
    moved.all_todo invariant, ?_, ?_, fun owner enabled holder unclaimed => ?_,
    fun other owner holder executed grants index => ?_, fun owner enabled holder claimed => ?_⟩
  · rcases moved.grants holding grants with ⟨-, rfl, rfl, -⟩ | ⟨-, old⟩
    · rw [claims]
      exact ⟨enabled, update_self ..⟩
    · obtain ⟨known, claimed⟩ := invariant.claimed _ _ _ _ old
      exact ⟨known, grows _ claimed⟩
  · rcases moved.grants holding one with ⟨rfl, rfl, rfl, -⟩ | ⟨-, old⟩ <;>
      rcases moved.grants holding two with ⟨rfl, here, there, -⟩ | ⟨-, late⟩
    · rfl
    · exact absurd late (free _ _)
    · subst here there
      exact absurd old (free _ _)
    · exact invariant.single _ _ _ _ _ _ old late
  · rw [received]
    exact invariant.known
  · rw [received, halfway]
    exact invariant.most
  · rw [received, halfway]
    refine invariant.free owner enabled holder (Bool.eq_false_of_not_eq_true fun claimed => ?_)
    exact Bool.false_ne_true (unclaimed.symm.trans (grows _ claimed))
  · rw [received, halfway]
    rcases moved.grants holding grants with ⟨-, rfl, rfl, rfl⟩ | ⟨-, old⟩
    · exact (invariant.free owner enabled holder unclaimed index).trans (Nat.le_add_right _ _)
    · exact invariant.granting _ _ _ _ old index
  · by_cases same : key owner holder = key rule account
    · obtain ⟨rfl, rfl⟩ := key_owner enabled ‹rule ∈ _› same
      exact .inl ⟨number, 0, (grants_put moved.scans).mpr (.inl ⟨rfl, holding⟩)⟩
    · rw [claims, update_of_ne same] at claimed
      rcases invariant.kept owner enabled holder claimed with ⟨other, executed, grants⟩ | completed
      · refine .inl ⟨other, executed, (grants_put moved.scans).mpr (.inr ⟨fun same => ?_, grants⟩)⟩
        exact idle owner holder executed (same ▸ grants)
      · exact .inr (completed.mono moved.received)

theorem Invariant.releases (moved : Moved catalog system next number scan)
    (held : system.Grants number rule account 0) (holding : scan.phase.holding = none)
    (claims : next.claims = Function.update system.claims (key rule account) false)
    (received : next.received = system.received) (halfway : next.halfway = system.halfway) :
    Invariant catalog next := by
  have old : ∀ {other : Nat} {owner : Rule} {holder : Int} {executed : Nat},
      next.Grants other owner holder executed → other ≠ number ∧ system.Grants other owner holder executed := by
    intro other owner holder executed grants
    rcases (grants_put moved.scans).mp grants with ⟨-, holds⟩ | old
    · cases holding.symm.trans holds
    · exact old
  obtain ⟨enabled, -⟩ := invariant.claimed _ _ _ _ held
  have apart : ∀ {other : Nat} {owner : Rule} {holder : Int} {executed : Nat}, other ≠ number →
      system.Grants other owner holder executed → key owner holder ≠ key rule account := by
    intro other owner holder executed different grants same
    obtain ⟨rfl, rfl⟩ := key_owner (invariant.claimed _ _ _ _ grants).1 enabled same
    exact different (invariant.single _ _ _ _ _ _ grants held)
  refine ⟨fun other owner holder executed grants => ?_, fun first second owner holder executed more one two =>
      invariant.single _ _ _ _ _ _ (old one).2 (old two).2,
    moved.all_acting invariant, moved.all_todo invariant, ?_, ?_, fun owner listed holder open_ index => ?_,
    fun other owner holder executed grants index => ?_, fun owner listed holder claimed => ?_⟩
  · obtain ⟨different, grants⟩ := old grants
    rw [claims, update_of_ne (apart different grants)]
    exact invariant.claimed _ _ _ _ grants
  · rw [received]
    exact invariant.known
  · rw [received, halfway]
    exact invariant.most
  · rw [received, halfway]
    by_cases same : key owner holder = key rule account
    · obtain ⟨rfl, rfl⟩ := key_owner listed enabled same
      exact invariant.granting _ _ _ _ held index
    · rw [claims, update_of_ne same] at open_
      exact invariant.free owner listed holder open_ index
  · rw [received, halfway]
    exact invariant.granting _ _ _ _ (old grants).2 index
  · by_cases same : key owner holder = key rule account
    · rw [claims, same, update_self] at claimed
      cases claimed
    · rw [claims, update_of_ne same] at claimed
      rcases invariant.kept owner listed holder claimed with ⟨other, executed, grants⟩ | completed
      · refine .inl ⟨other, executed, (grants_put moved.scans).mpr (.inr ⟨fun here => ?_, grants⟩)⟩
        subst here
        obtain ⟨rfl, rfl, -⟩ := grants_unique grants held
        exact same rfl
      · exact .inr (completed.mono moved.received)

theorem Invariant.continues {executed after : Nat} (moved : Moved catalog system next number scan)
    (held : system.Grants number rule account executed)
    (holding : scan.phase.holding = some (rule, account, after)) (claims : next.claims = system.claims)
    (known : ∀ entry ∈ next.received, entry.1 ∈ catalog.enabledRules)
    (own : ∀ index, next.received.count (rule, account, index) ≤
      next.halfway.count (rule, account) + if index < after then 1 else 0)
    (others : ∀ owner holder, (owner, holder) ≠ (rule, account) → ∀ index,
      next.received.count (owner, holder, index) = system.received.count (owner, holder, index) ∧
        next.halfway.count (owner, holder) = system.halfway.count (owner, holder)) :
    Invariant catalog next := by
  obtain ⟨enabled, reserved⟩ := invariant.claimed _ _ _ _ held
  have different : ∀ {owner : Rule} {holder : Int}, ¬ (owner = rule ∧ holder = account) →
      (owner, holder) ≠ (rule, account) := fun apart same => apart (Prod.mk.inj same)
  refine ⟨fun other owner holder count grants => ?_,
    fun first second owner holder count more one two => ?_, moved.all_acting invariant,
    moved.all_todo invariant, known, fun owner listed holder index => ?_,
    fun owner listed holder open_ index => ?_, fun other owner holder count grants index => ?_,
    fun owner listed holder claimed => ?_⟩
  · rw [claims]
    rcases moved.grants holding grants with ⟨rfl, rfl, rfl, -⟩ | ⟨-, old⟩
    · exact ⟨enabled, reserved⟩
    · exact invariant.claimed _ _ _ _ old
  · rcases moved.grants holding one with ⟨rfl, rfl, rfl, -⟩ | ⟨-, early⟩ <;>
      rcases moved.grants holding two with ⟨rfl, here, there, -⟩ | ⟨-, late⟩
    · rfl
    · exact invariant.single _ _ _ _ _ _ held late
    · subst here there
      exact invariant.single _ _ _ _ _ _ early held
    · exact invariant.single _ _ _ _ _ _ early late
  · by_cases same : owner = rule ∧ holder = account
    · obtain ⟨rfl, rfl⟩ := same
      refine (own index).trans (Nat.add_le_add_left ?_ _)
      split <;> omega
    · obtain ⟨counts, halves⟩ := others owner holder (different same) index
      rw [counts, halves]
      exact invariant.most owner listed holder index
  · rw [claims] at open_
    by_cases same : owner = rule ∧ holder = account
    · obtain ⟨rfl, rfl⟩ := same
      exact absurd (open_.symm.trans reserved) Bool.false_ne_true
    · obtain ⟨counts, halves⟩ := others owner holder (different same) index
      rw [counts, halves]
      exact invariant.free owner listed holder open_ index
  · rcases moved.grants holding grants with ⟨rfl, rfl, rfl, rfl⟩ | ⟨apart, old⟩
    · exact own index
    · have same : ¬ (owner = rule ∧ holder = account) := by
        rintro ⟨rfl, rfl⟩
        exact apart (invariant.single _ _ _ _ _ _ old held)
      obtain ⟨counts, halves⟩ := others owner holder (different same) index
      rw [counts, halves]
      exact invariant.granting _ _ _ _ old index
  · rw [claims] at claimed
    rcases invariant.kept owner listed holder claimed with ⟨other, count, grants⟩ | completed
    · by_cases here : other = number
      · subst here
        obtain ⟨rfl, rfl, -⟩ := grants_unique grants held
        exact .inl ⟨other, after, (grants_put moved.scans).mpr (.inl ⟨rfl, holding⟩)⟩
      · exact .inl ⟨other, count, (grants_put moved.scans).mpr (.inr ⟨here, grants⟩)⟩
    · exact .inr (completed.mono moved.received)

theorem Invariant.turn_choose (found : system.scans number = some scan) (phase : scan.phase = .choosing) :
    Invariant catalog (catalog.choose number scan system) := by
  have idle : ∀ rule account executed, ¬ system.Grants number rule account executed := by
    rintro rule account executed ⟨again, same, holding⟩
    cases found.symm.trans same
    rw [phase] at holding
    cases holding
  have todo := invariant.todo number scan found
  -- A player that is passed by leaves the scan outside every grant.
  have passes : ∀ {next : System} {later : Scan},
      next.scans = Function.update system.scans number (some later) → next.claims = system.claims →
      next.received = system.received → next.halfway = system.halfway → later.todo ⊆ scan.todo →
      later.phase.holding = none → (∀ rule package account executed,
        later.phase ≠ .acting rule package account executed) → Invariant catalog next := by
    intro next later scans claims received halfway shorter none_ quiet
    exact invariant.stays ⟨scans, received ▸ List.Subset.refl _, fun entry member => todo entry (shorter member),
      fun rule package account executed acting => absurd acting (quiet _ _ _ _)⟩ claims received halfway
      (fun _ _ _ holding => nomatch none_.symm.trans holding)
      (fun _ _ _ grants => absurd grants (idle _ _ _))
  unfold Catalog.choose
  split
  · next last => exact passes rfl rfl rfl rfl (List.Subset.refl _) rfl nofun
  · next rule player rest queue =>
    have shorter : rest ⊆ scan.todo := queue ▸ subset_cons_self _ _
    have still : ∀ {later : Scan}, later.phase = scan.phase → later.phase.holding = none ∧
        ∀ rule package account executed, later.phase ≠ .acting rule package account executed := by
      intro later same
      rw [same, phase]
      exact ⟨rfl, nofun⟩
    cases catalog.package? rule.packageId with
    | none => exact invariant
    | some package =>
      dsimp only
      cases scan.verdict rule package player with
      | skipped => exact passes rfl rfl rfl rfl shorter (still rfl).1 (still rfl).2
      | pending => exact passes rfl rfl rfl rfl shorter (still rfl).1 (still rfl).2
      | eligible =>
        dsimp only
        split
        · exact passes rfl rfl rfl rfl shorter (still rfl).1 (still rfl).2
        · next unclaimed =>
          refine invariant.reserves (todo (rule, player) (queue ▸ mem_cons_self))
            ⟨rfl, List.Subset.refl _, fun entry member => todo entry (shorter member), nofun⟩ idle
            (Bool.eq_false_of_not_eq_true unclaimed) rfl rfl rfl rfl

theorem Invariant.turn_check (found : system.scans number = some scan) {now : ℚ} {raises : Bool}
    (phase : scan.phase = .checking rule account) :
    Invariant catalog (catalog.check number now raises rule account scan system) := by
  have held : system.Grants number rule account 0 := ⟨scan, found, by rw [phase]; rfl⟩
  have stays : ∀ {later : Scan}, later.todo = scan.todo → later.phase.holding = some (rule, account, 0) →
      (∀ owner package holder executed, later.phase = .acting owner package holder executed →
        catalog.package? owner.packageId = some package ∧ package.actions ≠ [] ∧ executed ≤ package.actions.length ∧
          ∀ index < executed, (owner, holder, index) ∈ system.received) →
      Invariant catalog (system.put number later) := by
    intro later same holding acting
    refine invariant.stays ⟨rfl, List.Subset.refl _, same ▸ invariant.todo number scan found, acting⟩
      rfl rfl rfl (fun owner holder executed holds => ?_) (fun owner holder executed grants => ?_)
    · cases holding.symm.trans holds
      exact held
    · obtain ⟨rfl, rfl, rfl⟩ := grants_unique grants held
      exact .inl holding
  unfold Catalog.check
  cases known : catalog.package? rule.packageId with
  | none => exact stays rfl rfl nofun
  | some package =>
    dsimp only
    split
    · exact stays rfl rfl nofun
    · next passed =>
      refine stays rfl rfl fun owner chosen holder executed acting => ?_
      cases acting
      exact ⟨known, fun empty => passed (.inr (.inl empty)), Nat.zero_le _, nofun⟩

end

theorem count_other {α : Type} [BEq α] [LawfulBEq α] {list : List α} {first second : α}
    (apart : first ≠ second) : (list ++ [second]).count first = list.count first := by
  rw [count_append, count_singleton, if_neg (by simpa using apart.symm), Nat.add_zero]

section

variable (invariant : Invariant catalog system)
include invariant

theorem Invariant.turn_act (found : system.scans number = some scan) {now : ℚ} {raises : Bool}
    {package : Package} {executed : Nat}
    (phase : scan.phase = .acting rule package account executed) :
    Invariant catalog (actOn number now raises rule package account executed scan system) := by
  have held : system.Grants number rule account executed := ⟨scan, found, by rw [phase]; rfl⟩
  obtain ⟨enabled, -⟩ := invariant.claimed _ _ _ _ held
  obtain ⟨known, some_, short, done⟩ := invariant.acting number scan found _ _ _ _ phase
  have granting := invariant.granting _ _ _ _ held
  have todo := invariant.todo number scan found
  unfold actOn
  split
  · -- The grant is given up: what it executed so far counts as half a grant.
    refine invariant.continues ⟨rfl, List.Subset.refl _, todo, nofun⟩ held rfl rfl invariant.known
      (fun index => ?_) (fun owner holder apart index => ⟨rfl, ?_⟩)
    · have before := granting index
      change system.received.count (rule, account, index) ≤
        (if executed = 0 then system.halfway else system.halfway ++ [(rule, account)]).count
          (rule, account) + 0
      split
      · next none_ => simpa [none_] using before
      · rw [count_append, count_singleton_self]
        split at before <;> omega
    · change (if executed = 0 then system.halfway else system.halfway ++ [(rule, account)]).count
        (owner, holder) = system.halfway.count (owner, holder)
      split
      · rfl
      · exact count_other apart
  · split
    · next more =>
      refine invariant.continues
        ⟨rfl, subset_append_left _ _, todo, fun owner chosen holder count acting => ?_⟩ held rfl rfl
        (fun entry member => ?_) (fun index => ?_) (fun owner holder apart index => ⟨?_, rfl⟩)
      · cases acting
        refine ⟨known, some_, more, fun index less => ?_⟩
        rcases Nat.lt_succ_iff_lt_or_eq.mp less with before | rfl
        · exact mem_append_left _ (done index before)
        · exact mem_append_right _ mem_cons_self
      · rcases mem_append.mp member with old | new
        · exact invariant.known entry old
        · cases mem_singleton.mp new
          exact enabled
      · have before := granting index
        change (system.received ++ [(rule, account, executed)]).count (rule, account, index) ≤
          system.halfway.count (rule, account) + _
        by_cases same : index = executed
        · subst same
          rw [count_append, count_singleton_self, if_pos (Nat.lt_succ_self _)]
          rw [if_neg (Nat.lt_irrefl _)] at before
          omega
        · rw [count_other fun equal => same (Prod.mk.inj (Prod.mk.inj equal).2).2]
          refine before.trans (Nat.add_le_add_left ?_ _)
          split <;> split <;> omega
      · exact count_other fun equal => apart (Prod.ext (Prod.mk.inj equal).1 (Prod.mk.inj (Prod.mk.inj equal).2).1)
    · next last =>
      refine invariant.stays ⟨rfl, List.Subset.refl _, todo, nofun⟩ rfl rfl rfl nofun
        (fun owner holder count grants => .inr ?_)
      obtain ⟨rfl, rfl, rfl⟩ := grants_unique grants held
      exact ⟨package, known, some_, fun index less => done index (by omega)⟩

theorem Invariant.turn (number : Nat) (now : ℚ) (raises : Bool) :
    Invariant catalog (catalog.turn number now raises system) := by
  unfold Catalog.turn
  cases found : system.scans number with
  | none => exact invariant
  | some scan =>
    have todo := invariant.todo number scan found
    have idle : ∀ {rule : Rule} {account : Int} {executed : Nat}, scan.phase.holding = none →
        ¬ system.Grants number rule account executed := by
      rintro rule account executed none_ ⟨again, same, holding⟩
      cases found.symm.trans same
      exact nomatch none_.symm.trans holding
    dsimp only
    split
    · next phase =>
      exact invariant.stays ⟨rfl, List.Subset.refl _, todo, nofun⟩ rfl rfl rfl nofun
        fun _ _ _ grants => absurd grants (idle (by rw [phase]; rfl))
    · next phase => exact invariant.turn_choose found phase
    · next rule account phase => exact invariant.turn_check found phase
    · next rule package account executed phase => exact invariant.turn_act found phase
    · next rule account phase =>
      have held : system.Grants number rule account 0 := ⟨scan, found, by rw [phase]; rfl⟩
      exact invariant.releases ⟨rfl, List.Subset.refl _, todo, nofun⟩ held rfl rfl rfl rfl
    · next rule account phase =>
      exact invariant.stays ⟨rfl, List.Subset.refl _, todo, nofun⟩ rfl rfl rfl nofun
        fun _ _ _ grants => absurd grants (idle (by rw [phase]; rfl))
    · exact invariant

theorem Invariant.begin (number : Nat) (now : ℚ)
    (players : List Player) : Invariant catalog (catalog.begin number now players system) := by
  unfold Catalog.begin
  cases vacant : system.scans number with
  | some _ => exact invariant
  | none =>
    refine invariant.stays ⟨rfl, List.Subset.refl _, fun entry member => ?_, nofun⟩ rfl rfl rfl nofun ?_
    · obtain ⟨rule, enabled, listed⟩ := mem_flatMap.mp member
      obtain ⟨player, -, rfl⟩ := mem_map.mp listed
      exact enabled
    · rintro rule account executed ⟨scan, found, -⟩
      exact nomatch vacant.symm.trans found

theorem Invariant.step (taken : Step) : Invariant catalog (catalog.step system taken) := by
  cases taken with
  | begin number now players => exact invariant.begin number now players
  | turn number now raises => exact invariant.turn number now raises
  | granted row => exact invariant.congr rfl rfl rfl rfl
  | clearHistory => exact invariant.congr rfl rfl rfl rfl

end

theorem Invariant.start : Invariant catalog start where
  claimed := by rintro _ _ _ _ ⟨_, found, _⟩; cases found
  single := by rintro _ _ _ _ _ _ ⟨_, found, _⟩; cases found
  acting := nofun
  todo := nofun
  known := nofun
  most _ _ _ _ := Nat.zero_le _
  free _ _ _ _ _ := Nat.zero_le _
  granting := by rintro _ _ _ _ ⟨_, found, _⟩; cases found
  kept := nofun

theorem Invariant.steps (invariant : Invariant catalog system) (steps : List Step) :
    Invariant catalog (steps.foldl catalog.step system) := by
  induction steps generalizing system with
  | nil => exact invariant
  | cons taken rest after => exact after (invariant.step taken)

theorem run_invariant (catalog : Catalog) (steps : List Step) : Invariant catalog (catalog.run steps) :=
  Invariant.start.steps steps

theorem Invariant.received_at_most (invariant : Invariant catalog system) (rule : Rule) (account : Int) (index : Nat) :
    system.received.count (rule, account, index) ≤ system.halfway.count (rule, account) + 1 := by
  by_cases enabled : rule ∈ catalog.enabledRules
  · exact invariant.most rule enabled account index
  · have absent : (rule, account, index) ∉ system.received := fun member =>
      enabled (invariant.known _ member)
    rw [count_eq_zero_of_not_mem absent]
    exact Nat.zero_le _

def System.times (system : System) (packageId : String) (account : Int) (index : Nat) : Nat :=
  system.received.countP fun entry =>
    entry.1.packageId = packageId ∧ entry.2.1 = account ∧ entry.2.2 = index

theorem Invariant.times_own (invariant : Invariant catalog system)
    (own : ∀ other ∈ catalog.enabledRules, other.packageId = rule.packageId → other = rule)
    (account : Int) (index : Nat) :
    system.times rule.packageId account index = system.received.count (rule, account, index) := by
  refine countP_congr fun entry member => ?_
  obtain ⟨owner, holder, place⟩ := entry
  simp only [decide_eq_true_eq, beq_iff_eq, Prod.mk.injEq]
  exact ⟨fun ⟨packages, rest⟩ => ⟨own owner (invariant.known _ member) packages, rest⟩,
    fun ⟨same, rest⟩ => ⟨congrArg Rule.packageId same, rest⟩⟩

/-- Scans beside each other grant a rule's package to an account once, and again only after a grant
that raised halfway; and an account keeps a claim only while a scan grants it or when it has all. -/
theorem once_per_rule (catalog : Catalog) (steps : List Step) :
    (∀ rule account index, (catalog.run steps).received.count (rule, account, index) ≤
      (catalog.run steps).halfway.count (rule, account) + 1) ∧
    (∀ rule ∈ catalog.enabledRules, (∀ other ∈ catalog.enabledRules, other.packageId = rule.packageId → other = rule) →
      ∀ account index, (catalog.run steps).times rule.packageId account index ≤
        (catalog.run steps).halfway.count (rule, account) + 1) ∧
    ∀ rule ∈ catalog.enabledRules, ∀ account, (catalog.run steps).claims (key rule account) = true →
        (∃ number executed, (catalog.run steps).Grants number rule account executed) ∨
          Completed catalog (catalog.run steps) rule account := by
  have invariant := run_invariant catalog steps
  refine ⟨invariant.received_at_most, fun rule enabled own account index => ?_, invariant.kept⟩
  rw [invariant.times_own own]
  exact invariant.received_at_most rule account index

/-! A package of two actions whose second fails in the first scan. -/

def welcome : Rule := ⟨"welcome", true, "starter", .firstOnline⟩

def starters : Catalog where
  packages := [⟨"starter", true, true, 0, ["knife"], ["solari"], []⟩]
  automatic := true
  rules := [welcome]
  packageIds := by decide
  ruleIds := by decide
  plain := by decide
  known := by decide

def newcomer : Player := ⟨7, true, none⟩

/-- The first scan adds the currency and fails at the item; the second adds the currency again. -/
def grantedAgain : List Step :=
  .begin 0 0 [newcomer] :: List.replicate 4 (.turn 0 0 false) ++ .turn 0 0 true ::
    List.replicate 3 (.turn 0 0 false) ++ .begin 1 60 [newcomer] :: List.replicate 4 (.turn 1 60 false)

theorem grantedAgain_received : (starters.run grantedAgain).times "starter" 7 0 = 2 := by
  decide

theorem once_per_rule_starters : (starters.run grantedAgain).times welcome.packageId 7 0 ≤
    (starters.run grantedAgain).halfway.count (welcome, 7) + 1 :=
  (once_per_rule starters grantedAgain).2.1 welcome (by decide) (by decide) 7 0

end Dash.CarePackages
