import Mathlib.Algebra.Ring.Int.Defs
import Mathlib.Data.List.Infix
import Mathlib.Logic.Function.Basic

/-! The extraction of a broker's state from its archive, on a disk that holds nodes at absolute paths.

What a member reads may be shorter or longer than declared, and any operation on it may raise; an archive
that cannot be read on is one with a member that raises. Modes are left out.
-/

set_option autoImplicit false

namespace Dash.Drills

open List

abbrev Bytes : Type := List UInt8

inductive Node where
  | directory
  | file (content : Bytes)
  deriving DecidableEq

abbrev Path : Type := List String

abbrev Disk : Type := Path → Option Node

inductive MemberKind where
  | directory | file | other
  deriving DecidableEq

structure Member where
  name : String
  kind : MemberKind
  size : Int
  content : Bytes
  raises : Bool := false

def MAX_ARCHIVE_MEMBERS : Nat := 20000

def MAX_ARCHIVE_BYTES : Int := 8 * 1024 ^ 3

def MAX_MEMBER_BYTES : Int := 2 * 1024 ^ 3

/-- `while name.startswith("./"): name = name[2:]` -/
def undotted : List Char → List Char
  | '.' :: '/' :: rest => undotted rest
  | name => name

/-- `_safe_name`: the parts of the path, none for the root, unless it raises. -/
def safeName (raw : String) : Option Path :=
  let name := undotted raw.toList
  let parts := ((name.splitOn '/').map String.ofList).filter fun part => part ≠ "" && part ≠ "."
  if raw = "" ∨ Char.ofNat 0 ∈ raw.toList ∨ '\\' ∈ raw.toList then none
  else if name = [] ∨ name = ['.'] then some []
  else if name.head? = some '/' ∨ ".." ∈ parts then none
  else some parts

/-- `mkdir(parents=True, exist_ok=True)` -/
def mkdirs (path : Path) (disk : Disk) : Option Disk :=
  if path.inits.any fun above => ((disk above).any fun node => node ≠ .directory) then none
  else some fun other => if other <+: path ∧ disk other = none then some .directory else disk other

def rmtree (path : Path) (disk : Disk) : Disk := fun other => if path <+: other then none else disk other

structure Counts where
  (members files : Nat)
  bytes : Int
  deriving DecidableEq

/-- One turn of the loop, and the disk after it, also if it raises. -/
def extract (destination : Path) (member : Member) (counts : Counts) (disk : Disk) : Option Counts × Disk :=
  match safeName member.name with
  | none => (none, disk)
  | some path =>
    if path = [] then
      (if member.kind = .directory then some { counts with members := counts.members + 1 } else none, disk)
    else if member.kind = .directory then
      match mkdirs (destination ++ path) disk with
      | none => (none, disk)
      | some disk => (if member.raises then none else some { counts with members := counts.members + 1 }, disk)
    else if member.kind = .other ∨ member.size < 0 ∨ MAX_MEMBER_BYTES < member.size ∨
        MAX_ARCHIVE_BYTES < counts.bytes + member.size then (none, disk)
    else
      match mkdirs (destination ++ path.dropLast) disk with
      | none => (none, disk)
      | some disk =>
        if disk (destination ++ path) ≠ none then (none, disk)
        else
          (if member.raises ∨ (member.content.length : Int) ≠ member.size then none
            else some ⟨counts.members + 1, counts.files + 1, counts.bytes + member.size⟩,
            Function.update disk (destination ++ path) (some (.file (member.content.take member.size.toNat))))

def extractAll (destination : Path) : List Member → Counts → Disk → Option Counts × Disk
  | [], counts, disk => (some counts, disk)
  | member :: rest, counts, disk =>
    if MAX_ARCHIVE_MEMBERS ≤ counts.members then (none, disk)
    else match extract destination member counts disk with
    | (none, disk) => (none, disk)
    | (some counts, disk) => extractAll destination rest counts disk

/-- `safe_extract_state` -/
def safeExtractState (members : List Member) (destination : Path) (disk : Disk) : Option Counts × Disk :=
  if disk destination ≠ none then (none, disk)
  else match mkdirs destination disk with
  | none => (none, disk)
  | some opened =>
    match extractAll destination members ⟨0, 0, 0⟩ opened with
    | (none, after) => (none, rmtree destination after)
    | (some counts, after) =>
      if after (destination ++ ["mnesia"]) = some .directory ∧ counts.files ≠ 0 then (some counts, after)
      else (none, rmtree destination after)

/-- The tree has the regular files of the members, and the directories that are members or above one. -/
structure TreeOf (members : List Member) (tree : Disk) : Prop where
  file : ∀ path content, tree path = some (.file content) ↔ ∃ member ∈ members, member.kind = .file ∧
    safeName member.name = some path ∧ member.content = content
  directory : ∀ path, tree path = some .directory ↔ path = [] ∨ ∃ member ∈ members, ∃ parts,
    safeName member.name = some parts ∧ path <+: parts ∧ (member.kind = .file → path ≠ parts)

def filesOf (members : List Member) : List Member := members.filter fun member => member.kind = .file

theorem mkdirs_some {path : Path} {disk after : Disk} (made : mkdirs path disk = some after) :
    (∀ above content, above <+: path → disk above ≠ some (.file content)) ∧
      ∀ other, after other = if other <+: path then some .directory else disk other := by
  unfold mkdirs at made
  split at made
  · cases made
  next unfiled =>
    cases made
    have clear : ∀ above, above <+: path → ∀ node, disk above = some node → node = .directory := by
      intro above within node found
      by_contra filed
      exact unfiled (any_eq_true.mpr ⟨above, (mem_inits ..).mpr within, by simp [found, filed]⟩)
    refine ⟨fun above content within found => Node.noConfusion (clear above within _ found), fun other => ?_⟩
    by_cases within : other <+: path
    · cases found : disk other with
      | none => simp [within, found]
      | some node => simp [within, found, clear other within node found]
    · simp [within]

variable {destination : Path} {member : Member} {members : List Member} {counts next : Counts} {disk after : Disk}

/-- The path is not below the destination. -/
def Outside (destination other : Path) : Prop := other <+: destination ∨ ¬ destination <+: other

/-- The destination and all above it are directories. -/
def Stands (destination : Path) (disk : Disk) : Prop := ∀ other, other <+: destination → disk other = some .directory

theorem mkdirs_outside {rest : Path} (stands : Stands destination disk)
    (made : mkdirs (destination ++ rest) disk = some after) {other : Path} (outside : Outside destination other) :
    after other = disk other := by
  rw [(mkdirs_some made).2]
  split
  next above =>
    have higher : other <+: destination := by
      rcases outside with higher | apart
      · exact higher
      · have either := prefix_or_prefix_of_prefix above (prefix_append destination rest)
        exact either.resolve_right apart
    exact (stands other higher).symm
  · rfl

theorem outside_ne {rest other : Path} (outside : Outside destination other) (below : rest ≠ []) :
    other ≠ destination ++ rest := by
  rintro rfl
  rcases outside with higher | apart
  · exact below (length_eq_zero_iff.mp (by have := higher.length_le; rw [length_append] at this; omega))
  · exact apart (prefix_append _ _)

theorem extract_outside (stands : Stands destination disk) {other : Path} (outside : Outside destination other) :
    (extract destination member counts disk).2 other = disk other := by
  unfold extract
  split
  · rfl
  split
  · rfl
  split
  · split
    · rfl
    next made => exact mkdirs_outside stands made outside
  split
  · rfl
  split
  · rfl
  next below _ _ _ _ made =>
    have kept := mkdirs_outside stands made outside
    split
    · exact kept
    · exact (Function.update_of_ne (outside_ne outside below) ..).trans kept

theorem extractAll_outside (stands : Stands destination disk) {other : Path} (outside : Outside destination other) :
    (extractAll destination members counts disk).2 other = disk other := by
  induction members generalizing counts disk with
  | nil => rfl
  | cons member rest ih =>
    have step {other : Path} (outside : Outside destination other) :
        (extract destination member counts disk).2 other = disk other := extract_outside stands outside
    unfold extractAll
    split
    · rfl
    split
    next met =>
      rw [met] at step
      exact step outside
    next met =>
      -- The directories above the destination stand after the member too.
      rw [met] at step
      exact (ih fun above within => (step (.inl within)).trans (stands above within)).trans (step outside)

theorem mkdirs_below {path : Path} (made : mkdirs (destination ++ path) disk = some after) :
    (∀ above content, above <+: path → disk (destination ++ above) ≠ some (.file content)) ∧
      ∀ other, after (destination ++ other) = if other <+: path then some .directory else disk (destination ++ other) :=
  ⟨fun above content within => (mkdirs_some made).1 _ content ((prefix_append_right_inj _).mpr within), fun other => by
    rw [(mkdirs_some made).2, if_congr (prefix_append_right_inj _) rfl rfl]⟩

/-- The members so far have come to the disk, and are counted. -/
structure Met (destination : Path) (members : List Member) (counts : Counts) (disk : Disk) : Prop where
  tree : TreeOf members fun path => disk (destination ++ path)
  counted : counts = ⟨members.length, (filesOf members).length, ((filesOf members).map Member.size).sum⟩
  bounded : counts.bytes ≤ MAX_ARCHIVE_BYTES

theorem exists_snoc {holds : Member → Prop} :
    (∃ other ∈ members ++ [member], holds other) ↔ (∃ other ∈ members, holds other) ∨ holds member := by
  simp [or_and_right, exists_or]

section Grown

variable {tree grown : Disk} {path : Path} (clear : ∀ above content, above <+: path → tree above ≠ some (.file content))
  (grows : ∀ other, grown other = if other <+: path then some .directory else tree other)
include clear grows

theorem grown_file (other : Path) (content : Bytes) :
    grown other = some (.file content) ↔ tree other = some (.file content) := by
  rw [grows]
  split
  next within => simp [clear other content within]
  · rfl

omit clear in
theorem grown_directory (other : Path) :
    grown other = some .directory ↔ tree other = some .directory ∨ other <+: path := by
  rw [grows]
  split <;> simp_all

theorem TreeOf.directory_member (old : TreeOf members tree) (named : safeName member.name = some path)
    (kind : member.kind = .directory) : TreeOf (members ++ [member]) grown := by
  refine ⟨fun other content => ?_, fun other => ?_⟩
  · rw [grown_file clear grows, old.file, exists_snoc]
    simp [kind]
  · rw [grown_directory grows, old.directory, exists_snoc]
    simp [kind, named, or_assoc]

theorem TreeOf.file_member (old : TreeOf members tree) {last : String}
    (named : safeName member.name = some (path ++ [last])) (kind : member.kind = .file)
    (free : tree (path ++ [last]) = none) :
    TreeOf (members ++ [member]) (Function.update grown (path ++ [last]) (some (.file member.content))) := by
  refine ⟨fun other content => ?_, fun other => ?_⟩
  · rw [exists_snoc, Function.update_apply]
    by_cases here : other = path ++ [last]
    · rw [if_pos here, or_iff_right ((not_congr (old.file other content)).mp (by simp [here, free]))]
      simp [kind, named, here]
    · rw [if_neg here, grown_file clear grows, old.file]
      simp [named, Ne.symm here]
  · rw [exists_snoc, Function.update_apply, ← or_assoc, ← old.directory]
    by_cases here : other = path ++ [last]
    · simp [here, free, kind, named]
    · rw [if_neg here, grown_directory grows]
      simp [kind, named, prefix_concat_iff, here]

end Grown

theorem extract_met (met : Met destination members counts disk)
    (done : extract destination member counts disk = (some next, after)) :
    Met destination (members ++ [member]) next after := by
  obtain ⟨tree, rfl, bounded⟩ := met
  unfold extract at done
  split at done
  · cases done
  next path named =>
    split at done
    next root =>
      -- The root: the destination stands already, so the tree stays.
      obtain rfl := root
      split at done
      next kind =>
        cases done
        have top := (tree.directory []).mpr (.inl rfl)
        refine ⟨tree.directory_member (fun above content within found => ?_) (fun other => ?_) named kind, ?_, bounded⟩
        · rw [prefix_nil.mp within, top] at found
          cases found
        · split
          next within => rw [prefix_nil.mp within, top]
          · rfl
        · simp [filesOf, filter_append, kind]
      · cases done
    split at done
    next kind =>
      split at done
      · cases done
      next made =>
        split at done
        · cases done
        · cases done
          obtain ⟨clear, grows⟩ := mkdirs_below made
          exact ⟨tree.directory_member clear grows named kind, by simp [filesOf, filter_append, kind], bounded⟩
    split at done
    · cases done
    next low unkind admitted =>
      split at done
      · cases done
      next made =>
        split at done
        · cases done
        next absent =>
          split at done
          · cases done
          next whole =>
            cases done
            -- A file comes below the directory made for it.
            obtain ⟨above, last, rfl⟩ : ∃ above last, path = above ++ [last] :=
              ⟨_, _, (dropLast_append_getLast low).symm⟩
            have kind : member.kind = .file := by
              cases same : member.kind <;> simp_all
            obtain ⟨clear, grows⟩ := mkdirs_below made
            simp only [not_or, not_not] at admitted whole absent
            rw [dropLast_concat] at clear grows
            have free : disk (destination ++ (above ++ [last])) = none := by
              rw [← absent, grows, if_neg]
              exact fun within => absurd within.length_le (by simp)
            refine ⟨?_, by simp [filesOf, filter_append, kind], by simpa using admitted.2.2.2⟩
            rw [← whole.2, Int.toNat_natCast, take_length]
            convert tree.file_member clear grows named kind free using 1
            funext other
            simp [Function.update_apply]

theorem extractAll_met {before : List Member} (met : Met destination before counts disk)
    (few : before.length ≤ MAX_ARCHIVE_MEMBERS) (done : extractAll destination members counts disk = (some next, after)) :
    Met destination (before ++ members) next after ∧ (before ++ members).length ≤ MAX_ARCHIVE_MEMBERS := by
  induction members generalizing before counts disk with
  | nil =>
    cases done
    exact (append_nil before).symm ▸ ⟨met, few⟩
  | cons member rest ih =>
    unfold extractAll at done
    split at done
    · cases done
    next room =>
      have more : before.length < MAX_ARCHIVE_MEMBERS := by
        simpa [met.counted] using room
      split at done
      · cases done
      next step =>
        rw [append_cons]
        exact ih (extract_met met step) (by simpa using Nat.succ_le_of_lt more) done

/-- An extraction leaves the tree of its members at the destination, or nothing. Elsewhere it makes no more
than the missing directories above the destination. -/
theorem extraction_exact {outcome : Option Counts} (done : safeExtractState members destination disk = (outcome, after)) :
    (disk destination ≠ none → outcome = none ∧ after = disk) ∧
    ((∀ path, disk (destination ++ path) = none) →
      (∀ other, ¬ destination <+: other → after other = disk other ∨
        other <+: destination ∧ disk other = none ∧ after other = some .directory) ∧
      (outcome = none → ∀ path, after (destination ++ path) = none) ∧
      ∀ counts, outcome = some counts → TreeOf members (fun path => after (destination ++ path)) ∧
        counts = ⟨members.length, (filesOf members).length, ((filesOf members).map Member.size).sum⟩ ∧
        members.length ≤ MAX_ARCHIVE_MEMBERS ∧ counts.bytes ≤ MAX_ARCHIVE_BYTES) := by
  unfold safeExtractState at done
  split at done
  next there =>
    cases done
    exact ⟨fun _ => ⟨rfl, rfl⟩, fun fresh => absurd (append_nil destination ▸ fresh []) there⟩
  next absent =>
  refine ⟨fun there => absurd there absent, fun fresh => ?_⟩
  split at done
  · cases done
    exact ⟨fun other _ => .inl rfl, fun _ => fresh, fun _ impossible => nomatch impossible⟩
  next opened made =>
    have opens := (mkdirs_some made).2
    have stands : Stands destination opened := fun other above => by rw [opens, if_pos above]
    have elsewhere {other : Path} {after : Disk} (same : after other = opened other) : after other = disk other ∨
        other <+: destination ∧ disk other = none ∧ after other = some .directory := by
      rw [same, opens]
      split
      next above =>
        cases found : disk other with
        | none => exact .inr ⟨above, rfl, rfl⟩
        | some node =>
          cases node with
          | directory => exact .inl rfl
          | file content => exact absurd found ((mkdirs_some made).1 other content above)
      · exact .inl rfl
    -- The fresh destination is the tree of no members.
    have start : Met destination [] ⟨0, 0, 0⟩ opened := by
      have root (path : Path) : opened (destination ++ path) = if path = [] then some .directory else none := by
        rw [opens, fresh]
        exact if_congr ⟨fun within => prefix_nil.mp ((prefix_append_right_inj destination).mp (by rwa [append_nil])),
          fun same => by simp [same]⟩ rfl rfl
      refine ⟨⟨fun path content => ?_, fun path => ?_⟩, rfl, by decide⟩
      · rw [root]
        split <;> simp
      · rw [root]
        split <;> simp_all
    have outside {other : Path} (apart : ¬ destination <+: other) :
        (extractAll destination members ⟨0, 0, 0⟩ opened).2 other = opened other :=
      extractAll_outside stands (.inr apart)
    have removed {last : Disk} (kept : ∀ other, ¬ destination <+: other → last other = opened other) :
        (∀ other, ¬ destination <+: other → rmtree destination last other = disk other ∨ other <+: destination ∧
          disk other = none ∧ rmtree destination last other = some .directory) ∧
        ∀ path, rmtree destination last (destination ++ path) = none :=
      ⟨fun other apart => elsewhere ((if_neg apart).trans (kept other apart)), fun path => if_pos (prefix_append _ _)⟩
    split at done
    next met =>
      rw [met] at outside
      cases done
      exact ⟨(removed fun other => outside).1, fun _ => (removed fun other => outside).2,
        fun _ impossible => nomatch impossible⟩
    next met =>
      rw [met] at outside
      obtain ⟨⟨tree, counted, bounded⟩, few⟩ := extractAll_met start (Nat.zero_le _) met
      split at done
      · cases done
        refine ⟨fun other apart => elsewhere (outside apart), fun impossible => (nomatch impossible),
          fun counts same => ?_⟩
        cases same
        exact ⟨tree, counted, few, bounded⟩
      · cases done
        exact ⟨(removed fun other => outside).1, fun _ => (removed fun other => outside).2,
          fun _ impossible => nomatch impossible⟩

/-- An archive with a file of the broker's state. -/
def stateArchive : List Member := [⟨"mnesia", .directory, 0, [], false⟩, ⟨"./mnesia/schema.DAT", .file, 1, [7], false⟩]

def bareDisk : Disk := fun path => if path = [] then some .directory else none

theorem extraction_exact_state : TreeOf stateArchive fun path =>
    (safeExtractState stateArchive ["srv"] bareDisk).2 (["srv"] ++ path) :=
  (((extraction_exact (Prod.eta _).symm).2 fun _ => rfl).2.2 ⟨2, 1, 1⟩ (by decide)).1

/-- The directory above the destination is made and left. -/
theorem parent_created : ¬ ∀ other, ¬ ["srv", "state"] <+: other →
    (safeExtractState stateArchive ["srv", "state"] bareDisk).2 other = bareDisk other := by
  intro unchanged
  exact absurd (unchanged ["srv"] (by decide)) (by decide)

end Dash.Drills
