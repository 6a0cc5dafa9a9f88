import Dash.Blueprints.Archive
import Mathlib.Data.List.Chain

/-! The import of a blueprint, its export and the check of what was exported.

The rows come back in the order of the query, and the database stores each unchanged.
-/

set_option autoImplicit false

namespace Dash.Blueprints

open Foundation Python List

variable {F : Type}

namespace Platform

variable {rt : Platform F}

/-- The blanks of the text are spaces, no two of them together. -/
structure Tight (text : List Char) : Prop where
  spaces : ∀ char ∈ text, isSpace char = true → char = ' '
  apart : text.IsChain fun first second => isSpace first = true → isSpace second = false

theorem Tight.within {text part : List Char} (tight : Tight text) (within : part <:+: text) : Tight part :=
  ⟨fun char member => tight.spaces char (within.subset member), tight.apart.infix within⟩

variable {text : List Char}

theorem Tight.collapse (tight : Tight text) : Platform.collapse text = text:= by
  fun_induction Platform.collapse text with
  | case1 => rfl
  | case2 char blank => rw [tight.spaces char mem_cons_self blank]
  | case3 => rfl
  | case4 char next rest blank other =>
    rw [(isChain_cons_cons.mp tight.apart).1 blank] at other
    cases other
  | case5 char next rest blank other ih =>
    rw [ih (tight.within (suffix_cons ..).isInfix), tight.spaces char mem_cons_self blank]
  | case6 char next rest plain ih => rw [ih (tight.within (suffix_cons ..).isInfix)]

theorem head_collapse (text : List Char) : (Platform.collapse text).head?.map isSpace = text.head?.map isSpace := by
  have space : isSpace ' ' = true := rfl
  fun_induction Platform.collapse text with simp_all

theorem collapse_tight (text : List Char) : Tight (Platform.collapse text) := by
  fun_induction Platform.collapse text with
  | case1 => exact ⟨by simp, .nil⟩
  | case2 char blank => exact ⟨by simp, .singleton _⟩
  | case3 char plain => exact ⟨by simp [plain], .singleton _⟩
  | case4 char next rest blank other ih => exact ih
  | case5 char next rest blank other ih =>
    refine ⟨forall_mem_cons.mpr ⟨fun _ => rfl, ih.spaces⟩, isChain_cons.mpr ⟨fun first found _ => ?_, ih.apart⟩⟩
    have same := head_collapse (next :: rest)
    rw [found] at same
    simpa [other] using same
  | case6 char next rest plain ih =>
    exact ⟨forall_mem_cons.mpr ⟨fun blank => absurd blank plain, ih.spaces⟩,
      isChain_cons.mpr ⟨fun _ _ blank => absurd blank plain, ih.apart⟩⟩

/-- The text does not begin with a blank. -/
def Opened (text : List Char) : Prop := ∀ char, text.head? = some char → isSpace char = false

def Closed (text : List Char) : Prop := ∀ char, text.getLast? = some char → isSpace char = false

theorem strip_within (text : List Char) : stripChars text <:+: text :=
  (List.rdropWhile_prefix ..).isInfix.trans (dropWhile_suffix _).isInfix

/-- The text neither begins nor ends with a blank. -/
structure Trim (text : List Char) : Prop where
  opened : Opened text
  closed : Closed text

theorem strip_trim (text : List Char) : Trim (stripChars text) := by
  unfold stripChars
  constructor
  · intro char found
    obtain ⟨tail, same⟩ := List.rdropWhile_prefix isSpace (text.dropWhile isSpace)
    have first := List.head?_dropWhile_not isSpace text
    rw [← same, List.head?_append, found] at first
    exact first
  · intro char found
    obtain ⟨before, same⟩ := List.getLast?_eq_some_iff.mp found
    have last := rdropWhile_last_not isSpace (text.dropWhile isSpace) (by simp [same])
    simpa [same] using last

theorem Trim.strip (trim : Trim text) : stripChars text = text:= by
  have start : text.dropWhile isSpace = text := by
    cases text with
    | nil => rfl
    | cons char rest => exact dropWhile_cons_of_neg (by simp [trim.opened char rfl])
  rw [stripChars, start, rdropWhile_eq_self_iff]
  exact fun some_ => by simp [trim.closed _ (List.getLast?_eq_some_getLast some_)]

/-- What the cleaning of a name leaves of it: no mark that becomes a blank, and no two blanks. -/
structure Clean (text : List Char) : Prop extends Tight text where
  marks : ∀ char ∈ text, char ∉ ['_', '\\', '.']

theorem Clean.within {text part : List Char} (clean : Clean text) (within : part <:+: text) : Clean part :=
  ⟨clean.toTight.within within, fun char member => clean.marks char (within.subset member)⟩

variable {char : Char}

theorem mem_collapse (member : char ∈ collapse text) : char = ' ' ∨ char ∈ text := by
  fun_induction collapse text with grind

theorem cleaned_clean (value : Value F) : Clean (rt.cleaned value) := by
  refine Clean.within ⟨collapse_tight _, fun char member => ?_⟩ (strip_within _)
  rcases mem_collapse member with rfl | inside
  · decide
  · obtain ⟨first, -, rfl⟩ := mem_map.mp inside
    split
    · decide
    next unmarked => exact unmarked

theorem dropGroup_start (text : List Char) : rt.dropGroup text <+: text := by
  unfold dropGroup
  split
  · rw [← reverse_suffix, reverse_reverse]
    exact (dropWhile_suffix _).trans ((drop_suffix ..).trans ((dropWhile_suffix _).trans (drop_suffix ..)))
  · exact prefix_refl _

theorem stem_clean (value : Value F) : Clean (rt.stem value) ∧ Trim (rt.stem value) ∧ rt.stem value ≠ [] := by
  unfold stem
  dsimp only
  split
  · refine ⟨⟨⟨@of_decide_eq_true _ (List.decidableBAll ..) rfl, by decide⟩,
      @of_decide_eq_true _ (List.decidableBAll ..) rfl⟩, ⟨?_, ?_⟩, by decide⟩
    · rintro _ ⟨⟩
      rfl
    · rintro _ ⟨⟩
      rfl
  next some_ =>
    exact ⟨(cleaned_clean value).within ((strip_within _).trans (dropGroup_start _).isInfix), strip_trim _, some_⟩

theorem cut_clean (value : Value F) : Clean ((rt.stem value).take 120) ∧ (rt.stem value).take 120 ≠ [] ∧
    Opened ((rt.stem value).take 120) := by
  obtain ⟨clean, trim, some_⟩ := rt.stem_clean value
  generalize rt.stem value = stem at *
  refine ⟨clean.within (List.take_prefix ..).isInfix, fun none_ => ?_, fun char found => ?_⟩
  · exact (take_eq_nil_iff.mp none_).elim nofun some_
  · rw [List.head?_take, if_neg nofun] at found
    exact trim.opened char found

/-- The suffix of a copy. -/
def suffix (number : Nat) : List Char := ' ' :: '(' :: (Nat.toDigits 10 number ++ [')'])

theorem suffix_digits (number : Nat) : ∀ char ∈ Nat.toDigits 10 number, char.isDigit = true :=
  fun _ member => Nat.isDigit_of_mem_toDigits (by decide) (by decide) member

theorem space_apart (low : 33 ≤ char.toNat) (high : char.toNat < 128) : isSpace char = false := by
  simp only [isSpace, Bool.or_eq_false_iff, Bool.and_eq_false_iff, decide_eq_false_iff_not]
  omega

theorem digit_plain (digit : char.isDigit = true) : isSpace char = false ∧ char ∉ ['_', '\\', '.'] := by
  have range : 48 ≤ char.toNat ∧ char.toNat ≤ 57 := by
    simpa [Char.isDigit, UInt32.le_iff_toNat_le] using digit
  refine ⟨space_apart (by omega) (by omega), fun member => ?_⟩
  simp only [mem_cons, not_mem_nil, or_false] at member
  rcases member with rfl | rfl | rfl <;> exact absurd range (by decide)

theorem suffix_plain (number : Nat) :
    ∀ char ∈ '(' :: (Nat.toDigits 10 number ++ [')']), isSpace char = false ∧ char ∉ ['_', '\\', '.'] := by
  intro char member
  rcases mem_cons.mp member with rfl | member
  · decide
  rcases mem_append.mp member with digit | last
  · exact digit_plain (suffix_digits number char digit)
  · rw [mem_singleton.mp last]
    decide

/-- What the cleaning removes is the suffix. -/
theorem dropGroup_suffix (closed : Closed text) (number : Nat) : rt.dropGroup (text ++ suffix number) = text := by
  have digits : ∀ char ∈ (Nat.toDigits 10 number).reverse, rt.isDigit char = true := fun char member =>
    rt.isDigit_digit char (suffix_digits number char (mem_reverse.mp member))
  have reversed : (text ++ suffix number).reverse =
      ')' :: ((Nat.toDigits 10 number).reverse ++ '(' :: ' ' :: text.reverse) := by
    simp [suffix]
  have group : rt.hasGroup (text ++ suffix number) = true := by
    rw [hasGroup, reversed]
    simp [takeWhile_append_of_pos digits, dropWhile_append_of_pos digits, rt.isDigit_open]
  rw [dropGroup, if_pos group, reversed, drop_succ_cons, drop_zero,
    dropWhile_append_of_pos digits, dropWhile_cons_of_neg (by simp [rt.isDigit_open]),
    drop_succ_cons, drop_zero, dropWhile_cons_of_pos (by decide)]
  have kept : text.reverse.dropWhile isSpace = text.reverse := by
    cases same : text.reverse with
    | nil => rfl
    | cons char rest =>
      refine dropWhile_cons_of_neg ?_
      rw [closed char (by rw [List.getLast?_eq_head?_reverse, same]; rfl)]
      decide
  rw [kept, reverse_reverse]

theorem dropGroup_shorter (group : rt.hasGroup text = true) :
    (rt.dropGroup text).length < text.length ∧ text.getLast? = some ')' := by
  have last : ∃ rest, text.reverse = ')' :: rest := by
    unfold hasGroup at group
    split at group
    next rest same => exact ⟨rest, same⟩
    · cases group
  obtain ⟨rest, same⟩ := last
  rw [dropGroup, if_pos group, List.getLast?_eq_head?_reverse, same, length_reverse, ← @length_reverse _ text, same]
  refine ⟨?_, rfl⟩
  have short := ((dropWhile_suffix isSpace).trans ((drop_suffix 1 _).trans
    (dropWhile_suffix rt.isDigit (l := rest)))).length_le
  exact Nat.lt_succ_of_le short

variable {text : List Char}

theorem Clean.suffixed (clean : Clean text) (closed : Closed text) (number : Nat) : Clean (text ++ suffix number) := by
  have plain := suffix_plain number
  refine ⟨⟨fun char member blank => ?_, isChain_append.mpr ⟨clean.apart, ?_, ?_⟩⟩, fun char member => ?_⟩
  · rcases mem_append.mp member with before | after
    · exact clean.spaces char before blank
    rcases mem_cons.mp after with same | after
    · exact same
    · rw [(plain char after).1] at blank
      cases blank
  · refine isChain_cons.mpr ⟨fun char found _ => (plain char (List.mem_of_mem_head? found)).1, ?_⟩
    refine List.Pairwise.isChain (pairwise_of_forall_mem_list ?_)
    exact fun _ _ second member _ => (plain second member).1
  · intro last found _ _ blank
    rw [closed last found] at blank
    cases blank
  · rcases mem_append.mp member with before | after
    · exact clean.marks char before
    rcases mem_cons.mp after with rfl | after
    · decide
    · exact (plain char after).2

/-- The text is read again as it stands, but for blanks at its ends. -/
theorem Clean.cleaned (clean : Clean text) (some_ : text ≠ []) :
    rt.cleaned (.str (String.ofList text)) = stripChars text := by
  have named : String.ofList text ≠ "" := fun same => some_ (String.ofList_eq_empty_iff.mp same)
  have kept : (text.map fun char => if char ∈ ['_', '\\', '.'] then ' ' else char) = text := by
    conv_rhs => rw [← map_id text]
    exact map_congr_left fun char member => if_neg (clean.marks char member)
  rw [Platform.cleaned, Runtime.orElse, Runtime.truthy, if_pos (decide_eq_true named), Runtime.str,
    String.toList_ofList, kept, clean.collapse]

theorem nameOf_stem {source : List Char} (kept : rt.stem (.str (String.ofList source)) = text)
    (short : text.length ≤ 120) : rt.nameOf (.str (String.ofList source)) = String.ofList text := by
  rw [nameOf, kept, take_of_length_le short]

section Names

variable (clean : Clean text) (some_ : text ≠ []) (opened : Opened text) (short : text.length ≤ 120)
include clean some_ opened short

/-- The cleaning takes the suffix of a copy off a name that does not end in a blank. -/
theorem nameOf_suffix (closed : Closed text) (number : Nat) :
    rt.nameOf (.str (String.ofList (text ++ suffix number))) = String.ofList text := by
  have trim : Trim text := ⟨opened, closed⟩
  have long : text ++ suffix number ≠ [] := by simp [suffix]
  have whole : Trim (text ++ suffix number) := by
    constructor
    · rw [Opened, List.head?_append_of_ne_nil _ some_]
      exact opened
    · intro char found
      rw [suffix, ← cons_append, ← cons_append, ← append_assoc, List.getLast?_concat] at found
      cases found
      rfl
  refine nameOf_stem ?_ short
  rw [stem, (clean.suffixed closed number).cleaned long, whole.strip, dropGroup_suffix closed, trim.strip]
  exact if_neg some_

/-- A name is cleaned to itself, if it does not end in a blank or in a number in parentheses. -/
theorem nameOf_again : rt.nameOf (.str (String.ofList text)) = String.ofList text ↔
    Closed text ∧ rt.hasGroup text = false := by
  have cut : ∀ name : List Char, name.length < text.length → text.getLast? ≠ some 't' →
      (if name = [] then "Imported Blueprint".toList else name).take 120 ≠ text := by
    intro name shorter last same
    split at same
    · exact last (same ▸ rfl)
    · rw [← same, length_take] at shorter
      omega
  have whole := @Clean.cleaned _ rt _ clean some_
  constructor
  · intro same
    rw [nameOf, String.ofList_inj, stem, whole] at same
    have closed : Closed text := by
      intro char found
      by_contra blank
      have shorter : (stripChars text).length < text.length := by
        refine lt_of_le_of_ne (strip_within _).length_le fun equal => ?_
        have trim := strip_trim text
        rw [(strip_within _).eq_of_length equal] at trim
        exact blank (trim.closed char found)
      refine cut _ (lt_of_le_of_lt ?_ shorter) (fun last => ?_) same
      · exact (strip_within _).length_le.trans (rt.dropGroup_start _).length_le
      · cases found.symm.trans last
        exact blank rfl
    refine ⟨closed, Bool.eq_false_of_not_eq_true fun group => ?_⟩
    have trim : Trim text := ⟨opened, closed⟩
    obtain ⟨shorter, last⟩ := rt.dropGroup_shorter group
    rw [trim.strip] at same
    refine cut _ (((strip_within _).length_le).trans_lt shorter) (by rw [last]; decide) same
  · rintro ⟨closed, ungrouped⟩
    have trim : Trim text := ⟨opened, closed⟩
    refine nameOf_stem ?_ short
    rw [stem, whole, trim.strip, dropGroup, ungrouped]
    exact (if_neg (trim.strip.symm ▸ some_)).trans trim.strip

end Names

/-- `value(values, index)` -/
def component (values : List F) (index : Nat) : Value F :=
  match values[index]? with
  | some number => .float number
  | none => .int 0

def exportInstance (row : Instance F) : Value F :=
  .object [("instance_id", .int row.id), ("building_type", .str row.buildingType),
    ("x", component row.transform 0), ("y", component row.transform 1), ("z", component row.transform 2),
    ("rotation", component row.transform 3), ("provides_stability", .bool row.providesStability)]

def exportPlaceable (row : Placeable F) : Value F :=
  .object [("placeable_id", .int row.id), ("building_type", .str row.buildingType),
    ("x", component row.transform 0), ("y", component row.transform 1), ("z", component row.transform 2),
    ("rx", component row.transform 3), ("ry", component row.transform 4), ("rz", component row.transform 5)]

def exportPentashield (row : Pentashield) : Value F :=
  .object [("placeable_id", .int row.placeableId), ("scale", .list ((row.scale.take 3).map .int))]

/-- The rows of a blueprint and the name of its item are those of the archive that is stored. -/
def exportBlueprint (blueprintId : Nat) (playerId itemId : Value F) (stored : Archive F) : Value F :=
  .object [("schemaVersion", .int 1),
    ("name", .str (if stored.name = "" then "Blueprint " ++ toString blueprintId else stored.name)),
    ("source", .object [("blueprintId", .int blueprintId), ("playerId", playerId), ("itemId", itemId)]),
    ("instances", .list (stored.instances.map exportInstance)),
    ("placeables", .list (stored.placeables.map exportPlaceable)),
    ("pentashields", .list (stored.pentashields.map exportPentashield))]

/-- The names that `import_blueprint` tries, in their order. -/
def candidate (base : String) : Nat → String
  | 0 => base
  | copies + 1 => base ++ " (" ++ toString (copies + 2) ++ ")"

/-- The first name that no blueprint of the player has. -/
def Picked (taken : List String) (base name : String) : Prop :=
  ∃ tries, name = candidate base tries ∧ name ∉ taken ∧ ∀ earlier < tries, candidate base earlier ∈ taken

/-- The rows of an archive under another name, in the order of a query. -/
structure SameRows (first second : Archive F) : Prop where
  instances : first.instances.Perm second.instances
  placeables : first.placeables.Perm second.placeables
  pentashields : first.pentashields.Perm second.pentashields

variable (rt) in
/-- Under whatever name the archive is stored, its export is accepted, with its rows and its name. -/
def FixedPoint (archive : Archive F) : Prop :=
  ∀ taken stored, Picked taken archive.name stored.name → SameRows stored archive →
    ∀ blueprintId playerId itemId fallbackName, ∃ again,
      rt.validateArchive (exportBlueprint blueprintId playerId itemId stored) fallbackName = .ok again ∧
        SameRows again archive ∧ again.name = archive.name

/-- A type and so many numbers, as they are accepted. -/
def Placed (rt : Platform F) (count : Nat) (type : String) (transform : List F) : Prop :=
  isType type = true ∧ transform.length = count ∧ ∀ number ∈ transform, rt.supported number = true

def Fits (scale : List Int) : Prop := scale.length = 3 ∧ ∀ value ∈ scale, ¬ (value < -32768 ∨ 32767 < value)

/-- What every accepted archive is. -/
structure WellFormed (rt : Platform F) (archive : Archive F) : Prop where
  instances : ∀ row ∈ archive.instances, Placed rt 4 row.buildingType row.transform
  placeables : ∀ row ∈ archive.placeables, Placed rt 6 row.buildingType row.transform
  pentashields : ∀ row ∈ archive.pentashields, Fits row.scale
  instanceIds : (archive.instances.map Instance.id).Nodup ∧ 0 ∉ archive.instances.map Instance.id
  placeableIds : (archive.placeables.map Placeable.id).Nodup ∧ 0 ∉ archive.placeables.map Placeable.id
  some_ : archive.instances.length + archive.placeables.length + archive.pentashields.length ≠ 0
  few : archive.instances.length + archive.placeables.length + archive.pentashields.length ≤ 10000

theorem WellFormed.perm {first second : Archive F} (formed : WellFormed rt first)
    (same : SameRows second first) : WellFormed rt second where
  instances row member := formed.instances row (same.instances.mem_iff.mp member)
  placeables row member := formed.placeables row (same.placeables.mem_iff.mp member)
  pentashields row member := formed.pentashields row (same.pentashields.mem_iff.mp member)
  instanceIds := by
    rw [(same.instances.map _).nodup_iff, (same.instances.map _).mem_iff]
    exact formed.instanceIds
  placeableIds := by
    rw [(same.placeables.map _).nodup_iff, (same.placeables.map _).mem_iff]
    exact formed.placeableIds
  some_ := by
    rw [same.instances.length_eq, same.placeables.length_eq, same.pentashields.length_eq]
    exact formed.some_
  few := by
    rw [same.instances.length_eq, same.placeables.length_eq, same.pentashields.length_eq]
    exact formed.few

theorem buildingType_ok {value : Value F} {type : String} (done : rt.buildingType value = .ok type) :
    isType type = true := by
  unfold buildingType at done
  dsimp only at done
  split at done
  next valid =>
    cases done
    exact valid
  · cases done

theorem finiteNumber_ok {value : Value F} {label : String} {number : F}
    (done : rt.finiteNumber value label = .ok number) : rt.supported number = true := by
  unfold finiteNumber at done
  split at done
  · cases done
    exact rt.zero_supported
  obtain ⟨result, -, done⟩ := result_bind.mp done
  split at done
  next inside =>
    cases done
    exact inside
  · cases done

variable {row : Value F}

theorem numbers_ok {keys : List (String × String)} {transform : List F} (done : rt.numbers row keys = .ok transform) :
    transform.length = keys.length ∧ ∀ number ∈ transform, rt.supported number = true :=
  ⟨Attempts.mapM_length done, fun _ member =>
    have ⟨_, _, found⟩ := Attempts.mapM_each done member
    finiteNumber_ok found⟩

theorem instanceOf_ok {row : Value F × Nat} {result : Instance F} (made : rt.instanceOf row = .ok result) :
    Placed rt 4 result.buildingType result.transform := by
  obtain ⟨type, valid, made⟩ := result_bind.mp made
  obtain ⟨transform, found, made⟩ := result_bind.mp made
  cases made
  exact ⟨buildingType_ok valid, numbers_ok found⟩

theorem placeableOf_ok {row : Value F × Nat} {result : Placeable F}
    (made : rt.placeableOf row = .ok result) : Placed rt 6 result.buildingType result.transform := by
  obtain ⟨type, valid, made⟩ := result_bind.mp made
  obtain ⟨transform, found, made⟩ := result_bind.mp made
  cases made
  exact ⟨buildingType_ok valid, numbers_ok found⟩

theorem scaleOf_ok {raw : Value F} {value : Int} (done : rt.scaleOf raw = .ok value) :
    ¬ (value < -32768 ∨ 32767 < value) := by
  obtain ⟨other, -, done⟩ := result_bind.mp done
  obtain ⟨inside, done⟩ := result_refuse.mp done
  cases done
  exact inside

theorem pentashieldOf_ok {mapping : List (Nat × Nat)} {result : Pentashield}
    (made : rt.pentashieldOf mapping row = .ok result) : Fits result.scale := by
  unfold pentashieldOf at made
  split at made
  · obtain ⟨values, scaled, made⟩ := result_bind.mp made
    obtain ⟨_, -, made⟩ := result_bind.mp made
    cases made
    refine ⟨Attempts.mapM_length scaled, fun value member => ?_⟩
    obtain ⟨_, -, found⟩ := Attempts.mapM_each scaled member
    exact scaleOf_ok found
  · cases made

/-- The ids of the rows that are made. -/
theorem resolved_ids {rows : List (Value F)} {key label : String} {α : Type} {ids : List Nat}
    {mapping : List (Nat × Nat)} {step : Value F × Nat → Result α} {results : List α} {idOf : α → Nat}
    (resolved : resolveIds rt.toRuntime rows key label = .ok (ids, mapping))
    (each : ∀ row result, step row = .ok result → idOf result = row.2)
    (done : (rows.zip ids).mapM step = .ok results) :
    ((results.map idOf).Nodup ∧ 0 ∉ results.map idOf) ∧ results.length = rows.length := by
  obtain ⟨sources, found, distinct, assigned, -⟩ := resolve_ok resolved
  have many : ids.length = rows.length := by rw [assigned.length, Attempts.mapM_length found]
  have numbered := assigned.numbered distinct
  rw [Attempts.mapM_map each done, map_snd_zip many.le]
  refine ⟨⟨numbered.distinct, fun zero => absurd (numbered.positive 0 zero) (by decide)⟩, ?_⟩
  rw [Attempts.mapM_length done, length_zip, many, Nat.min_self]

theorem validate_formed {payload fallbackName : Value F} {archive : Archive F}
    (accepted : rt.validateArchive payload fallbackName = .ok archive) : WellFormed rt archive := by
  obtain ⟨instances, placeables, pentashields, instanceIds, placeableIds, other, mapping, -, -, -, counted,
    resolved, placed, made, stood, shielded, -⟩ := validate_parts accepted
  obtain ⟨first, instanceCount⟩ := resolved_ids resolved instanceOf_id made
  obtain ⟨second, placeableCount⟩ := resolved_ids placed placeableOf_id stood
  obtain ⟨some_, counted⟩ := result_refuse.mp counted
  obtain ⟨few, -⟩ := result_refuse.mp counted
  rw [← instanceCount, ← placeableCount, ← Attempts.mapM_length shielded] at some_ few
  refine ⟨fun row member => ?_, fun row member => ?_, fun row member => ?_, first, second, some_, not_lt.mp few⟩
  · obtain ⟨_, -, found⟩ := Attempts.mapM_each made member
    exact instanceOf_ok found
  · obtain ⟨_, -, found⟩ := Attempts.mapM_each stood member
    exact placeableOf_ok found
  · obtain ⟨_, -, found⟩ := Attempts.mapM_each shielded member
    exact pentashieldOf_ok found

theorem reserve_distinct {label : String} {ids reserved : List Nat} (distinct : ids.Nodup)
    (fresh : ∀ id ∈ ids, id ∉ reserved) :
    ∃ all, reserve label 0 (ids.map some) reserved = .ok all := by
  induction ids generalizing reserved with
  | nil => exact ⟨reserved, rfl⟩
  | cons id rest ih =>
    obtain ⟨other, distinct⟩ := nodup_cons.mp distinct
    have ⟨all, done⟩ := ih distinct fun later member (known : later ∈ id :: reserved) =>
      (mem_cons.mp known).elim (fun same => other (same ▸ member)) (fresh later (mem_cons_of_mem _ member))
    refine ⟨all, ?_⟩
    rw [map_cons, reserve, Nat.add_zero, if_neg (fresh id mem_cons_self), done]

theorem assign_named (ids reserved : List Nat) (next : Nat) : assign 0 (ids.map some) reserved next = ids := by
  induction ids with
  | nil => rfl
  | cons id rest ih => rw [map_cons, assign, ih, Nat.add_zero]

/-- Rows with ids of their own keep them. -/
theorem resolve_exported {α : Type} {rows : List α} {encode : α → Value F} {idOf : α → Nat}
    {key : String} (label : String) (get : ∀ row, (encode row).get key = .int (idOf row))
    (distinct : (rows.map idOf).Nodup ∧ 0 ∉ rows.map idOf) :
    resolveIds rt.toRuntime (rows.map encode) key label =
      .ok (rows.map idOf, mappingOf ((rows.map idOf).map some)) := by
  have sources : (rows.map encode).mapM (sourceId rt.toRuntime key label) = .ok ((rows.map idOf).map some) := by
    rw [mapM_map, map_map]
    refine Attempts.mapM_back fun row _ => ?_
    have positive : ¬ (idOf row : Int) < 0 := not_lt.mpr (Int.natCast_nonneg _)
    rw [Function.comp_apply, sourceId, get, if_neg (by simp [Value.isBlank])]
    exact result_bind.mpr ⟨(idOf row : Int), rfl, if_neg positive⟩
  have none_ : offset ((rows.map idOf).map some) = 0 := if_neg (by simpa using distinct.2)
  have ⟨all, reserved⟩ := @reserve_distinct label _ [] distinct.1 (by simp)
  rw [resolveIds, sources]
  refine result_bind.mpr ⟨_, rfl, ?_⟩
  rw [none_]
  refine result_bind.mpr ⟨all, reserved, ?_⟩
  rw [assign_named]
  rfl

theorem finiteNumber_float {number : F} (inside : rt.supported number = true) (label : String) :
    rt.finiteNumber (.float number) label = .ok number := by
  rw [finiteNumber, if_neg (by simp [Value.isBlank])]
  exact if_pos inside

theorem buildingType_str {type : String} (valid : isType type = true) : rt.buildingType (.str type) = .ok type := by
  have parts := valid
  simp only [isType, Bool.and_eq_true, decide_eq_true_iff] at parts
  have whole : strip type = type := by
    refine strip_plain fun char member => ?_
    have allowed := all_eq_true.mp parts.2 char member
    simp only [Bool.or_eq_true, Bool.and_eq_true, decide_eq_true_iff] at allowed
    rcases allowed with ⟨small, alphanum⟩ | mark
    · have code := alphanum_code alphanum
      exact space_apart (by omega) small
    · simp only [mem_cons, not_mem_nil, or_false] at mark
      rcases mark with rfl | rfl | rfl | rfl | rfl <;> rfl
  rw [buildingType, Runtime.orElse, Runtime.truthy, if_pos (decide_eq_true parts.1.1), Runtime.str, whole]
  exact if_pos valid

theorem numbers_float {keys : List (String × String)} {transform : List F}
    (get : keys.Forall₂ (fun key number => row.get key.1 = .float number) transform)
    (inside : ∀ number ∈ transform, rt.supported number = true) :
    rt.numbers row keys = .ok transform := by
  induction get with
  | nil => rfl
  | @cons key number keys rest same _ ih =>
    have later := ih fun other member => inside other (mem_cons_of_mem _ member)
    have first := finiteNumber_float (inside number mem_cons_self) key.2
    rw [← same] at first
    rw [numbers, mapM_cons, first]
    exact result_bind.mpr ⟨number, rfl, result_bind.mpr ⟨rest, later, rfl⟩⟩

theorem instanceOf_export {row : Instance F} (valid : Placed rt 4 row.buildingType row.transform) :
    rt.instanceOf (exportInstance row, row.id) = .ok row := by
  obtain ⟨valid, length, inside⟩ := valid
  obtain ⟨id, type, transform, stability⟩ := row
  obtain ⟨x, y, z, rotation, rfl⟩ := length_eq_four.mp length
  refine result_bind.mpr ⟨type, buildingType_str valid, result_bind.mpr ⟨_, numbers_float ?_ inside, rfl⟩⟩
  exact .cons rfl (.cons rfl (.cons rfl (.cons rfl .nil)))

theorem placeableOf_export {row : Placeable F} (valid : Placed rt 6 row.buildingType row.transform) :
    rt.placeableOf (exportPlaceable row, row.id) = .ok row := by
  obtain ⟨valid, length, inside⟩ := valid
  obtain ⟨id, type, transform⟩ := row
  match transform, length with
  | [x, y, z, rx, ry, rz], _ =>
    refine result_bind.mpr ⟨type, buildingType_str valid, result_bind.mpr ⟨_, numbers_float ?_ inside, rfl⟩⟩
    exact .cons rfl (.cons rfl (.cons rfl (.cons rfl (.cons rfl (.cons rfl .nil)))))

theorem scaleOf_int {value : Int} (inside : ¬ (value < -32768 ∨ 32767 < value)) :
    rt.scaleOf (.int value) = .ok value := if_neg inside

theorem pentashieldOf_export {ids : List Nat} {row : Pentashield} (valid : Fits row.scale) (zero : 0 ∉ ids) :
    rt.pentashieldOf (mappingOf (ids.map some)) (exportPentashield row) = .ok row := by
  obtain ⟨length, inside⟩ := valid
  obtain ⟨source, scale⟩ := row
  obtain ⟨first, second, third, rfl⟩ := length_eq_three.mp length
  have scaled : [Value.int first, .int second, .int third].mapM rt.scaleOf = .ok [first, second, third] :=
    Attempts.mapM_written fun value member => scaleOf_int (inside value member)
  have none_ : offset (ids.map some) = 0 := if_neg (by simpa using zero)
  have kept := target_mapping (ids.map some) source
  rw [none_, Int.natCast_zero, Int.add_zero] at kept
  refine result_bind.mpr ⟨_, scaled, result_bind.mpr ⟨source, rfl, ?_⟩⟩
  rw [kept]
  rfl

/-- What a well-formed archive is exported as is accepted as it is. -/
theorem validate_export {stored : Archive F} (formed : WellFormed rt stored) (named : stored.name ≠ "")
    (blueprintId : Nat) (playerId itemId fallbackName : Value F) :
    rt.validateArchive (exportBlueprint blueprintId playerId itemId stored) fallbackName =
      .ok ⟨rt.nameOf (.str stored.name), stored.instances, stored.placeables, stored.pentashields⟩ := by
  have truthy : rt.truthy (.str stored.name) = true := decide_eq_true named
  have rows {α : Type} (items : List α) (encode : α → Value F) (label : String)
      (dict : ∀ item, (encode item).isDict = true) (few : items.length ≤ 10000) :
      rowsOf (.list (items.map encode)) label = .ok (items.map encode) := by
    rw [rowsOf, if_neg (by simpa using few), if_neg (by simp [dict])]
  have some_ := formed.some_
  have few := formed.few
  refine (if_neg (by simp [exportBlueprint, Value.object, Value.isDict])).trans ?_
  refine result_bind.mpr ⟨_, rows stored.instances exportInstance _ (fun _ => rfl) (by omega), ?_⟩
  refine result_bind.mpr ⟨_, rows stored.placeables exportPlaceable _ (fun _ => rfl) (by omega), ?_⟩
  refine result_bind.mpr ⟨_, rows stored.pentashields exportPentashield _ (fun _ => rfl) (by omega), ?_⟩
  refine result_bind.mpr ⟨(), ?_, ?_⟩
  · rw [checkCounts, length_map, length_map, length_map, if_neg some_, if_neg (not_lt.mpr few)]
  refine result_bind.mpr ⟨_, resolve_exported _ (fun _ => rfl) formed.instanceIds, ?_⟩
  refine result_bind.mpr ⟨_, resolve_exported _ (fun _ => rfl) formed.placeableIds, ?_⟩
  have made : ((stored.instances.map exportInstance).zip (stored.instances.map Instance.id)).mapM
      rt.instanceOf = .ok stored.instances := by
    rw [zip_map']
    exact Attempts.mapM_written fun row member => instanceOf_export (formed.instances row member)
  have stood : ((stored.placeables.map exportPlaceable).zip (stored.placeables.map Placeable.id)).mapM
      rt.placeableOf = .ok stored.placeables := by
    rw [zip_map']
    exact Attempts.mapM_written fun row member => placeableOf_export (formed.placeables row member)
  refine result_bind.mpr ⟨_, made, result_bind.mpr ⟨_, stood, result_bind.mpr ⟨stored.pentashields, ?_, ?_⟩⟩⟩
  · exact Attempts.mapM_written fun row member =>
      pentashieldOf_export (formed.pentashields row member) formed.placeableIds.2
  · have raw : rt.rawName (exportBlueprint blueprintId playerId itemId stored) fallbackName stored.instances =
        .str stored.name := by
      have kept : (exportBlueprint blueprintId playerId itemId stored).get "name" = .str stored.name := by
        rw [← if_neg named (α := String) (t := "Blueprint " ++ toString blueprintId) (e := stored.name)]
        rfl
      unfold rawName
      simp [kept, Runtime.orElse, truthy]
    rw [raw]
    rfl

theorem candidate_suffix (base : List Char) (copies : Nat) :
    candidate (String.ofList base) (copies + 1) = String.ofList (base ++ suffix (copies + 2)) := by
  rw [← String.toList_inj]
  simp [candidate, suffix]

variable (rt) in
/-- The building type of the first instance. -/
def firstType (payload : Value F) : Option String :=
  match payload.get "instances" with
  | .list (row :: _) => some (strip (rt.str (rt.orElse (row.get "building_type") (.str ""))))
  | _ => none

variable (rt) in
/-- What stands for a name: that of the payload, or else the building type of its first instance. -/
def givenName (payload fallbackName : Value F) : Value F :=
  let raw := rt.orElse (payload.get "name") (rt.orElse (payload.get "Name")
    (rt.orElse (payload.get "blueprint_name") fallbackName))
  match rt.truthy raw, rt.firstType payload with
  | false, some type => .str type
  | _, _ => raw

variable (rt) in
/-- What the cleaning leaves of the name, cut to its length, neither ends in a blank nor in a number in
parentheses. -/
def Settled (payload fallbackName : Value F) : Prop :=
  Closed ((rt.stem (rt.givenName payload fallbackName)).take 120) ∧
    rt.hasGroup ((rt.stem (rt.givenName payload fallbackName)).take 120) = false

variable {payload fallbackName : Value F} {archive : Archive F}

theorem validate_first (accepted : rt.validateArchive payload fallbackName = .ok archive) :
    archive.instances.head?.map Instance.buildingType = rt.firstType payload := by
  obtain ⟨instances, _, _, ids, _, _, _, read, -, -, -, resolved, -, made, -⟩ := validate_parts accepted
  obtain ⟨sources, found, -, assigned, -⟩ := resolve_ok resolved
  have many : ids.length = instances.length := by rw [assigned.length, Attempts.mapM_length found]
  unfold rowsOf at read
  unfold firstType
  split at read
  next blank =>
    cases read
    rw [blank, ← Except.ok.inj made]
    rfl
  next items listed =>
    obtain ⟨-, read⟩ := result_refuse.mp read
    obtain ⟨-, read⟩ := result_refuse.mp read
    cases read
    rw [listed]
    match instances, ids, many with
    | [], [], _ =>
      rw [← Except.ok.inj made]
      rfl
    | row :: rest, id :: others, _ =>
      rw [zip_cons_cons, mapM_cons] at made
      obtain ⟨first, one, made⟩ := result_bind.mp made
      obtain ⟨tail, -, made⟩ := result_bind.mp made
      obtain ⟨type, typed, one⟩ := result_bind.mp one
      obtain ⟨_, -, one⟩ := result_bind.mp one
      cases one
      rw [← Except.ok.inj made]
      unfold buildingType at typed
      dsimp only at typed
      split at typed
      · cases typed
        rfl
      · cases typed
  · cases read

theorem validate_name (accepted : rt.validateArchive payload fallbackName = .ok archive) :
    archive.name = rt.nameOf (rt.givenName payload fallbackName) := by
  have ⟨_, _, _, _, _, _, _, _, _, _, _, _, _, _, _, _, same⟩ := validate_parts accepted
  have given : rt.rawName payload fallbackName archive.instances = rt.givenName payload fallbackName := by
    unfold givenName rawName
    rw [← validate_first accepted]
    generalize rt.orElse (payload.get "name") _ = raw
    cases truth : rt.truthy raw <;> cases archive.instances <;> simp [truth]
  rw [same, given]

/-- An accepted payload comes back as it was if its name is cleaned for good. -/
theorem fixed_point_iff (accepted : rt.validateArchive payload fallbackName = .ok archive) :
    rt.FixedPoint archive ↔ rt.Settled payload fallbackName := by
  have named := validate_name accepted
  have formed := validate_formed accepted
  obtain ⟨clean, some_, opened⟩ := rt.cut_clean (rt.givenName payload fallbackName)
  have short : ((rt.stem (rt.givenName payload fallbackName)).take 120).length ≤ 120 :=
    length_take_le ..
  rw [nameOf] at named
  unfold Settled
  generalize (rt.stem (rt.givenName payload fallbackName)).take 120 = base at *
  constructor
  · intro fixed
    have whole : archive.name ≠ "" := fun none_ => some_ (String.ofList_eq_empty_iff.mp (named.symm.trans none_))
    obtain ⟨again, done, -, same⟩ := fixed [] archive ⟨0, rfl, by simp, by simp⟩
      ⟨.refl _, .refl _, .refl _⟩ 1 .none .none .none
    rw [validate_export formed whole] at done
    obtain rfl := Except.ok.inj done
    rw [named] at same
    exact (nameOf_again clean some_ opened short).mp same
  · rintro ⟨closed, ungrouped⟩ taken stored ⟨tries, picked, -⟩ same blueprintId playerId itemId fallbackName
    have cleaned : stored.name ≠ "" ∧ rt.nameOf (.str stored.name) = archive.name := by
      rw [named] at picked ⊢
      cases tries with
      | zero =>
        rw [picked, candidate]
        exact ⟨fun none_ => some_ (String.ofList_eq_empty_iff.mp none_),
          (nameOf_again clean some_ opened short).mpr ⟨closed, ungrouped⟩⟩
      | succ copies =>
        rw [picked, candidate_suffix]
        refine ⟨fun none_ => ?_, nameOf_suffix clean some_ opened short closed _⟩
        simp [String.ofList_eq_empty_iff, suffix] at none_
    exact ⟨_, validate_export (formed.perm same) cleaned.1 blueprintId playerId itemId fallbackName,
      ⟨same.instances, same.placeables, same.pentashields⟩, cleaned.2⟩

end Platform

theorem fixed_gate : plain.FixedPoint gate ↔ plain.Settled (pair [("placeable_id", .int 1)]) .none :=
  Platform.fixed_point_iff (show plain.validateArchive (pair [("placeable_id", .int 1)]) .none = .ok gate by rfl)

/-- A copy of a copy comes back under the first name. -/
theorem copied_copy_renamed : plain.validateArchive (.object [("name", .str "Gate (1) (2)"),
      ("placeables", .list [.object [("building_type", .str "Gate")]])]) .none =
        .ok ⟨"Gate (1)", [], [⟨1, "Gate", [0, 0, 0, 0, 0, 0]⟩], []⟩ ∧
      ¬ plain.FixedPoint ⟨"Gate (1)", [], [⟨1, "Gate", [0, 0, 0, 0, 0, 0]⟩], []⟩ := by
  refine ⟨by rfl, fun fixed => ?_⟩
  obtain ⟨again, done, -, same⟩ := fixed [] ⟨"Gate (1)", [], [⟨1, "Gate", [0, 0, 0, 0, 0, 0]⟩], []⟩
    ⟨0, rfl, by simp, by simp⟩ ⟨.refl _, .refl _, .refl _⟩ 1 .none .none .none
  have accepted : plain.validateArchive (Platform.exportBlueprint 1 .none .none
      ⟨"Gate (1)", [], [⟨1, "Gate", [0, 0, 0, 0, 0, 0]⟩], []⟩) .none =
        .ok ⟨"Gate", [], [⟨1, "Gate", [0, 0, 0, 0, 0, 0]⟩], []⟩ := by rfl
  rw [← Except.ok.inj (accepted.symm.trans done)] at same
  exact absurd same (by decide)

end Dash.Blueprints
