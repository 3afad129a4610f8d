import Mathlib.Data.Char
import ParallelN64.Core.Dict
import ParallelN64.Legacy.Hts
import ParallelN64.Phrb.Emit

/-!
# Families of a legacy cache

A family is what a runtime lookup can reach: a texture checksum with a requested format and
size. Its active entries are those of exactly that format and size, or else the generic
ones; they are grouped by their dimensions. The summary of a family counts the active
entries and recommends a tier from the counts.
-/

namespace ParallelN64.Migrate

open ParallelN64.Core Phrb

abbrev CacheEntry := Legacy.HtsEntry

def hex8 (n : Nat) : Text :=
  let digits := Nat.toDigits 16 n
  List.replicate (8 - digits.length) '0' ++ digits

def decimal (n : Nat) : Text := Nat.toDigits 10 n

/-- The numbers that the identifier of a replacement prints. -/
structure ReplacementId where
  textureCrc : Nat
  paletteCrc : Nat
  formatsize : Nat
  width : Nat
  height : Nat
  deriving DecidableEq, Repr

def ReplacementId.text (id : ReplacementId) : Text :=
  "legacy-".toList ++ hex8 id.textureCrc ++ ['-'] ++ hex8 id.paletteCrc ++ "-fs".toList ++
    decimal id.formatsize ++ ['-'] ++ decimal id.width ++ ['x'] ++ decimal id.height

def makeReplacementId (entry : CacheEntry) : ReplacementId where
  textureCrc := entry.textureCrc
  paletteCrc := entry.paletteCrc
  formatsize := entry.formatsize
  width := entry.head.width
  height := entry.head.height

/-- The key of the policy of a family: a texture checksum with a requested format and
size. -/
structure FamilyKey where
  textureCrc : Nat
  formatsize : Nat
  deriving DecidableEq, Repr

def FamilyKey.text (key : FamilyKey) : Text :=
  "legacy-low32-".toList ++ hex8 key.textureCrc ++ "-fs".toList ++ decimal key.formatsize

/-- The numbers that the identifier of a variant group prints. -/
structure VariantGroupId where
  textureCrc : Nat
  requestedFormatsize : Nat
  width : Nat
  height : Nat
  deriving DecidableEq, Repr

def VariantGroupId.text (id : VariantGroupId) : Text :=
  "legacy-low32-".toList ++ hex8 id.textureCrc ++ "-fs".toList ++
    decimal id.requestedFormatsize ++ ['-'] ++ decimal id.width ++ ['x'] ++ decimal id.height

def makeVariantGroupId (requestedFormatsize : Nat) (entry : CacheEntry) : VariantGroupId where
  textureCrc := entry.textureCrc
  requestedFormatsize := requestedFormatsize
  width := entry.head.width
  height := entry.head.height

def collectFamilyEntries (entries : List CacheEntry) (textureCrc : Nat) : List CacheEntry :=
  entries.filter fun e => e.textureCrc == textureCrc

/-- Where the active entries of a family come from. -/
inductive ActivePool where
  | exact
  | generic
  deriving DecidableEq, Repr

def exactEntries (entries : List CacheEntry) (key : FamilyKey) : List CacheEntry :=
  (collectFamilyEntries entries key.textureCrc).filter fun e => e.formatsize == key.formatsize

def genericEntries (entries : List CacheEntry) (key : FamilyKey) : List CacheEntry :=
  (collectFamilyEntries entries key.textureCrc).filter fun e => e.formatsize == 0

def activePool (entries : List CacheEntry) (key : FamilyKey) : ActivePool :=
  if (exactEntries entries key).isEmpty then .generic else .exact

def activeEntries (entries : List CacheEntry) (key : FamilyKey) : List CacheEntry :=
  if (exactEntries entries key).isEmpty then genericEntries entries key
  else exactEntries entries key

inductive Tier where
  | exactAuthoritative
  | missingActivePool
  | compatUnique
  | compatReplDimsUnique
  | ambiguousImportOrPolicy
  deriving DecidableEq, Repr

/-- The counts of a family that its tier and its reports use. -/
structure FamilySummary where
  familyEntryCount : Nat
  exactFormatsizeEntries : Nat
  genericFormatsizeEntries : Nat
  activePool : ActivePool
  activeEntryCount : Nat
  activeUniqueChecksumCount : Nat
  activeUniquePaletteCount : Nat
  activeUniqueReplDimCount : Nat
  deriving DecidableEq, Repr

def buildFamilySummary (entries : List CacheEntry) (key : FamilyKey) : FamilySummary :=
  let active := activeEntries entries key
  { familyEntryCount := (collectFamilyEntries entries key.textureCrc).length
    exactFormatsizeEntries := (exactEntries entries key).length
    genericFormatsizeEntries := (genericEntries entries key).length
    activePool := activePool entries key
    activeEntryCount := active.length
    activeUniqueChecksumCount := (active.map (·.checksum64)).dedup.length
    activeUniquePaletteCount := (active.map (·.paletteCrc)).dedup.length
    activeUniqueReplDimCount := (active.map fun e => (e.head.width, e.head.height)).dedup.length }

def classifyFamily (summary : FamilySummary) : Tier :=
  if summary.activePool = .exact then .exactAuthoritative
  else if summary.activeEntryCount = 0 then .missingActivePool
  else if summary.activeUniqueReplDimCount = 1 then
    if summary.activeUniquePaletteCount = 1 then .compatUnique else .compatReplDimsUnique
  else .ambiguousImportOrPolicy

def recommendedTier (entries : List CacheEntry) (key : FamilyKey) : Tier :=
  classifyFamily (buildFamilySummary entries key)

/-- A group of the active entries that share their dimensions. -/
structure VariantGroup where
  variantGroupId : VariantGroupId
  activePool : ActivePool
  candidateReplacementIds : List ReplacementId
  legacyPaletteCrcs : List Nat
  deriving DecidableEq, Repr

abbrev GroupEntries := Dict VariantGroupId (List CacheEntry)

def addToGroup (key : FamilyKey) (groups : GroupEntries) (entry : CacheEntry) : GroupEntries :=
  let id := makeVariantGroupId key.formatsize entry
  groups.assign id ((groups.get? id).getD [] ++ [entry])

def variantGroupEntries (entries : List CacheEntry) (key : FamilyKey) : GroupEntries :=
  (activeEntries entries key).foldl (addToGroup key) []

/-- The group of some entries. -/
def variantGroup (pool : ActivePool) (group : VariantGroupId × List CacheEntry) :
    VariantGroup where
  variantGroupId := group.1
  activePool := pool
  candidateReplacementIds := group.2.map makeReplacementId
  legacyPaletteCrcs := (group.2.map (·.paletteCrc)).mergeSort fun a b => decide (a ≤ b)

/-- The groups of a family in the order of their printed identifiers. -/
def variantGroupList (entries : List CacheEntry) (key : FamilyKey) : List VariantGroup :=
  ((variantGroupEntries entries key).map
    (variantGroup (activePool entries key))).mergeSort fun a b =>
      decide (a.variantGroupId.text ≤ b.variantGroupId.text)

section Groups

variable {entries : List CacheEntry} {key : FamilyKey}

def groupMembers (entries : List CacheEntry) (key : FamilyKey) (id : VariantGroupId) :
    List CacheEntry :=
  (activeEntries entries key).filter fun e => makeVariantGroupId key.formatsize e == id

theorem get?_foldl_addToGroup (groups : GroupEntries) (active : List CacheEntry)
    (id : VariantGroupId) :
    (active.foldl (addToGroup key) groups).get? id =
      if (active.filter fun e => makeVariantGroupId key.formatsize e == id).isEmpty then
        groups.get? id
      else some ((groups.get? id).getD [] ++
        active.filter fun e => makeVariantGroupId key.formatsize e == id) := by
  induction active generalizing groups with
  | nil => simp
  | cons entry active ih =>
    rw [List.foldl_cons, ih, List.filter_cons]
    by_cases hid : makeVariantGroupId key.formatsize entry = id
    · subst hid
      rw [addToGroup, Dict.get?_assign, if_pos rfl]
      by_cases hrest : (active.filter fun e => makeVariantGroupId key.formatsize e ==
          makeVariantGroupId key.formatsize entry).isEmpty = true
      · simp [List.isEmpty_iff.mp hrest]
      · simp [hrest]
    · rw [addToGroup, Dict.get?_assign, if_neg (Ne.symm hid)]
      simp [hid]

theorem distinct_foldl_addToGroup {groups : GroupEntries} (h : groups.Distinct)
    (active : List CacheEntry) : (active.foldl (addToGroup key) groups).Distinct := by
  induction active generalizing groups with
  | nil => exact h
  | cons entry active ih => exact ih (h.assign _ _)

theorem get?_variantGroupEntries (id : VariantGroupId) :
    (variantGroupEntries entries key).get? id =
      if (groupMembers entries key id).isEmpty then none
      else some (groupMembers entries key id) := by
  rw [variantGroupEntries, get?_foldl_addToGroup]
  rfl

theorem distinct_variantGroupEntries : (variantGroupEntries entries key).Distinct := by
  have hempty : Dict.Distinct ([] : GroupEntries) := List.nodup_nil
  exact distinct_foldl_addToGroup hempty _

theorem mem_variantGroupEntries {id : VariantGroupId} {members : List CacheEntry} :
    (id, members) ∈ variantGroupEntries entries key ↔
      members = groupMembers entries key id ∧ members ≠ [] := by
  rw [Dict.mem_iff_get? distinct_variantGroupEntries, get?_variantGroupEntries]
  by_cases hempty : (groupMembers entries key id).isEmpty = true
  · rw [if_pos hempty]
    rw [List.isEmpty_iff] at hempty
    constructor
    · intro h
      cases h
    · rintro ⟨rfl, hne⟩
      exact absurd hempty hne
  · rw [if_neg hempty, Option.some.injEq]
    rw [List.isEmpty_iff] at hempty
    constructor
    · rintro rfl
      exact ⟨rfl, hempty⟩
    · rintro ⟨rfl, _⟩
      rfl

theorem mem_variantGroupList {group : VariantGroup} :
    group ∈ variantGroupList entries key ↔
      groupMembers entries key group.variantGroupId ≠ [] ∧
        group = variantGroup (activePool entries key)
          (group.variantGroupId, groupMembers entries key group.variantGroupId) := by
  rw [variantGroupList, List.mem_mergeSort, List.mem_map]
  constructor
  · rintro ⟨⟨id, members⟩, hmem, rfl⟩
    obtain ⟨rfl, hne⟩ := mem_variantGroupEntries.mp hmem
    exact ⟨hne, rfl⟩
  · rintro ⟨hne, hgroup⟩
    exact ⟨_, mem_variantGroupEntries.mpr ⟨rfl, hne⟩, hgroup.symm⟩

theorem nodup_variantGroupList :
    ((variantGroupList entries key).map VariantGroup.variantGroupId).Nodup := by
  have hperm := (List.mergeSort_perm ((variantGroupEntries entries key).map
    (variantGroup (activePool entries key))) fun a b =>
      decide (a.variantGroupId.text ≤ b.variantGroupId.text)).map VariantGroup.variantGroupId
  rw [variantGroupList, hperm.nodup_iff, List.map_map]
  exact distinct_variantGroupEntries

theorem exists_group_of_mem {entry : CacheEntry} (h : entry ∈ activeEntries entries key) :
    ∃ group ∈ variantGroupList entries key,
      group.variantGroupId = makeVariantGroupId key.formatsize entry := by
  have hmem : entry ∈ groupMembers entries key (makeVariantGroupId key.formatsize entry) := by
    simp [groupMembers, h]
  refine ⟨variantGroup (activePool entries key) (_, groupMembers entries key
    (makeVariantGroupId key.formatsize entry)), ?_, rfl⟩
  rw [mem_variantGroupList]
  exact ⟨List.ne_nil_of_mem hmem, rfl⟩

theorem mem_activeEntries {entry : CacheEntry} (h : entry ∈ activeEntries entries key) :
    entry.textureCrc = key.textureCrc := by
  unfold activeEntries exactEntries genericEntries collectFamilyEntries at h
  split_ifs at h
  · simp only [List.mem_filter, beq_iff_eq] at h
    exact h.1.2
  · simp only [List.mem_filter, beq_iff_eq] at h
    exact h.1.2

end Groups

end ParallelN64.Migrate
