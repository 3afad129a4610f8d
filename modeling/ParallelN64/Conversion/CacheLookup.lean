import ParallelN64.Core.Dict
import ParallelN64.Legacy.Hts

/-!
# Looking up a cache entry

Three tools look for the entry of a checksum with a format and size: exactly that one, or else a
generic one. One tool walks the list, two build indices from it. All take the last exact entry; of
the generic ones the walk takes the last and the indices keep the first.
-/

namespace ParallelN64.Conversion

open ParallelN64.Core Legacy

section Lookups

variable (checksum64 formatsize : Nat)

/-- A turn of `find_cache_entry`. -/
def findStep (found : Option HtsEntry × Option HtsEntry) (entry : HtsEntry) :
    Option HtsEntry × Option HtsEntry :=
  if entry.checksum64 ≠ checksum64 then found
  else if entry.formatsize = formatsize then (some entry, found.2)
  else if entry.formatsize = 0 then (found.1, some entry)
  else found

/-- `find_cache_entry`. -/
def findCacheEntry (entries : List HtsEntry) : Option HtsEntry :=
  let found := entries.foldl (findStep checksum64 formatsize) (none, none)
  found.1.or found.2

/-- The indices of a cache. -/
structure CacheView where
  exactIndex : Dict (Nat × Nat) HtsEntry := []
  genericIndex : Dict Nat HtsEntry := []

/-- A turn of the loops that build the indices. -/
def CacheView.add (view : CacheView) (entry : HtsEntry) : CacheView where
  exactIndex := view.exactIndex.assign (entry.checksum64, entry.formatsize) entry
  genericIndex :=
    if entry.formatsize = 0 then view.genericIndex.setDefault entry.checksum64 entry
    else view.genericIndex

/-- `get_entries` of the package materialiser. -/
def getEntries (entries : List HtsEntry) : CacheView := entries.foldl CacheView.add {}

/-- `get_cache_view` of the streaming loader. -/
def getCacheView (entries : List HtsEntry) : CacheView := entries.foldl CacheView.add {}

def CacheView.entry (view : CacheView) : Option HtsEntry :=
  (view.exactIndex.get? (checksum64, formatsize)).or (view.genericIndex.get? checksum64)

end Lookups

def entriesOf (checksum64 formatsize : Nat) (entries : List HtsEntry) : List HtsEntry :=
  entries.filter fun entry => entry.checksum64 = checksum64 ∧ entry.formatsize = formatsize

section Found

variable {checksum64 formatsize : Nat} {entries : List HtsEntry}

theorem entriesOf_concat (entry : HtsEntry) :
    entriesOf checksum64 formatsize (entries ++ [entry]) =
      if entry.checksum64 = checksum64 ∧ entry.formatsize = formatsize then
        entriesOf checksum64 formatsize entries ++ [entry]
      else entriesOf checksum64 formatsize entries := by
  rw [entriesOf, List.filter_append]
  by_cases h : entry.checksum64 = checksum64 ∧ entry.formatsize = formatsize
  · simp [h, entriesOf]
  · simp [h, entriesOf]

theorem foldl_findStep (hgeneric : formatsize ≠ 0) :
    entries.foldl (findStep checksum64 formatsize) (none, none) =
      ((entriesOf checksum64 formatsize entries).getLast?,
        (entriesOf checksum64 0 entries).getLast?) := by
  induction entries using List.reverseRecOn with
  | nil => rfl
  | append_singleton entries entry ih =>
    rw [List.foldl_append, ih, entriesOf_concat, entriesOf_concat, List.foldl_cons, List.foldl_nil,
      findStep]
    by_cases hchecksum : entry.checksum64 = checksum64
    · by_cases hexact : entry.formatsize = formatsize
      · simp [hchecksum, hexact, hgeneric]
      · by_cases hzero : entry.formatsize = 0
        · simp [hchecksum, hzero, Ne.symm hgeneric]
        · simp [hchecksum, hexact, hzero]
    · simp [hchecksum]

theorem foldl_findStep_zero :
    entries.foldl (findStep checksum64 0) (none, none) =
      ((entriesOf checksum64 0 entries).getLast?, none) := by
  induction entries using List.reverseRecOn with
  | nil => rfl
  | append_singleton entries entry ih =>
    rw [List.foldl_append, ih, entriesOf_concat, List.foldl_cons, List.foldl_nil, findStep]
    by_cases hchecksum : entry.checksum64 = checksum64
    · by_cases hexact : entry.formatsize = 0
      · simp [hchecksum, hexact]
      · simp [hchecksum, hexact]
    · simp [hchecksum]

theorem get?_exactIndex :
    (entries.foldl CacheView.add {}).exactIndex.get? (checksum64, formatsize) =
      (entriesOf checksum64 formatsize entries).getLast? := by
  induction entries using List.reverseRecOn with
  | nil => rfl
  | append_singleton entries entry ih =>
    rw [List.foldl_append, List.foldl_cons, List.foldl_nil, CacheView.add, Dict.get?_assign, ih,
      entriesOf_concat]
    by_cases hkey : entry.checksum64 = checksum64 ∧ entry.formatsize = formatsize
    · obtain ⟨rfl, rfl⟩ := hkey
      rw [if_pos rfl, if_pos ⟨rfl, rfl⟩, List.getLast?_concat]
    · rw [if_neg hkey, if_neg fun h => hkey ⟨(Prod.mk.inj h).1.symm, (Prod.mk.inj h).2.symm⟩]

theorem get?_genericIndex :
    (entries.foldl CacheView.add {}).genericIndex.get? checksum64 =
      (entriesOf checksum64 0 entries).head? := by
  induction entries using List.reverseRecOn with
  | nil => rfl
  | append_singleton entries entry ih =>
    rw [List.foldl_append, List.foldl_cons, List.foldl_nil, CacheView.add, entriesOf_concat]
    by_cases hzero : entry.formatsize = 0
    · rw [if_pos hzero, Dict.get?_setDefault, ih]
      by_cases hchecksum : entry.checksum64 = checksum64
      · rw [if_pos hchecksum.symm, if_pos ⟨hchecksum, hzero⟩, List.head?_append, hchecksum, ih]
        cases (entriesOf checksum64 0 entries).head? <;> rfl
      · rw [if_neg (Ne.symm hchecksum), if_neg fun h => hchecksum h.1]
    · rw [if_neg hzero, if_neg fun h => hzero h.2, ih]

end Found

/-- The three tools select the same entry: an exact one where there is one, and else a generic one
where there is one. -/
def LookupsAgree (entries : List HtsEntry) (checksum64 formatsize : Nat) : Prop :=
  let found := findCacheEntry checksum64 formatsize entries
  (getEntries entries).entry checksum64 formatsize = found ∧
    (getCacheView entries).entry checksum64 formatsize = found ∧
    if entriesOf checksum64 formatsize entries ≠ [] then
      ∃ entry ∈ entriesOf checksum64 formatsize entries, found = some entry
    else if entriesOf checksum64 0 entries ≠ [] then
      ∃ entry ∈ entriesOf checksum64 0 entries, found = some entry
    else found = none

/-- They agree exactly when there is an exact entry, as there is for the generic format and size
where there is any, or when the first generic entry is the last one. -/
theorem lookupsAgree_iff (entries : List HtsEntry) (checksum64 formatsize : Nat) :
    LookupsAgree entries checksum64 formatsize ↔
      entriesOf checksum64 formatsize entries ≠ [] ∨
        (entriesOf checksum64 0 entries).head? = (entriesOf checksum64 0 entries).getLast? := by
  have hview : (entries.foldl CacheView.add {}).entry checksum64 formatsize =
      ((entriesOf checksum64 formatsize entries).getLast?).or
        (entriesOf checksum64 0 entries).head? := by
    rw [CacheView.entry, get?_exactIndex, get?_genericIndex]
  have hwalk : findCacheEntry checksum64 formatsize entries =
      ((entriesOf checksum64 formatsize entries).getLast?).or
        (entriesOf checksum64 0 entries).getLast? := by
    rw [findCacheEntry]
    by_cases hzero : formatsize = 0
    · subst hzero
      rw [foldl_findStep_zero]
      cases (entriesOf checksum64 0 entries).getLast? <;> rfl
    · rw [foldl_findStep hzero]
  rw [LookupsAgree, getEntries, getCacheView, hview, hwalk]
  by_cases hexact : entriesOf checksum64 formatsize entries = []
  · rw [hexact]
    simp only [List.getLast?_nil, Option.none_or, ne_eq, not_true_eq_false, if_false, false_or]
    refine ⟨And.left, fun hsame => ⟨hsame, hsame, ?_⟩⟩
    split
    · rename_i hgeneric
      exact ⟨_, List.getLast_mem hgeneric, List.getLast?_eq_some_getLast hgeneric⟩
    · rename_i hnone
      rw [not_not.mp hnone]
      rfl
  · rw [List.getLast?_eq_some_getLast hexact]
    simp only [Option.some_or, ne_eq, hexact, not_false_eq_true, if_true, true_or, iff_true,
      true_and]
    exact ⟨_, List.getLast_mem hexact, rfl⟩

/-- A generic entry whose texture lies at an offset. -/
def genericAt (dataOffset : Nat) : HtsEntry where
  checksum64 := 1
  paletteCrc := 0
  textureCrc := 1
  formatsize := 0
  head := ⟨1, 1, 0, 0, 0⟩
  isHires := true
  dataSize := 4
  dataOffset := dataOffset
  sourcePath := "cache.hts"
  storage := "hts"
  inlineBlob := true

/-- Of two generic entries the walk takes the second and the indices take the first. -/
theorem twoGeneric_not_lookupsAgree : ¬ LookupsAgree [genericAt 0, genericAt 4] 1 2 := by
  rintro ⟨hsame, -⟩
  exact absurd hsame (by decide)

end ParallelN64.Conversion
