import ParallelN64.Hires.Accounting

/-!
# The entry that is decoded for a resolution

A resolution reports fields of the entry it selected, and the descriptor path looks an entry up
again by these fields. The sampled path finds the selected entry again unless another entry is
preferred under its sampled key.
-/

namespace ParallelN64.Hires

open ParallelN64.Core Replacement Phrb

/-- A query to the provider. -/
inductive ProviderQuery where
  | upload (query : SampledFamilyLookupKey) (selector : UInt64)
  | ciLow32 (low32 : UInt32) (formatsize : UInt16) (preferredPaletteCrc : UInt32)
      (replW replH : UInt32) (mode : CILow32ResolutionMode)
  deriving DecidableEq, Repr

def ProviderQuery.formatsize : ProviderQuery → UInt16
  | .upload query _ => query.formatsize
  | .ciLow32 _ formatsize _ _ _ _ => formatsize

def ProviderQuery.resolve (p : Provider) : ProviderQuery → Option ReplacementResolution
  | .upload query selector => resolveUploadCandidate p query selector
  | .ciLow32 low32 formatsize preferredPaletteCrc replW replH mode =>
    resolveCILow32Candidate p low32 formatsize preferredPaletteCrc replW replH mode

def ProviderQuery.entry (p : Provider) : ProviderQuery → Option Entry
  | .upload query selector => (findUploadCandidate p query selector).map Prod.fst
  | .ciLow32 low32 formatsize preferredPaletteCrc replW replH mode =>
    (findCILow32Entry p low32 formatsize preferredPaletteCrc replW replH mode).map Prod.fst

/-- A resolution reports the fields of an entry by which it is looked up again. -/
structure ReplacementResolution.Describes (resolution : ReplacementResolution) (e : Entry) :
    Prop where
  available : resolution.available = true
  identity : resolution.identity = populateIdentityFromEntry e
  resolvedChecksum64 : resolution.resolvedChecksum64 = e.checksum64
  resolvedSelectorChecksum64 : resolution.resolvedSelectorChecksum64 = e.selectorChecksum64

section Search

variable (ys : List Entry) (formatsize : UInt16)

def lastMatching (selector : UInt64) : Option Entry :=
  ys.reverse.find? fun entry =>
    entry.formatsize == formatsize && entry.selectorChecksum64 == selector

/-- The lookup by checksum among the entries of one class with this checksum. -/
def searchChecksum (selector : UInt64) : Option Entry :=
  (if selector ≠ 0 then
    lastMatching ys formatsize selector <|> lastMatching ys 0 selector
  else none) <|> lastMatching ys formatsize 0 <|> lastMatching ys 0 0 <|>
    if selector = 0 ∧ formatsize = 0 then ys.getLast? else none

def formatsizeTier : Entry → Nat :=
  tier (fun entry => entry.formatsize == formatsize) fun entry => entry.formatsize == 0

/-- An entry of the list that a lookup with a format size can find. -/
structure Findable (e : Entry) : Prop where
  mem : e ∈ ys
  fits : e.formatsize = formatsize ∨ e.formatsize = 0 ∨
    (formatsize = 0 ∧ ys.getLast? = some e ∧ lastMatching ys 0 0 = none)

end Search

section SearchLemmas

variable {ys : List Entry} {formatsize : UInt16} {e : Entry}

theorem lastMatching_eq_find (ys : List Entry) (formatsize : UInt16) (selector : UInt64) :
    lastMatching ys formatsize selector =
      (ys.filter (·.selectorChecksum64 == selector)).reverse.find?
        (·.formatsize == formatsize) := by
  rw [lastMatching, ← List.filter_reverse, List.find?_filter]
  refine congrArg (List.find? · ys.reverse) (funext fun entry => ?_)
  rw [Bool.and_comm, Bool.decide_and, Bool.decide_eq_true, Bool.decide_eq_true]

theorem lastMatching_spec {selector : UInt64}
    (h : lastMatching ys formatsize selector = some e) :
    e ∈ ys ∧ e.formatsize = formatsize ∧ e.selectorChecksum64 = selector := by
  have hpred := List.find?_some h
  simp only [Bool.and_eq_true, beq_iff_eq] at hpred
  exact ⟨List.mem_reverse.mp (List.mem_of_find?_eq_some h), hpred⟩

theorem findable_of_searchChecksum {selector : UInt64}
    (h : searchChecksum ys formatsize selector = some e) : Findable ys formatsize e := by
  have hexact : ∀ s, lastMatching ys formatsize s = some e → Findable ys formatsize e :=
    fun s hs => ⟨(lastMatching_spec hs).1, Or.inl (lastMatching_spec hs).2.1⟩
  have hgeneric : ∀ s, lastMatching ys 0 s = some e → Findable ys formatsize e :=
    fun s hs => ⟨(lastMatching_spec hs).1, Or.inr (Or.inl (lastMatching_spec hs).2.1)⟩
  rw [searchChecksum] at h
  simp only [Option.orElse_eq_orElse, Option.orElse_eq_or, Option.or_eq_some_iff] at h
  obtain hselector | ⟨-, hzero | ⟨-, hzero | ⟨hnone, hlast⟩⟩⟩ := h
  · split at hselector
    next =>
      simp only [Option.or_eq_some_iff] at hselector
      obtain hs | ⟨-, hs⟩ := hselector
      · exact hexact _ hs
      · exact hgeneric _ hs
    next => cases hselector
  · exact hexact 0 hzero
  · exact hgeneric 0 hzero
  · split at hlast
    next hboth =>
      exact ⟨List.mem_of_getLast? hlast, Or.inr (Or.inr ⟨hboth.2, hlast, hnone⟩)⟩
    next => cases hlast

theorem searchChecksum_again (h : Findable ys formatsize e) :
    (∀ d, searchChecksum ys formatsize e.selectorChecksum64 = some d → d = e) ↔
      (ys.filter (·.selectorChecksum64 == e.selectorChecksum64)).reverse.argmin
        (formatsizeTier formatsize) = some e := by
  generalize hselector : e.selectorChecksum64 = selector
  have hexact := lastMatching_eq_find ys formatsize selector
  have hgeneric := lastMatching_eq_find ys 0 selector
  rw [formatsizeTier, argmin_tier, ← hexact, ← hgeneric, searchChecksum]
  cases hfirst : lastMatching ys formatsize selector with
  | some a =>
    by_cases hzero : selector = 0
    · subst hzero
      simp [hfirst]
    · simp [hzero]
  | none =>
    cases hsecond : lastMatching ys 0 selector with
    | some a =>
      by_cases hzero : selector = 0
      · subst hzero
        simp [hfirst, hsecond]
      · simp [hzero]
    | none =>
      have hmem : e ∈ (ys.filter (·.selectorChecksum64 == selector)).reverse := by
        simp [h.mem, hselector]
      have hother : ∀ size, lastMatching ys size selector = none →
          e.formatsize ≠ size := by
        intro size hnone hsize
        rw [lastMatching_eq_find, List.find?_eq_none] at hnone
        exact hnone e hmem (beq_iff_eq.mpr hsize)
      obtain ⟨rfl, hlast, hnone⟩ := (h.fits.resolve_left (hother _ hfirst)).resolve_left
        (hother _ hsecond)
      obtain ⟨before, rfl⟩ := List.getLast?_eq_some_iff.mp hlast
      have hhead : ((before ++ [e]).filter
          (·.selectorChecksum64 == selector)).reverse.head? = some e := by
        simp [List.filter_append, hselector]
      rw [hhead]
      by_cases hzero : selector = 0
      · subst hzero
        simp [hfirst]
      · simp [hzero, hnone]

end SearchLemmas

section Lookups

variable {p : Provider} {e : Entry}

theorem positions_map_entryAt {κ : Type} [DecidableEq κ] (p : Provider) (key : Entry → Option κ)
    (k : κ) :
    (positions key p.entries k).map p.entryAt = p.entries.filter fun d => key d = some k := by
  rw [positions, List.map_map, ← occurrences_map_fst]
  exact List.map_congr_left fun found hfound =>
    Provider.entryAt_of_getElem? (mem_occurrences.mp hfound).1

theorem findMatchingAt_eq (p : Provider) (indices : List Nat) (formatsize : UInt16)
    (selector : UInt64) :
    findMatchingAt p indices formatsize selector =
      lastMatching (indices.map p.entryAt) formatsize selector := by
  rw [findMatchingAt, lastWhere, lastMatching, List.map_reverse]

theorem findIndexedEntry_eq {m : Table UInt64 (List Nat)} {key : Entry → Option UInt64}
    (h : GroupIndex m key p.entries) (checksum64 : UInt64) (formatsize : UInt16)
    (selector : UInt64) :
    findIndexedEntry p m checksum64 formatsize selector =
      searchChecksum (p.entries.filter fun d => key d = some checksum64) formatsize
        selector := by
  rw [findIndexedEntry, ← positions_map_entryAt]
  cases hlookup : m.lookup checksum64 with
  | none =>
    have hnil : positions key p.entries checksum64 = [] := by
      rw [← h.getD, hlookup]
      rfl
    simp [hnil, searchChecksum, lastMatching]
  | some indices =>
    obtain rfl := h.of_lookup hlookup
    simp only [findMatchingAt_eq, searchChecksum, List.getLast?_map]

def sharing (p : Provider) (e : Entry) : List Entry :=
  p.entries.filter fun d => d.hasNativeSampledIdentity == e.hasNativeSampledIdentity &&
    d.checksum64 == e.checksum64 && d.selectorChecksum64 == e.selectorChecksum64

/-- An entry is the last of those sharing its checksum and selector whose format size fits a
query best. -/
def FitsBest (p : Provider) (formatsize : UInt16) (e : Entry) : Prop :=
  (sharing p e).reverse.argmin (formatsizeTier formatsize) = some e

def Preferred (p : Provider) (e : Entry) : Prop :=
  (p.entries.filter fun d => d.sampledKey = e.sampledKey).argmin Entry.rank = some e

theorem findCompatEntry_again (hindexed : p.Indexed) {formatsize : UInt16}
    (hclass : e.hasNativeSampledIdentity = false)
    (h : Findable (p.entries.filter fun d => d.compatChecksumKey = some e.checksum64)
      formatsize e) :
    (∀ d, findCompatEntry p e.checksum64 formatsize e.selectorChecksum64 = some d → d = e) ↔
      FitsBest p formatsize e := by
  rw [findCompatEntry, findIndexedEntry_eq hindexed.compat, searchChecksum_again h,
    List.filter_filter, FitsBest, sharing]
  simp only [hclass]
  refine iff_of_eq (congrArg (fun l : List Entry => l.reverse.argmin _ = some e)
    (List.filter_congr fun d _ => ?_))
  cases hd : d.hasNativeSampledIdentity <;>
    simp [Entry.compatChecksumKey, hd, Bool.and_comm, beq_eq_decide]

theorem findNativeEntry_again (hindexed : p.Indexed) {formatsize : UInt16}
    (hclass : e.hasNativeSampledIdentity = true)
    (h : Findable (p.entries.filter fun d => d.nativeChecksumKey = some e.checksum64)
      formatsize e) :
    (∀ d, findNativeEntry p e.checksum64 formatsize e.selectorChecksum64 = some d → d = e) ↔
      FitsBest p formatsize e := by
  rw [findNativeEntry, findIndexedEntry_eq hindexed.native, searchChecksum_again h,
    List.filter_filter, FitsBest, sharing]
  simp only [hclass]
  refine iff_of_eq (congrArg (fun l : List Entry => l.reverse.argmin _ = some e)
    (List.filter_congr fun d _ => ?_))
  cases hd : d.hasNativeSampledIdentity <;>
    simp [Entry.nativeChecksumKey, hd, Bool.and_comm, beq_eq_decide]

theorem findSampledEntry_spec (hindexed : p.Indexed) {query : SampledFamilyLookupKey}
    {selector : UInt64} (h : p.findSampledEntry query selector = some e) :
    e.hasNativeSampledIdentity = true ∧ e ∈ p.entries ∧ Preferred p e := by
  have hfound : ∃ k, p.sampledEntry k = some e := by
    rw [Provider.findSampledEntry] at h
    simp only [Option.orElse_eq_orElse, Option.orElse_eq_or, Option.or_eq_some_iff] at h
    obtain hselector | ⟨-, hzero | ⟨-, hzero⟩⟩ := h
    · split at hselector
      next =>
        simp only [Option.or_eq_some_iff] at hselector
        obtain hs | ⟨-, hs⟩ := hselector
        · exact ⟨_, hs⟩
        · exact ⟨_, hs⟩
      next => cases hselector
    · exact ⟨_, hzero⟩
    · exact ⟨_, hzero⟩
  obtain ⟨k, hk⟩ := hfound
  rw [hindexed.sampledEntry_eq] at hk
  obtain ⟨hmem, hkey⟩ := List.mem_filter.mp (List.argmin_mem hk)
  rw [decide_eq_true_eq] at hkey
  refine ⟨?_, hmem, ?_⟩
  · cases hclass : e.hasNativeSampledIdentity with
    | true => rfl
    | false => simp [Entry.sampledKey, hclass] at hkey
  · rw [Preferred, hkey]
    exact hk

theorem exists_preferred (hmem : e ∈ p.entries) :
    ∃ found, (p.entries.filter fun d => d.sampledKey = e.sampledKey).argmin Entry.rank =
      some found := by
  refine Option.ne_none_iff_exists'.mp fun hnone => ?_
  have hin : e ∈ p.entries.filter fun d => d.sampledKey = e.sampledKey :=
    List.mem_filter.mpr ⟨hmem, decide_eq_true rfl⟩
  exact List.ne_nil_of_mem hin (List.argmin_eq_none.mp hnone)

theorem findSampledEntry_again (hindexed : p.Indexed) (hmem : e ∈ p.entries)
    (hclass : e.hasNativeSampledIdentity = true) :
    p.findSampledEntry e.makeSampledFamilyLookupKey e.selectorChecksum64 =
      (p.entries.filter fun d => d.sampledKey = e.sampledKey).argmin Entry.rank := by
  have hkey : e.sampledKey = some e.makeSampledLookupKey := if_pos hclass
  have hexact : p.findMatching e.makeSampledFamilyLookupKey e.makeSampledFamilyLookupKey.formatsize
      e.selectorChecksum64 =
        (p.entries.filter fun d => d.sampledKey = e.sampledKey).argmin Entry.rank := by
    rw [hkey]
    exact hindexed.sampledEntry_eq e.makeSampledLookupKey
  obtain ⟨found, hfound⟩ := exists_preferred hmem
  rw [Provider.findSampledEntry]
  rw [hfound] at hexact ⊢
  by_cases hzero : e.selectorChecksum64 = 0
  · rw [hzero] at hexact ⊢
    simp [hexact]
  · simp [hzero, hexact]

end Lookups

section Selected

variable {p : Provider} {e : Entry}

/-- What the kind of a resolution says about the entry that was selected. -/
def SelectedAs (p : Provider) (formatsize : UInt16) (e : Entry) : ReplacementResolutionKind → Prop
  | .sampledFamilySingleton | .sampledExactSelector =>
    e.hasNativeSampledIdentity = true ∧ e ∈ p.entries ∧ Preferred p e
  | .exactNativeSampled =>
    e.hasNativeSampledIdentity = true ∧
      Findable (p.entries.filter fun d => d.nativeChecksumKey = some e.checksum64) formatsize e
  | .genericCompat | .ciLow32SelectedDims | .ciLow32ReplacementDimsUnique | .ciLow32Unique
  | .ciLow32Any =>
    e.hasNativeSampledIdentity = false ∧
      Findable (p.entries.filter fun d => d.compatChecksumKey = some e.checksum64) formatsize e
  | .none | .sampledOrderedSurfaceReservedSelector | .genericNativeIdentity
  | .genericNativeChecksum => False

variable {formatsize : UInt16} {selector : UInt64} {indices : List Nat}

theorem findNativeEntry_findable (hindexed : p.Indexed) {checksum64 : UInt64}
    (h : findNativeEntry p checksum64 formatsize selector = some e) :
    e.hasNativeSampledIdentity = true ∧
      Findable (p.entries.filter fun d => d.nativeChecksumKey = some e.checksum64) formatsize e := by
  rw [findNativeEntry, findIndexedEntry_eq hindexed.native] at h
  have hfindable := findable_of_searchChecksum h
  have hkey := of_decide_eq_true (List.mem_filter.mp hfindable.mem).2
  cases hclass : e.hasNativeSampledIdentity with
  | false => simp [Entry.nativeChecksumKey, hclass] at hkey
  | true =>
    obtain rfl : e.checksum64 = checksum64 := by
      simpa [Entry.nativeChecksumKey, hclass] using hkey
    exact ⟨rfl, hfindable⟩

theorem findCompatEntry_findable (hindexed : p.Indexed) {checksum64 : UInt64}
    (h : findCompatEntry p checksum64 formatsize selector = some e) :
    e.hasNativeSampledIdentity = false ∧
      Findable (p.entries.filter fun d => d.compatChecksumKey = some e.checksum64) formatsize e := by
  rw [findCompatEntry, findIndexedEntry_eq hindexed.compat] at h
  have hfindable := findable_of_searchChecksum h
  have hkey := of_decide_eq_true (List.mem_filter.mp hfindable.mem).2
  cases hclass : e.hasNativeSampledIdentity with
  | true => simp [Entry.compatChecksumKey, hclass] at hkey
  | false =>
    obtain rfl : e.checksum64 = checksum64 := by
      simpa [Entry.compatChecksumKey, hclass] using hkey
    exact ⟨rfl, hfindable⟩

theorem findUploadCandidate_spec (hindexed : p.Indexed) {query : SampledFamilyLookupKey}
    {kind : ReplacementResolutionKind} {singleton : Bool}
    (h : findUploadCandidate p query selector = some (e, kind, singleton)) :
    SelectedAs p query.formatsize e kind := by
  rw [findUploadCandidate] at h
  split at h
  next found selected ordered hfamily =>
    obtain ⟨rfl, hrest⟩ := Prod.mk.inj (Option.some.inj h)
    obtain ⟨rfl, rfl⟩ := Prod.mk.inj hrest
    rw [Provider.findSingletonSampledFamilyEntry] at hfamily
    split at hfamily
    next => cases hfamily
    next =>
      split at hfamily
      next => cases hfamily
      next hsampled =>
        obtain ⟨rfl, -⟩ := Prod.mk.inj (Option.some.inj hfamily)
        exact findSampledEntry_spec hindexed hsampled
  next =>
    split at h
    next found hsampled =>
      obtain ⟨rfl, hrest⟩ := Prod.mk.inj (Option.some.inj h)
      obtain ⟨rfl, rfl⟩ := Prod.mk.inj hrest
      exact findSampledEntry_spec hindexed hsampled
    next =>
      dsimp only at h
      split at h
      next found hnative =>
        obtain ⟨rfl, hrest⟩ := Prod.mk.inj (Option.some.inj h)
        obtain ⟨rfl, rfl⟩ := Prod.mk.inj hrest
        exact findNativeEntry_findable hindexed hnative
      next =>
        split at h
        next found hcompat =>
          obtain ⟨rfl, hrest⟩ := Prod.mk.inj (Option.some.inj h)
          obtain ⟨rfl, rfl⟩ := Prod.mk.inj hrest
          exact findCompatEntry_findable hindexed hcompat
        next => cases h

theorem findable_of_low32 (hindexed : p.Indexed) {low32 : UInt32}
    (hindices : p.compatChecksumLow32Index.lookup low32 = some indices)
    (hmem : e ∈ indices.map p.entryAt) (hsize : e.formatsize = formatsize ∨ e.formatsize = 0) :
    e.hasNativeSampledIdentity = false ∧
      Findable (p.entries.filter fun d => d.compatChecksumKey = some e.checksum64) formatsize e := by
  obtain rfl := hindexed.low32.of_lookup hindices
  rw [positions_map_entryAt] at hmem
  obtain ⟨hentry, hkey⟩ := List.mem_filter.mp hmem
  cases hclass : e.hasNativeSampledIdentity with
  | true => simp [Entry.compatLow32Key, hclass] at hkey
  | false =>
    refine ⟨rfl, List.mem_filter.mpr ⟨hentry, ?_⟩, hsize.imp_right Or.inl⟩
    simp [Entry.compatChecksumKey, hclass]

theorem lastWhere_spec {pred : Entry → Bool} (h : lastWhere p indices pred = some e) :
    e ∈ indices.map p.entryAt ∧ pred e = true := by
  rw [lastWhere, List.map_reverse] at h
  exact ⟨List.mem_reverse.mp (List.mem_of_find?_eq_some h), List.find?_some h⟩

theorem pickUniqueDims_spec {candidateFormatsize : UInt16}
    (h : pickUniqueDims p indices candidateFormatsize = some e) :
    e ∈ indices.map p.entryAt ∧ e.formatsize = candidateFormatsize := by
  rw [pickUniqueDims] at h
  split at h
  next => cases h
  next selected others hfilter =>
    split at h
    next =>
      obtain rfl := Option.some.inj h
      have hmem : selected ∈ (indices.reverse.map p.entryAt).filter
          (·.formatsize == candidateFormatsize) := hfilter ▸ List.mem_cons_self
      obtain ⟨hin, hsize⟩ := List.mem_filter.mp hmem
      rw [List.map_reverse, List.mem_reverse] at hin
      exact ⟨hin, beq_iff_eq.mp hsize⟩
    next => cases h

theorem pickPalette_spec {candidateFormatsize : UInt16} {paletteCrcOrAny : UInt32}
    (h : pickPalette p indices candidateFormatsize paletteCrcOrAny = some e) :
    e ∈ indices.map p.entryAt ∧ e.formatsize = candidateFormatsize := by
  obtain ⟨hmem, hpred⟩ := lastWhere_spec h
  exact ⟨hmem, beq_iff_eq.mp (Bool.and_eq_true_iff.mp hpred).1⟩

theorem findCILow32Entry_findable (hindexed : p.Indexed) {low32 : UInt32}
    {preferredPaletteCrc replW replH : UInt32} {mode : CILow32ResolutionMode} {preferred : Bool}
    (h : findCILow32Entry p low32 formatsize preferredPaletteCrc replW replH mode =
      some (e, preferred)) :
    e.hasNativeSampledIdentity = false ∧
      Findable (p.entries.filter fun d => d.compatChecksumKey = some e.checksum64) formatsize e := by
  rw [findCILow32Entry] at h
  split at h
  next => cases h
  next =>
    split at h
    next => cases h
    next indices hindices =>
      cases mode with
      | selectedDims =>
        obtain ⟨found, hfound, hpair⟩ := Option.map_eq_some_iff.mp h
        obtain ⟨rfl, -⟩ := Prod.mk.inj hpair
        simp only [Option.orElse_eq_orElse, Option.orElse_eq_or, Option.or_eq_some_iff] at hfound
        obtain hexact | ⟨-, hgeneric⟩ := hfound
        · obtain ⟨hmem, hpred⟩ := lastWhere_spec hexact
          exact findable_of_low32 hindexed hindices hmem
            (Or.inl (beq_iff_eq.mp (Bool.and_eq_true_iff.mp hpred).1))
        · obtain ⟨hmem, hpred⟩ := lastWhere_spec hgeneric
          exact findable_of_low32 hindexed hindices hmem
            (Or.inr (beq_iff_eq.mp (Bool.and_eq_true_iff.mp hpred).1))
      | replacementDimsUnique =>
        obtain ⟨found, hfound, hpair⟩ := Option.map_eq_some_iff.mp h
        obtain ⟨rfl, -⟩ := Prod.mk.inj hpair
        simp only [Option.orElse_eq_orElse, Option.orElse_eq_or, Option.or_eq_some_iff] at hfound
        obtain hexact | ⟨-, hgeneric⟩ := hfound
        · obtain ⟨hmem, hsize⟩ := pickUniqueDims_spec hexact
          exact findable_of_low32 hindexed hindices hmem (Or.inl hsize)
        · obtain ⟨hmem, hsize⟩ := pickUniqueDims_spec hgeneric
          exact findable_of_low32 hindexed hindices hmem (Or.inr hsize)
      | unique =>
        dsimp only at h
        split at h
        next checksum64 hunique =>
          obtain ⟨found, hfound, hpair⟩ := Option.map_eq_some_iff.mp h
          obtain ⟨rfl, -⟩ := Prod.mk.inj hpair
          exact findCompatEntry_findable hindexed hfound
        next => cases h
      | any =>
        have hpick : ∀ palette, (pickPalette p indices formatsize palette <|>
            pickPalette p indices 0 palette) = some e → e.hasNativeSampledIdentity = false ∧
              Findable (p.entries.filter fun d => d.compatChecksumKey = some e.checksum64)
                formatsize e := by
          intro palette hfound
          simp only [Option.orElse_eq_orElse, Option.orElse_eq_or, Option.or_eq_some_iff] at hfound
          obtain hexact | ⟨-, hgeneric⟩ := hfound
          · obtain ⟨hmem, hsize⟩ := pickPalette_spec hexact
            exact findable_of_low32 hindexed hindices hmem (Or.inl hsize)
          · obtain ⟨hmem, hsize⟩ := pickPalette_spec hgeneric
            exact findable_of_low32 hindexed hindices hmem (Or.inr hsize)
        dsimp only at h
        rw [Option.orElse_eq_orElse, Option.orElse_eq_or, Option.or_eq_some_iff] at h
        obtain hpreferred | ⟨-, hany⟩ := h
        · split at hpreferred
          next =>
            obtain ⟨found, hfound, hpair⟩ := Option.map_eq_some_iff.mp hpreferred
            obtain ⟨rfl, -⟩ := Prod.mk.inj hpair
            exact hpick _ hfound
          next => cases hpreferred
        · obtain ⟨found, hfound, hpair⟩ := Option.map_eq_some_iff.mp hany
          obtain ⟨rfl, -⟩ := Prod.mk.inj hpair
          exact hpick _ hfound

theorem ProviderQuery.resolve_spec (hindexed : p.Indexed) {q : ProviderQuery}
    {resolution : ReplacementResolution} (hentry : q.entry p = some e)
    (hresolve : q.resolve p = some resolution) :
    p.enabled = true ∧ resolution.Describes e ∧ SelectedAs p q.formatsize e resolution.kind := by
  cases q with
  | upload query selector =>
    rw [ProviderQuery.resolve, resolveUploadCandidate] at hresolve
    split at hresolve
    next => cases hresolve
    next henabled =>
      obtain ⟨⟨found, kind, singleton⟩, hfound, hpopulate⟩ := Option.map_eq_some_iff.mp hresolve
      obtain ⟨⟨other, rest⟩, hother, rfl⟩ := Option.map_eq_some_iff.mp hentry
      obtain ⟨rfl, -⟩ := Prod.mk.inj (Option.some.inj (hfound.symm.trans hother))
      obtain rfl := hpopulate
      exact ⟨by simpa using henabled, ⟨rfl, rfl, rfl, rfl⟩,
        findUploadCandidate_spec hindexed hfound⟩
  | ciLow32 low32 formatsize preferredPaletteCrc replW replH mode =>
    rw [ProviderQuery.resolve, resolveCILow32Candidate] at hresolve
    split at hresolve
    next => cases hresolve
    next henabled =>
      obtain ⟨⟨found, preferred⟩, hfound, hpopulate⟩ := Option.map_eq_some_iff.mp hresolve
      obtain ⟨⟨other, rest⟩, hother, rfl⟩ := Option.map_eq_some_iff.mp hentry
      obtain ⟨rfl, -⟩ := Prod.mk.inj (Option.some.inj (hfound.symm.trans hother))
      obtain rfl := hpopulate
      have hspec := findCILow32Entry_findable hindexed hfound
      refine ⟨by simpa using henabled, ⟨rfl, rfl, rfl, rfl⟩, ?_⟩
      cases mode with
      | selectedDims | replacementDimsUnique | unique | any => exact hspec

end Selected

section Decoded

variable {device : HiresDevice} {p : Provider} {shader : Bool}
variable {r : HiresResources}

theorem HiresResources.mem_decoded_resolveDescriptor {key : HiresKey}
    {find : Provider → Option Entry} {replMeta : ReplacementMeta} {d : Entry}
    (h : d ∈ (r.resolveDescriptor device (some p) shader key find
      replMeta).decoded) : find p = some d := by
  unfold HiresResources.resolveDescriptor at h
  dsimp only at h
  split at h
  next => cases h
  next =>
    split at h
    next => cases h
    next =>
      split at h
      next => cases h
      next =>
        split at h
        next => cases h
        next entry hfind =>
          split at h
          next => exact hfind.trans (congrArg some (List.mem_singleton.mp h).symm)
          next =>
            unfold HiresResources.upload at h
            dsimp only at h
            split at h
            next => exact hfind.trans (congrArg some (List.mem_singleton.mp h).symm)
            next =>
              split at h
              next => exact hfind.trans (congrArg some (List.mem_singleton.mp h).symm)
              next => exact hfind.trans (congrArg some (List.mem_singleton.mp h).symm)

theorem DescriptorOutcome.finalize_decoded (outcome : DescriptorOutcome)
    (resolution : ReplacementResolution) (origW origH : UInt32)
    (pathKind : HiresProviderDescriptorPathKind) (selector : UInt64) (key : HiresKey) :
    (outcome.finalize resolution origW origH pathKind selector key).decoded =
        outcome.decoded ∧
      (outcome.finalize resolution origW origH pathKind selector key).resolved =
        outcome.resolved := by
  rw [DescriptorOutcome.finalize]
  split
  next => exact ⟨rfl, rfl⟩
  next => exact ⟨rfl, rfl⟩

/-- The pool is set up and no image is resident. -/
structure HiresResources.Vacant (r : HiresResources) : Prop where
  bindlessPool : r.bindlessPool = true
  residentImages : r.residentImages = ∅

theorem HiresResources.Vacant.allocateHiresDescriptor (h : r.Vacant)
    (visit : Visit (Sigma fun _ : HiresKey => HiresResidentImage)) (bytes : UInt64) :
    (r.allocateHiresDescriptor visit bytes).1.Vacant := by
  have htake : (r.takeDescriptor bytes).1.Vacant := by
    rw [HiresResources.takeDescriptor]
    split
    next => exact ⟨h.bindlessPool, h.residentImages⟩
    next =>
      split
      next => exact h
      next => exact ⟨h.bindlessPool, h.residentImages⟩
  have hevict : r.budgetDecision bytes ≠ .evictOldestThenAdmit := by
    rw [HiresResources.budgetDecision, decideHiresRegistryBudget, h.residentImages]
    repeat' split
    all_goals simp_all
  rw [HiresResources.allocateHiresDescriptor]
  cases hdecision : r.budgetDecision bytes with
  | admitted => exact htake
  | evictOldestThenAdmit => exact absurd hdecision hevict
  | rejectOverBudget => exact h

theorem HiresResources.Vacant.resolveDescriptor (h : r.Vacant)
    (henabled : p.enabled = true) (hcreate : ∀ key pixels, device.createImage key pixels = false)
    (key : HiresKey) (find : Provider → Option Entry) (replMeta : ReplacementMeta) :
    (r.resolveDescriptor device (some p) true key find replMeta).resolved = false ∧
      (r.resolveDescriptor device (some p) true key find replMeta).resources.Vacant ∧
      (r.resolveDescriptor device (some p) true key find replMeta).decoded =
        (find p).toList := by
  have hlookup : r.residentImages.lookup key = none := by
    rw [h.residentImages]
    exact AList.lookup_empty key
  unfold HiresResources.resolveDescriptor
  simp only [hlookup, h.bindlessPool, henabled, Bool.not_true, Bool.or_self, Bool.false_eq_true,
    if_false]
  cases find p with
  | none => exact ⟨rfl, h, rfl⟩
  | some entry =>
    dsimp only
    cases decodeReplacement device entry with
    | none => exact ⟨rfl, h, rfl⟩
    | some replacement =>
      have hvacant := h.allocateHiresDescriptor device.visit (textureBytes replacement)
      dsimp only [HiresResources.upload]
      split
      next => exact ⟨rfl, hvacant, rfl⟩
      next =>
        rw [if_neg (by rw [hcreate]; exact Bool.false_ne_true)]
        exact ⟨rfl, hvacant, rfl⟩

/-- What a path does while no image is resident and none can be created: it fails, after it
has decoded the entry that it found. -/
def ProviderOutcome.Fails (outcome : ProviderOutcome) (found : Option Entry) : Prop :=
  outcome.resolved = false ∧ outcome.resources.Vacant ∧ outcome.decoded = found.toList

section Paths

variable (henabled : p.enabled = true)
  (hcreate : ∀ key pixels, device.createImage key pixels = false)
variable (resolution : ReplacementResolution) (formatsize : UInt16) (origW origH : UInt32)
  (selector : UInt64) (replMeta : ReplacementMeta)

theorem DescriptorOutcome.finalize_fails {outcome : DescriptorOutcome} {found : Option Entry}
    (h : outcome.resolved = false ∧ outcome.resources.Vacant ∧ outcome.decoded = found.toList)
    (pathKind : HiresProviderDescriptorPathKind) (key : HiresKey) :
    (outcome.finalize resolution origW origH pathKind selector key).Fails found := by
  obtain ⟨hdecoded, hresolved⟩ := outcome.finalize_decoded resolution origW origH pathKind
    selector key
  refine ⟨hresolved.trans h.1, ?_, hdecoded.trans h.2.2⟩
  rw [DescriptorOutcome.finalize_resources]
  exact h.2.1

include henabled hcreate

theorem HiresResources.Vacant.trySampled (h : r.Vacant) (hvalid : resolution.identity.valid = true) :
    (trySampled device (some p) true resolution origW origH selector r replMeta).Fails
      (p.findSampledEntry resolution.identity.toSampledFamilyLookupKey selector) := by
  rw [Hires.trySampled, hvalid]
  exact DescriptorOutcome.finalize_fails resolution origW origH selector
    (h.resolveDescriptor henabled hcreate _ _ _) _ _

theorem HiresResources.Vacant.tryNativeChecksum (h : r.Vacant) :
    (tryNativeChecksum device (some p) true resolution formatsize origW origH selector r
        replMeta).Fails
      (findNativeEntry p resolution.resolvedChecksum64 formatsize selector) :=
  DescriptorOutcome.finalize_fails resolution origW origH selector
    (h.resolveDescriptor henabled hcreate _ _ _) _ _

theorem HiresResources.Vacant.tryCompat (h : r.Vacant) :
    (tryCompat device (some p) true resolution formatsize origW origH selector r
        replMeta).Fails
      (findCompatEntry p resolution.resolvedChecksum64 formatsize selector) :=
  DescriptorOutcome.finalize_fails resolution origW origH selector
    (h.resolveDescriptor henabled hcreate _ _ _) _ _

end Paths

end Decoded

section Agreement

variable {p : Provider} {e : Entry} {resolution : ReplacementResolution} {formatsize : UInt16}

/-- The condition, by the kind of a resolution, under which its selected entry is found again. -/
def FindsAgain (p : Provider) (formatsize : UInt16) (e : Entry) : ReplacementResolutionKind → Prop
  | .sampledFamilySingleton | .sampledExactSelector | .sampledOrderedSurfaceReservedSelector => True
  | .exactNativeSampled | .genericNativeIdentity => Preferred p e ∧ FitsBest p formatsize e
  | _ => FitsBest p formatsize e

variable {d : Entry}

theorem mem_decoded_trySampled {device : HiresDevice} {shader : Bool}
    {origW origH : UInt32} {selector : UInt64} {r : HiresResources}
    {replMeta : ReplacementMeta}
    (h : d ∈ (trySampled device (some p) shader resolution origW origH
      selector r replMeta).decoded) :
    p.findSampledEntry resolution.identity.toSampledFamilyLookupKey selector =
      some d := by
  rw [trySampled] at h
  split at h
  next => cases h
  next =>
    rw [(DescriptorOutcome.finalize_decoded _ _ _ _ _ _ _).1] at h
    exact HiresResources.mem_decoded_resolveDescriptor h

theorem mem_decoded_orElse {first : ProviderOutcome}
    {second : HiresResources → ReplacementMeta → ProviderOutcome}
    (h : d ∈ (first.orElse second).decoded) :
    d ∈ first.decoded ∨ ∃ r replMeta, d ∈ (second r replMeta).decoded := by
  rw [ProviderOutcome.orElse] at h
  split at h
  next => exact Or.inl h
  next => exact (List.mem_append.mp h).imp_right fun hlast => ⟨_, _, hlast⟩

theorem ProviderOutcome.decoded_orElse {first : ProviderOutcome}
    (h : first.resolved = false) (second : HiresResources → ReplacementMeta → ProviderOutcome) :
    (first.orElse second).decoded =
      first.decoded ++ (second first.resources first.replMeta).decoded := by
  rw [ProviderOutcome.orElse, h]
  rfl

theorem decoded_eq_of_findsAgain (hindexed : p.Indexed) (hdescribes : resolution.Describes e)
    (hselected : SelectedAs p formatsize e resolution.kind)
    (hagain : FindsAgain p formatsize e resolution.kind) (device : HiresDevice)
    (shader : Bool) (origW origH : UInt32) (r : HiresResources)
    (h : d ∈ (r.resolveHiresProviderResolutionDescriptor device (some p) shader
      resolution formatsize origW origH).decoded) : d = e := by
  have hsampled : e.hasNativeSampledIdentity = true → e ∈ p.entries → Preferred p e →
      p.findSampledEntry e.makeSampledFamilyLookupKey e.selectorChecksum64 = some e :=
    fun hclass hmem hpreferred => (findSampledEntry_again hindexed hmem hclass).trans hpreferred
  rw [HiresResources.resolveHiresProviderResolutionDescriptor] at h
  dsimp only at h
  split at h
  next => cases h
  next =>
    cases hkind : resolution.kind with
    | none | sampledOrderedSurfaceReservedSelector | genericNativeIdentity
    | genericNativeChecksum =>
      rw [hkind] at hselected
      exact hselected.elim
    | sampledFamilySingleton | sampledExactSelector =>
      rw [hkind] at hselected h
      have hfound := mem_decoded_trySampled h
      rw [hdescribes.identity, hdescribes.resolvedSelectorChecksum64] at hfound
      exact Option.some.inj (hfound.symm.trans
        (hsampled hselected.1 hselected.2.1 hselected.2.2))
    | exactNativeSampled =>
      rw [hkind] at hselected hagain h
      obtain ⟨hclass, hfindable⟩ := hselected
      dsimp only at h
      split at h
      next => cases h
      next =>
        obtain hfirst | ⟨_, _, hsecond⟩ := mem_decoded_orElse h
        · have hfound := mem_decoded_trySampled hfirst
          rw [hdescribes.identity] at hfound
          exact Option.some.inj (hfound.symm.trans
            (hsampled hclass (List.mem_filter.mp hfindable.mem).1 hagain.1))
        · rw [tryNativeChecksum, (DescriptorOutcome.finalize_decoded _ _ _ _ _ _ _).1] at hsecond
          have hfound := HiresResources.mem_decoded_resolveDescriptor hsecond
          rw [hdescribes.identity, hdescribes.resolvedChecksum64] at hfound
          exact (findNativeEntry_again hindexed hclass hfindable).mpr hagain.2 d hfound
    | genericCompat | ciLow32SelectedDims | ciLow32ReplacementDimsUnique | ciLow32Unique
    | ciLow32Any =>
      rw [hkind] at hselected hagain h
      dsimp only at h
      rw [tryCompat, (DescriptorOutcome.finalize_decoded _ _ _ _ _ _ _).1] at h
      have hfound := HiresResources.mem_decoded_resolveDescriptor h
      rw [hdescribes.resolvedSelectorChecksum64, hdescribes.resolvedChecksum64] at hfound
      exact (findCompatEntry_again hindexed hselected.1 hselected.2).mpr hagain d hfound

theorem findsAgain_of_decoded_eq (hindexed : p.Indexed) (henabled : p.enabled = true)
    (hdescribes : resolution.Describes e) (hselected : SelectedAs p formatsize e resolution.kind)
    (device : HiresDevice) (hcreate : ∀ key pixels, device.createImage key pixels = false)
    {r : HiresResources} (hvacant : r.Vacant) (origW origH : UInt32)
    (h : ∀ d ∈ (r.resolveHiresProviderResolutionDescriptor device (some p) true resolution
      formatsize origW origH).decoded, d = e) : FindsAgain p formatsize e resolution.kind := by
  have hready : ((some p).isNone || !true || !resolution.available) = false := by
    rw [hdescribes.available]
    rfl
  rw [HiresResources.resolveHiresProviderResolutionDescriptor] at h
  simp only [hready, Bool.false_eq_true, if_false] at h
  cases hkind : resolution.kind with
  | none | sampledOrderedSurfaceReservedSelector | genericNativeIdentity | genericNativeChecksum =>
    rw [hkind] at hselected
    exact hselected.elim
  | sampledFamilySingleton | sampledExactSelector => trivial
  | exactNativeSampled =>
    rw [hkind] at hselected h
    obtain ⟨hclass, hfindable⟩ := hselected
    have hvalid : (!resolution.identity.valid) = false := by
      rw [hdescribes.identity]
      exact congrArg not hclass
    simp only [hvalid, Bool.false_eq_true, if_false] at h
    obtain ⟨hresolved, hleft, hdecoded⟩ := hvacant.trySampled henabled hcreate resolution origW
      origH resolution.identity.selectorChecksum64
      { resolution.replMeta with origW := origW, origH := origH } (by simpa using hvalid)
    rw [ProviderOutcome.decoded_orElse hresolved, hdecoded,
      (hleft.tryNativeChecksum henabled hcreate _ _ _ _ _ _).2.2, hdescribes.identity,
      hdescribes.resolvedChecksum64] at h
    have hmem := (List.mem_filter.mp hfindable.mem).1
    constructor
    · obtain ⟨found, hfound⟩ := exists_preferred hmem
      have hlookup := (findSampledEntry_again hindexed hmem hclass).trans hfound
      exact h found (List.mem_append_left _ (Option.mem_toList.mpr hlookup)) ▸ hfound
    · exact (findNativeEntry_again hindexed hclass hfindable).mp fun d hd =>
        h d (List.mem_append_right _ (Option.mem_toList.mpr hd))
  | genericCompat | ciLow32SelectedDims | ciLow32ReplacementDimsUnique | ciLow32Unique
  | ciLow32Any =>
    rw [hkind] at hselected h
    dsimp only at h
    rw [(hvacant.tryCompat henabled hcreate _ _ _ _ _ _).2.2,
      hdescribes.resolvedSelectorChecksum64, hdescribes.resolvedChecksum64] at h
    exact (findCompatEntry_again hindexed hselected.1 hselected.2).mp fun d hd =>
      h d (Option.mem_toList.mpr hd)

end Agreement

theorem run_startOps (p : Provider) :
    (HiresRenderer.run {} (startOps p)).hiresResources.Vacant ∧
      (HiresRenderer.run {} (startOps p)).replacementProvider.map Prod.snd = some p ∧
      (HiresRenderer.run {} (startOps p)).hiresReplacementShader = true := by
  have hcapacity : max (UInt32.ofNat p.entries.length + 1) 1 ≠ 0 := by
    change (if UInt32.ofNat p.entries.length + 1 ≤ 1 then 1 else _) ≠ (0 : UInt32)
    split
    next => decide
    next hlarge => exact fun hzero => hlarge (hzero ▸ (by decide))
  have hfresh : (HiresResources.initHiresResources ⟨true, true, true⟩
      (max (UInt32.ofNat p.entries.length + 1) 1) {}).1.Vacant := by
    rw [HiresResources.initHiresResources, if_neg (by simpa using hcapacity)]
    exact ⟨rfl, rfl⟩
  exact ⟨hfresh, rfl, rfl⟩

/-- What a renderer decodes for a resolution of its provider is the entry that the query
selected, in every state of the renderer and on every device, exactly when the selected entry
is found again. -/
theorem ProviderQuery.decoded_eq_entry_iff (ops : List Op) (enabled : Bool) (q : ProviderQuery)
    {e : Entry} {resolution : ReplacementResolution}
    (hentry : q.entry { Provider.run ops with enabled := enabled } = some e)
    (hresolve : q.resolve { Provider.run ops with enabled := enabled } = some resolution) :
    (∀ (before : List HiresOp) (device : HiresDevice) (origW origH : UInt32) (d : Entry),
      let s := HiresRenderer.run {} before
      s.replacementProvider.map Prod.snd = some { Provider.run ops with enabled := enabled } →
        d ∈ (s.hiresResources.resolveHiresProviderResolutionDescriptor device
          (s.replacementProvider.map Prod.snd) s.hiresReplacementShader resolution q.formatsize
          origW origH).decoded → d = e) ↔
      FindsAgain { Provider.run ops with enabled := enabled } q.formatsize e resolution.kind := by
  have hrun := Provider.run_indexed ops
  have hindexed : Provider.Indexed { Provider.run ops with enabled := enabled } :=
    ⟨hrun.native, hrun.compat, hrun.low32, hrun.sampled, hrun.duplicate, hrun.family, hrun.ordered⟩
  obtain ⟨henabled, hdescribes, hselected⟩ := q.resolve_spec hindexed hentry hresolve
  constructor
  · intro hdecoded
    obtain ⟨hvacant, hprovider, hshader⟩ :=
      run_startOps { Provider.run ops with enabled := enabled }
    refine findsAgain_of_decoded_eq hindexed henabled hdescribes hselected
      (.always false) (fun _ _ => rfl) hvacant 0 0 fun d hd => ?_
    refine hdecoded _ (.always false) 0 0 d hprovider ?_
    rw [hprovider, hshader]
    exact hd
  · intro hagain before device origW origH d s hprovider hd
    rw [hprovider] at hd
    exact decoded_eq_of_findsAgain hindexed hdescribes hselected hagain device _ origW origH _ hd

def small : Entry := inlineEntry 1 1 1 [1, 2, 3, 4]

def large : Entry := inlineEntry 1 2 1 [1, 2, 3, 4, 5, 6, 7, 8]

/-- Two native entries of one sampled identity, in two files. -/
def firstNative : Entry :=
  { small with
    sourcePath := [97]
    hasNativeSampledIdentity := true
    sampledLow32 := 1 }

def secondNative : Entry := { firstNative with sourcePath := [98] }

def dimsQuery (replW replH : UInt32) : ProviderQuery := .ciLow32 1 0 0 replW replH .selectedDims

/-- The entries decoded for a query by a renderer that was just given the provider. -/
def decodedAtStart (p : Provider) (q : ProviderQuery) : List Entry :=
  match q.resolve p with
  | none => []
  | some resolution =>
    ((HiresRenderer.run {} (startOps p)).hiresResources.resolveHiresProviderResolutionDescriptor
      (.always true) (some p) true resolution q.formatsize 0 0).decoded

/-- The entry added last is found again by its checksum. -/
theorem decoded_eq_entry_large :
    ∃ resolution, (dimsQuery 2 1).resolve
        { Provider.run [.addEntry small, .addEntry large] with enabled := true } =
          some resolution ∧
      ∀ (before : List HiresOp) (device : HiresDevice) (origW origH : UInt32) (d : Entry),
        let s := HiresRenderer.run {} before
        s.replacementProvider.map Prod.snd =
            some { Provider.run [.addEntry small, .addEntry large] with enabled := true } →
          d ∈ (s.hiresResources.resolveHiresProviderResolutionDescriptor device
            (s.replacementProvider.map Prod.snd) s.hiresReplacementShader resolution
            (dimsQuery 2 1).formatsize origW origH).decoded → d = large := by
  have hagain : FindsAgain { Provider.run [.addEntry small, .addEntry large] with enabled := true }
      (dimsQuery 2 1).formatsize large .ciLow32SelectedDims := by
    dsimp only [FindsAgain, FitsBest]
    decide
  exact ⟨_, rfl, (ProviderQuery.decoded_eq_entry_iff [.addEntry small, .addEntry large] true
    (dimsQuery 2 1) (by decide) rfl).mpr hagain⟩

/-- Palettized lookups by dimensions decode the entry added last, and an upload that falls back
to the checksum decodes the preferred duplicate. -/
theorem not_decoded_eq_entry :
    ((dimsQuery 1 1).entry (providing [small, large]) = some small ∧
        decodedAtStart (providing [small, large]) (dimsQuery 1 1) = [large]) ∧
      (ProviderQuery.upload { sampledLow32 := 1, sampledWidth := 8 } 0).entry
          (providing [firstNative, secondNative]) = some secondNative ∧
        decodedAtStart (providing [firstNative, secondNative])
          (.upload { sampledLow32 := 1, sampledWidth := 8 } 0) = [firstNative] := by
  decide

end ParallelN64.Hires
